import Flowgen.Proofs.GeneratedClass
import Flowgen.Proofs.NodeTemplates
import Mathlib.Data.List.Perm.Subperm

namespace Flowgen

/-!
# Methods do not depend on the order of filling

The values of a clean node have no placeholders in them, and none form where a
value meets the template.  So the placeholders of a method template may be
filled in any order: each step only touches places of the template, and all
steps together fill it at once.
-/

open Template Session

namespace Template

variable {names : List (List Char)} {slots order : List Slot} {slot : Slot}
  {text name : List Char}

/-- Of slots with different names the one for a tag is found in any order. -/
theorem slotFor?_eq_of_perm
    (perm : order.Perm slots)
    (nodup : (slots.map Slot.name).Nodup)
    (name : List Char) :
    slotFor? order name = slotFor? slots name := by
  have found_iff : ∀ {slots : List Slot}, (slots.map Slot.name).Nodup → ∀ slot,
      slotFor? slots name = some slot ↔
      slot ∈ slots ∧ slot.name.toList = name := by
    intro slots nodup slot
    constructor
    · intro found
      exact ⟨List.mem_of_find?_eq_some found,
        by simpa using List.find?_some found⟩
    · rintro ⟨member, nameIs⟩
      cases found : slotFor? slots name with
      | none =>
          exact absurd nameIs
            (by simpa using List.find?_eq_none.mp found slot member)
      | some other =>
          have otherIs : other.name.toList = name := by
            simpa using List.find?_some found
          have sameName := String.toList_injective (otherIs.trans nameIs.symm)
          rw [List.inj_on_of_nodup_map nodup (List.mem_of_find?_eq_some found)
            member sameName]
  have orderNodup : (order.map Slot.name).Nodup :=
    (perm.map Slot.name).nodup_iff.mpr nodup
  apply Option.ext
  intro slot
  rw [found_iff orderNodup, found_iff nodup, perm.mem_iff]

/-- Slots with different names fill a well spaced text at once in any order. -/
theorem Spaced.atOnceAfter_eq_of_perm
    (spaced : Spaced names text)
    (named : Named slots)
    (perm : order.Perm slots)
    (nodup : (slots.map Slot.name).Nodup) :
    atOnceAfter order 0 text = atOnceAfter slots 0 text := by
  have orderNamed : Named order :=
    fun slot member => named slot (perm.subset member)
  induction spaced with
  | plain free =>
      rw [atOnceAfter_eq_self orderNamed free, atOnceAfter_eq_self named free]
  | slot free apart isName _ apartAfter _ inductionHypothesis =>
      rw [atOnceAfter_slot orderNamed free apart isName apartAfter,
        atOnceAfter_slot named free apart isName apartAfter,
        inductionHypothesis, contentFor,
        slotFor?_eq_of_perm perm nodup, contentFor]

section Contents

variable {template : String}
  (spaced : Spaced names template.toList)
  (named : Named slots)
  (contents : ∀ slot ∈ slots, TagFree slot.content.toList)

include spaced named contents

/--
Contents without tags are filled in one after the other as they are at once.
-/
theorem fill_eq_fillAtOnce_of_tagFree :
    fill template slots = fillAtOnce template slots := by
  rw [fill_eq_fillAtOnce spaced named, settled_eq_self named contents]

/-- Contents without tags can be filled in in any order. -/
theorem fill_eq_of_perm
    (perm : order.Perm slots)
    (nodup : (slots.map Slot.name).Nodup) :
    fill template order = fillAtOnce template slots := by
  have orderNamed : Named order :=
    fun slot member => named slot (perm.subset member)
  have orderContents : ∀ slot ∈ order, TagFree slot.content.toList :=
    fun slot member => contents slot (perm.subset member)
  rw [fill_eq_fillAtOnce_of_tagFree spaced orderNamed orderContents, fillAtOnce,
    fillAtOnce, spaced.atOnceAfter_eq_of_perm named perm nodup]

/-- A slot that has been filled has nothing left to fill. -/
theorem fill_concat_eq_self
    (member : slot ∈ slots) :
    fill template (slots ++ [slot]) = fill template slots := by
  have isName := named slot member
  have absent : ¬ tag slot.name.toList <:+: filled slots template.toList := by
    rw [spaced.tag_infix_filled_iff named contents isName]
    exact fun left => left.2 slot member rfl
  apply String.toList_injective
  rw [fill_toList, fill_toList, filled_append]
  exact replaceAll_tag_eq_self isName absent

end Contents

end Template

namespace Method

variable {host between : Host} {node : Value} {language written code : String}
  {template : NodeTemplate}

/-- The placeholders of a method, each once, with the values that they get. -/
def values (name generated : String) (common : List Slot) : List Slot :=
  ⟨"method_name", name⟩ :: ⟨"generated_code", generated⟩ :: common

/-- The names of the placeholders of a method, each once. -/
def valueNames : List String :=
  "method_name" :: "generated_code" :: commonNames

theorem nodup_valueNames : valueNames.Nodup := by
  decide

theorem isTagName_valueNames : ∀ name ∈ valueNames, IsTagName name.toList := by
  decide

/--
The placeholders of a node are its values, with the code of the node once more
at the end.
-/
theorem slots_eq_values
    {type : String}
    {slots : List Slot}
    (made : Method.slots node type = .ok slots) :
    ∃ name generated common, Naming.methodName node = .ok name ∧
      nodeCode node type = .ok generated ∧ commonSlots node = .ok common ∧
      (values name generated common).map Slot.name = valueNames ∧
      slots = values name generated common ++
      [⟨"generated_code", generated⟩] := by
  simp only [Method.slots, bind_eq_ok, pure_eq_ok] at made
  obtain ⟨name, named, generated, coded, common, commonMade, rfl⟩ := made
  refine ⟨name, generated, common, named, coded, commonMade, ?_, rfl⟩
  rw [values, List.map_cons, List.map_cons, commonSlots_names commonMade,
    valueNames]

/--
The method for a clean node with a shipped template is the template with all
values filled in at once.  The values may be filled in one after the other in
any order: after some of them the text is the template with just these filled
in at once, and no value is changed by filling in others.
-/
theorem ofNode_fills_at_once
    (equipped : Equipped host.files)
    (clean : node.Clean)
    (typed : node.get "type" (.text "") = .ok (.text written))
    (loaded : (Store.standard.loadNode (.text (normalizedType written))
      (.text language)).start host = (.ok (some template), between))
    (made : ((ofNode .standard language node).start host).1 = .ok code) :
    ∃ name generated common, Naming.methodName node = .ok name ∧
      nodeCode node (normalizedType written) = .ok generated ∧
      commonSlots node = .ok common ∧
      (values name generated common).map Slot.name = valueNames ∧
      code = fillAtOnce template.method (values name generated common) ∧
      (∀ order, order.Perm (values name generated common) →
        fill template.method order = code) ∧
      (∀ done, done.Subperm (values name generated common) →
        fill template.method done = fillAtOnce template.method done) ∧
      ∀ value ∈ values name generated common,
      ∀ others ⊆ values name generated common,
        fill value.content others = value.content := by
  obtain ⟨noBrace, lines, known, templateIs⟩ := equipped.loadNode loaded
  have spaced :
      Spaced (methodNames ++ leftoverNames) template.method.toList := by
    rw [templateIs]
    exact (fineLines_methodCodes lines known).spaced
  have fromTemplate :
      ofTemplate template.method node (normalizedType written) = .ok code := by
    obtain ⟨other, found, _, otherTyped, otherLoaded,
      ⟨loadedTemplate, rfl, filled⟩ | ⟨rfl, _⟩⟩ :=
      ofNode_eq_ok made
    · obtain rfl := Value.text.inj (Except.ok.inj (typed.symm.trans otherTyped))
      have same := congrArg Prod.fst (loaded.symm.trans otherLoaded)
      obtain rfl := Option.some.inj (Except.ok.inj same)
      exact filled
    · obtain rfl := Value.text.inj (Except.ok.inj (typed.symm.trans otherTyped))
      cases loaded.symm.trans otherLoaded
  obtain ⟨slots, slotsMade, isCode⟩ := bind_eq_ok.mp fromTemplate
  have codeIs := pure_eq_ok.mp isCode
  have slotsFree := tagFree_slots clean (.of_not_mem noBrace) slotsMade
  obtain ⟨name, generated, common, named, coded, commonMade, namesAre, rfl⟩ :=
    slots_eq_values slotsMade
  have contents :
      ∀ slot ∈ values name generated common, TagFree slot.content.toList :=
    fun slot member => slotsFree slot (List.mem_append_left _ member)
  have isNamed : Named (values name generated common) :=
    named_of_names isTagName_valueNames namesAre
  have nodup : ((values name generated common).map Slot.name).Nodup := by
    rw [namesAre]
    exact nodup_valueNames
  have atOnce :
      code = fillAtOnce template.method (values name generated common) := by
    rw [← codeIs, fill_concat_eq_self spaced isNamed contents
      (by simp [values]), fill_eq_fillAtOnce_of_tagFree spaced isNamed contents]
  refine ⟨name, generated, common, named, coded, commonMade, namesAre, atOnce,
    ?_, ?_, ?_⟩
  · intro order perm
    rw [fill_eq_of_perm spaced isNamed contents perm nodup, atOnce]
  · intro done isPart
    exact fill_eq_fillAtOnce_of_tagFree spaced
      (fun slot member => isNamed slot (isPart.subset member))
      fun slot member => contents slot (isPart.subset member)
  · intro value isValue others included
    exact fill_eq_self_of_tagFree
      (fun slot member => isNamed slot (included member))
      (contents value isValue)

/-- A node that sends braces of all kinds, but no placeholder. -/
def sender : Value :=
  .object [("id", .text "a"), ("name", .text "Enviar \x7b\x7b"),
    ("type", .text "n8n-nodes-httpRequest"),
    ("parameters", .object [("url",
      .text "https://\x7b\x7bURL\x7d\x7d/\x7b\x7bmethod\x7d"),
      ("body", .object [("\x7b\x7b",
        .object [("prompt", .object [("\x7d\x7d", .list [])])])])])]

/-- The method of the sender is filled at once. -/
theorem ofNode_sender_fills_at_once :
    Equipped Class.Generator.freshHost.files ∧ sender.Clean ∧
    sender.get "type" (.text "") = .ok (.text "n8n-nodes-httpRequest") ∧
    ∃ template between code,
      (Store.standard.loadNode (.text (normalizedType "n8n-nodes-httpRequest"))
        (.text "php")).start
        Class.Generator.freshHost = (.ok (some template), between) ∧
      ((ofNode .standard "php" sender).start Class.Generator.freshHost).1 =
        .ok code ∧
      ∃ name generated common, Naming.methodName sender = .ok name ∧
        code = fillAtOnce template.method (values name generated common) ∧
        ∀ order, order.Perm (values name generated common) →
          fill template.method order = code := by
  have clean : sender.Clean := by decide
  have isType : normalizedType "n8n-nodes-httpRequest" = "httpRequest" := by
    decide +kernel
  have known :
      ("httpRequest", Shipped.phpHttpRequestCode) ∈ typedCodes .php := by
    simp [typedCodes]
  have noOwn : NoOwn Class.Generator.freshHost.files .php "httpRequest" := by
    intro
    decide +kernel
  have equipped := Class.Generator.equipped_freshHost
  obtain ⟨title, loaded⟩ := equipped.exists_loadNode_eq noOwn known
  obtain ⟨code, made⟩ :=
    exists_ofNode_eq equipped noOwn (show sender.get "type" (.text "") =
    .ok (.text "n8n-nodes-httpRequest") from rfl) isType known
      (by decide +kernel)
  rw [← isType] at loaded
  obtain ⟨name, generated, common, named, _, _, _, atOnce, anyOrder, _⟩ :=
    ofNode_fills_at_once equipped clean rfl loaded made
  exact ⟨equipped, clean, rfl, _, _, code, loaded, made, name, generated,
    common, named, atOnce, anyOrder⟩

end Method

end Flowgen
