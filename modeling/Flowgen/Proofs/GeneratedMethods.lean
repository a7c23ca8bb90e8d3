import Flowgen.Proofs.ClassTexts
import Flowgen.Proofs.TemplateFiles

namespace Flowgen

/-!
# The methods of a class

Making the method of a node only reads files and prints, so it gives the same
code wherever it stands in a run.  The methods of a class are those of its
nodes one after the other, without the empty ones, and from shipped templates
they keep only the placeholders that those templates leave over.
-/

open Template Session

namespace Method

variable {node : Value} {host after : Host}

/-- The names of the placeholders of a node. -/
def slotNames : List String :=
  "method_name" :: "generated_code" :: commonNames ++ ["generated_code"]

theorem isTagName_slotNames : ∀ name ∈ slotNames, IsTagName name.toList := by
  decide

theorem methodNames_filled :
    ∀ name ∈ methodNames, ∃ other ∈ slotNames, other.toList = name := by
  decide

theorem slots_names
    {type : String}
    {slots : List Slot}
    (made : Method.slots node type = .ok slots) :
    slots.map Slot.name = slotNames := by
  obtain ⟨_, _, _, _, names⟩ := slots_eq_ok made
  exact names

theorem named_slots
    {type : String}
    {slots : List Slot}
    (made : Method.slots node type = .ok slots) :
    Named slots :=
  named_of_names isTagName_slotNames (slots_names made)

/--
A method from a well spaced template keeps only the placeholders that are left
over.
-/
theorem tagsIn_ofTemplate
    {template type code : String}
    (spaced : Spaced (methodNames ++ leftoverNames) template.toList)
    (clean : node.Clean)
    (typeFree : TagFree type.toList)
    (made : ofTemplate template node type = .ok code) :
    TagsIn leftoverNames code.toList := by
  obtain ⟨slots, slotsMade, made⟩ := bind_eq_ok.mp made
  obtain rfl := pure_eq_ok.mp made
  rw [fill_toList]
  refine spaced.tagsIn_filled (named_slots slotsMade)
    (tagFree_slots clean typeFree slotsMade) ?_
  intro name known
  rcases List.mem_append.mp known with isMethod | isLeftover
  · obtain ⟨other, isSlot, otherIs⟩ := methodNames_filled name isMethod
    rw [← slots_names slotsMade] at isSlot
    obtain ⟨slot, member, rfl⟩ := List.mem_map.mp isSlot
    exact .inr ⟨slot, member, otherIs⟩
  · exact .inl isLeftover

theorem reports_ofNode
    (store : Store)
    (language : String)
    (node : Value) :
    Reports (ofNode store language node) := by
  unfold ofNode
  refine .bind (.lift _) fun written => .bind (.lift _) fun type =>
    .bind (reports_loadNode store _ _) fun template => ?_
  cases template with
  | some template =>
      exact .lift _
  | none =>
      exact .lift _

/--
The method of a node comes from the template for its type, or is the plain
one.
-/
theorem ofNode_eq_ok
    {store : Store}
    {language code : String}
    (made : ((ofNode store language node).start host).1 = .ok code) :
    ∃ written template? between,
      node.get "type" (.text "") = .ok (.text written) ∧
      (store.loadNode (.text (normalizedType written)) (.text language)).start
        host = (.ok template?, between) ∧
      ((∃ template, template? = some template ∧
          ofTemplate template.method node (normalizedType written) = .ok code) ∨
        (template? = none ∧ defaultMethod node = .ok code)) := by
  have ended : (ofNode store language node).start host =
      (.ok code, ((ofNode store language node).start host).2) := by
    rw [← made]
  generalize ((ofNode store language node).start host).2 = after at ended
  unfold ofNode at ended
  obtain ⟨value, isValue, ended⟩ := lift_bind_start_eq_ok.mp ended
  obtain ⟨written, isText, ended⟩ := lift_bind_start_eq_ok.mp ended
  rw [Value.textFor_eq_ok.mp isText] at isValue
  obtain ⟨template?, between, loaded, ended⟩ := bind_start_eq_ok.mp ended
  refine ⟨written, template?, between, isValue, loaded, ?_⟩
  cases template? with
  | some template =>
      rw [start_lift, Prod.mk.injEq] at ended
      exact .inl ⟨template, rfl, ended.1⟩
  | none =>
      rw [start_lift, Prod.mk.injEq] at ended
      exact .inr ⟨rfl, ended.1⟩

/-- What is loaded for the type of a node decides which method it has. -/
theorem start_ofNode_of_load
    {store : Store}
    {language written : String}
    {template? : Option NodeTemplate}
    (typed : node.get "type" (.text "") = .ok (.text written))
    (loaded : (store.loadNode (.text (normalizedType written))
      (.text language)).start host = (.ok template?, after)) :
    (ofNode store language node).start host =
      (template?.elim (defaultMethod node) fun template =>
        ofTemplate template.method node (normalizedType written), after) := by
  rw [ofNode, typed, start_bind, start_lift]
  dsimp only
  rw [Value.textFor, start_bind, start_lift]
  dsimp only
  rw [start_bind, loaded]
  cases template? with
  | some template =>
      exact start_lift _
  | none =>
      exact start_lift _

/--
The method of a clean node keeps only the placeholders that are left over.
-/
theorem tagsIn_ofNode
    {language code : String}
    (equipped : Equipped host.files)
    (clean : node.Clean)
    (made : ((ofNode .standard language node).start host).1 = .ok code) :
    TagsIn leftoverNames code.toList := by
  obtain ⟨written, _, between, _, loaded,
    ⟨template, rfl, made⟩ | ⟨rfl, made⟩⟩ := ofNode_eq_ok made
  · obtain ⟨noBrace, lines, known, templateIs⟩ := equipped.loadNode loaded
    rw [templateIs] at made
    exact tagsIn_ofTemplate (fineLines_methodCodes lines known).spaced clean
      (.of_not_mem noBrace) made
  · exact .of_tagFree (tagFree_defaultMethod clean made)

end Method

namespace Class.Generator

variable {generator : Generator} {host after : Host} {nodes : List Value}

theorem reports_methods
    (generator : Generator)
    (nodes : List Value) :
    Reports (generator.methods nodes) := by
  induction nodes with
  | nil =>
      exact .pure _
  | cons node nodes inductionHypothesis =>
      unfold methods
      refine .bind (Method.reports_ofNode _ _ _) fun code => ?_
      split
      · exact inductionHypothesis
      · exact .bind (.lift _) fun name => .bind inductionHypothesis fun _ =>
          .pure _

/-- Nodes on a host, each with the code that its method has by itself. -/
structure Mapping
    (generator : Generator)
    (host : Host)
    (nodes : List Value) where
  entries : List (Value × String)
  ofNodes : entries.map Prod.fst = nodes
  coded : ∀ entry ∈ entries,
    ((Method.ofNode generator.store generator.language entry.1).start host).1 =
      .ok entry.2

namespace Mapping

/-- The nodes whose code is not empty, in order, with their codes. -/
def kept (mapping : Mapping generator host nodes) : List (Value × String) :=
  mapping.entries.filter fun entry => entry.2 ≠ ""

/-- The codes that are not empty, in the order of the nodes. -/
def codes (mapping : Mapping generator host nodes) : List String :=
  mapping.kept.map Prod.snd

/--
Texts that call the methods which are not empty, one each and in the order of
the nodes.
-/
def Calls
    (mapping : Mapping generator host nodes)
    (calls : List String) :
    Prop :=
  List.Forall₂
    (fun entry call =>
      ∃ name, Naming.methodName entry.1 = .ok name ∧
        call = "$this->" ++ name ++ "();")
    mapping.kept calls

/-- The mapping of no nodes. -/
def nil : Mapping generator host [] where
  entries := []
  ofNodes := rfl
  coded := by simp

/-- The mapping of one node more. -/
def cons
    (mapping : Mapping generator host nodes)
    {node : Value}
    {code : String}
    (made : ((Method.ofNode generator.store generator.language node).start
      host).1 = .ok code) :
    Mapping generator host (node :: nodes) where
  entries := (node, code) :: mapping.entries
  ofNodes := by rw [List.map_cons, mapping.ofNodes]
  coded := List.forall_mem_cons.mpr ⟨made, mapping.coded⟩

theorem kept_cons_of_empty
    (mapping : Mapping generator host nodes)
    {node : Value}
    (made : ((Method.ofNode generator.store generator.language node).start
      host).1 = .ok "") :
    (mapping.cons made).kept = mapping.kept :=
  List.filter_cons_of_neg (by simp)

theorem kept_cons_of_not_empty
    (mapping : Mapping generator host nodes)
    {node : Value}
    {code : String}
    (made : ((Method.ofNode generator.store generator.language node).start
      host).1 = .ok code)
    (notEmpty : code ≠ "") :
    (mapping.cons made).kept = (node, code) :: mapping.kept :=
  List.filter_cons_of_pos (by simp [notEmpty])

theorem exists_mapping
    (coded : ∀ node ∈ nodes, ∃ code,
      ((Method.ofNode generator.store generator.language node).start host).1 =
        .ok code)
    (named : ∀ node ∈ nodes, ∃ name, Naming.methodName node = .ok name) :
    ∃ (mapping : Mapping generator host nodes) (calls : List String),
    mapping.Calls calls := by
  induction nodes with
  | nil =>
      exact ⟨.nil, [], .nil⟩
  | cons node nodes inductionHypothesis =>
      obtain ⟨⟨code, made⟩, restCoded⟩ := List.forall_mem_cons.mp coded
      obtain ⟨⟨name, nameIs⟩, restNamed⟩ := List.forall_mem_cons.mp named
      obtain ⟨mapping, calls, areCalls⟩ :=
        inductionHypothesis restCoded restNamed
      by_cases empty : code = ""
      · subst empty
        refine ⟨mapping.cons made, calls, ?_⟩
        rwa [Calls, mapping.kept_cons_of_empty made]
      · refine ⟨mapping.cons made, ("$this->" ++ name ++ "();") :: calls, ?_⟩
        rw [Calls, mapping.kept_cons_of_not_empty made empty]
        exact .cons ⟨name, nameIs, rfl⟩ areCalls

theorem tagsIn_codes
    (mapping : Mapping generator host nodes)
    (standard : generator.store = .standard)
    (equipped : Equipped host.files)
    (clean : ∀ node ∈ nodes, node.Clean) :
    ∀ code ∈ mapping.codes, TagsIn leftoverNames code.toList := by
  intro code member
  obtain ⟨entry, isKept, rfl⟩ := List.mem_map.mp member
  have isEntry := List.mem_of_mem_filter isKept
  have made := mapping.coded entry isEntry
  rw [standard] at made
  apply Method.tagsIn_ofNode equipped _ made
  apply clean
  rw [← mapping.ofNodes]
  exact List.mem_map_of_mem isEntry

theorem brace_not_mem_calls
    {mapping : Mapping generator host nodes}
    {calls : List String}
    (areCalls : mapping.Calls calls) :
    ∀ call ∈ calls, '\x7b' ∉ call.toList := by
  intro call member
  obtain ⟨position, inside, rfl⟩ := List.getElem_of_mem member
  obtain ⟨name, named, isCall⟩ :=
    areCalls.get (areCalls.length_eq ▸ inside) inside
  change calls[position] = _ at isCall
  rw [isCall]
  exact brace_not_mem_call (Naming.brace_not_mem_methodName named)

end Mapping

/--
The methods that are made one after the other are those of the nodes by
themselves, without the empty ones.  The files stay the same while they are
made, so each code is the one that its node has on the host at the start.
-/
theorem methods_eq_ok
    {start : Host}
    {codes calls : List String}
    (same : Session.Alike start host)
    (made : (generator.methods nodes).start start =
      (.ok (codes, calls), after)) :
    ∃ mapping : Mapping generator host nodes, codes = mapping.codes ∧
    mapping.Calls calls := by
  induction nodes generalizing start codes calls with
  | nil =>
      cases made
      exact ⟨.nil, rfl, .nil⟩
  | cons node nodes inductionHypothesis =>
      unfold methods at made
      obtain ⟨code, between, codeMade, made⟩ := bind_start_eq_ok.mp made
      have reports :=
        Method.reports_ofNode generator.store generator.language node
      have codeHere :
          ((Method.ofNode generator.store generator.language node).start
            host).1 = .ok code := by
        rw [reports.outcome_eq same.symm, codeMade]
      have sameBetween : Session.Alike between host := by
        have same := (reports.alike start).trans same
        rwa [codeMade] at same
      by_cases empty : code = ""
      · subst empty
        rw [if_pos rfl] at made
        obtain ⟨mapping, codesAre, areCalls⟩ :=
          inductionHypothesis sameBetween made
        have keptAre := mapping.kept_cons_of_empty codeHere
        refine ⟨mapping.cons codeHere, ?_, ?_⟩
        · rw [codesAre, Mapping.codes, Mapping.codes, keptAre]
        · rwa [Mapping.Calls, keptAre]
      · rw [if_neg empty] at made
        obtain ⟨name, named, made⟩ := lift_bind_start_eq_ok.mp made
        obtain ⟨⟨restCodes, restCalls⟩, _, restMade, made⟩ :=
          bind_start_eq_ok.mp made
        cases made
        obtain ⟨mapping, codesAre, areCalls⟩ :=
          inductionHypothesis sameBetween restMade
        have keptAre := mapping.kept_cons_of_not_empty codeHere empty
        refine ⟨mapping.cons codeHere, ?_, ?_⟩
        · rw [codesAre, Mapping.codes, Mapping.codes, keptAre, List.map_cons]
        · rw [Mapping.Calls, keptAre]
          exact .cons ⟨name, named, rfl⟩ areCalls

theorem methods_of_mapping
    {start : Host}
    {calls : List String}
    (same : Session.Alike start host)
    (mapping : Mapping generator host nodes)
    (areCalls : mapping.Calls calls) :
    ∃ after, (generator.methods nodes).start start =
      (.ok (mapping.codes, calls), after) := by
  obtain ⟨entries, rfl, coded⟩ := mapping
  unfold Mapping.Calls Mapping.kept at areCalls
  unfold Mapping.codes Mapping.kept
  dsimp only at areCalls ⊢
  induction entries generalizing start calls with
  | nil =>
      cases areCalls
      exact ⟨start, rfl⟩
  | cons entry entries inductionHypothesis =>
      obtain ⟨entryCoded, restCoded⟩ := List.forall_mem_cons.mp coded
      have reports :=
        Method.reports_ofNode generator.store generator.language entry.1
      have codeMade : (Method.ofNode generator.store generator.language
          entry.1).start start =
          (.ok entry.2, ((Method.ofNode generator.store generator.language
            entry.1).start start).2) := by
        rw [← entryCoded, reports.outcome_eq same.symm]
      have sameBetween := (reports.alike start).trans same
      rw [List.map_cons, methods, start_bind, codeMade]
      dsimp only
      by_cases empty : entry.2 = ""
      · rw [List.filter_cons_of_neg (by simp [empty])] at areCalls ⊢
        rw [if_pos empty]
        exact inductionHypothesis sameBetween restCoded areCalls
      · rw [List.filter_cons_of_pos (by simp [empty])] at areCalls ⊢
        obtain ⟨call, rest, ⟨name, named, rfl⟩, restCalls, rfl⟩ :=
          List.forall₂_cons_left_iff.mp areCalls
        obtain ⟨after, restMade⟩ :=
          inductionHypothesis sameBetween restCoded restCalls
        refine ⟨after, ?_⟩
        rw [if_neg empty, start_bind, start_lift, named]
        dsimp only
        rw [start_bind, restMade]
        rfl

end Class.Generator

namespace ExecutionOrder

theorem clean_ordered
    {nodes : Value}
    {inOrder : List Value}
    (clean : nodes.Clean)
    (made : ordered nodes = .ok inOrder) :
    ∀ node ∈ inOrder, node.Clean := by
  unfold ordered at made
  obtain ⟨places, _, made⟩ := bind_eq_ok.mp made
  split at made
  · obtain ⟨all, areAll, made⟩ := bind_eq_ok.mp made
    obtain rfl := pure_eq_ok.mp made
    intro node member
    obtain ⟨place, _, found⟩ := List.mem_filterMap.mp member
    exact clean.elements areAll node (List.mem_of_getElem? found)
  · obtain ⟨all, areAll, made⟩ := bind_eq_ok.mp made
    cases areAll
    obtain rfl := pure_eq_ok.mp made
    simp

end ExecutionOrder

end Flowgen
