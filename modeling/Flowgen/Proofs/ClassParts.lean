import Flowgen.Class.Generator
import Flowgen.Proofs.CalmTexts
import Flowgen.Proofs.TemplateFiles

namespace Flowgen.Class

/-!
# The parts of a class

The placeholders of a class template are filled one after the other, so each
one is also looked for in all that was filled in before it.  For parts that
bring no placeholders with them this makes no difference but one: methods in
JavaScript may still have the placeholder for the directory of credentials.
-/

open Template

/-- The texts that a class is made of. -/
structure Parts where
  className : String
  workflowName : String
  codes : List String
  calls : List String
  constructor : String
  imports : String

namespace Parts

/-- The placeholders that only one language has. -/
def ownSlots (parts : Parts) : Language → List Slot
  | .javascript =>
      [⟨"credentials_path_base", "../credentials"⟩,
       ⟨"module_export", "module.exports = " ++ parts.className ++ ";"⟩]
  | .php | .python => []

/-- The placeholders for credentials and the version. -/
def credentialSlots (parts : Parts) (language : Language) : List Slot :=
  [⟨"credentials_use", parts.imports⟩,
   ⟨"credentials_import", parts.imports⟩,
   ⟨"credentials_require", parts.imports⟩,
   ⟨"credentials_path", "../credentials/Credentials" ++ language.extension⟩,
   ⟨"version", "1.0.0"⟩]

/-- The placeholders that are filled after the constructor. -/
def closingSlots (parts : Parts) (language : Language) : List Slot :=
  parts.credentialSlots language ++ parts.ownSlots language

/-- The names of the placeholders that are filled after the constructor. -/
def closingNames (language : Language) : List String :=
  ["credentials_use", "credentials_import", "credentials_require",
    "credentials_path", "version"] ++ match language with
      | .javascript => ["credentials_path_base", "module_export"]
      | .php | .python => []

/--
The placeholders of a class template, with what stands in their place in a
class.
-/
def slots (parts : Parts) (language : Language) : List Slot :=
  ⟨"class_name", parts.className⟩ ::
  ⟨"workflow_name", parts.workflowName⟩ ::
  ⟨"steps_methods", Text.join "\n\n    " parts.codes⟩ ::
  ⟨"steps_calls", Text.join "\n            " parts.calls⟩ ::
  ⟨"constructor", parts.constructor⟩ ::
  parts.closingSlots language

/-- The code of a method as it stands in a class. -/
def finishedCode (language : Language) (code : String) : String :=
  match language with
  | .javascript =>
      Text.replace code (placeholder "credentials_path_base") "../credentials"
  | .php | .python => code

/-- The parts with the codes of methods as they stand in a class. -/
def finished (parts : Parts) (language : Language) : Parts :=
  { parts with codes := parts.codes.map (finishedCode language) }

variable {parts : Parts} {language : Language}

theorem classSlots_eq
    (parts : Parts)
    (language : Language) :
    Generator.classSlots language.code parts.className parts.workflowName
      parts.codes parts.calls
      parts.constructor parts.imports = parts.slots language := by
  have reference : Output.credentialsReference language.code =
      "../credentials/Credentials" ++ language.extension := by
    cases language <;> decide +kernel
  have directory : Generator.directoryOf "../credentials/Credentials.js" =
      "../credentials" := by
    decide +kernel
  rw [Generator.classSlots, reference]
  cases language with
  | php =>
      rfl
  | python =>
      rfl
  | javascript =>
      have written :
          "../credentials/Credentials" ++ Language.javascript.extension =
          "../credentials/Credentials.js" := by
        decide +kernel
      simp only [Generator.languageSlots, Language.code, if_true, written,
        directory, slots,
        closingSlots, credentialSlots, ownSlots, List.cons_append,
        List.nil_append]

theorem slots_names
    (parts : Parts)
    (language : Language) :
    (parts.slots language).map (fun slot => slot.name.toList) =
      classNames language := by
  cases language <;> rfl

theorem closingSlots_names
    (parts : Parts)
    (language : Language) :
    (parts.closingSlots language).map Slot.name = closingNames language := by
  cases language <;> rfl

theorem named_slots
    (parts : Parts)
    (language : Language) :
    Named (parts.slots language) := by
  have known : ∀ name ∈ classNames language, IsTagName name := by
    cases language <;> decide
  intro slot member
  apply known
  rw [← parts.slots_names language]
  exact List.mem_map_of_mem (f := fun slot => slot.name.toList) member

theorem nodup_slots
    (parts : Parts)
    (language : Language) :
    ((parts.slots language).map fun slot => slot.name.toList).Nodup := by
  rw [parts.slots_names language]
  cases language <;> decide

/--
Parts that bring nothing into a class that would be filled later, but for what
the methods leave over.
-/
structure Clean (parts : Parts) (language : Language) : Prop where
  className : '\x7b' ∉ parts.className.toList
  workflowName : TagFree parts.workflowName.toList
  codes : ∀ code ∈ parts.codes, TagsIn leftoverNames code.toList
  calls : ∀ call ∈ parts.calls, '\x7b' ∉ call.toList
  constructor : ∀ slot ∈ parts.closingSlots language,
    ¬ tag slot.name.toList <:+: parts.constructor.toList
  imports : TagFree parts.imports.toList

theorem tagFree_calls
    (plain : ∀ call ∈ parts.calls, '\x7b' ∉ call.toList) :
    TagFree (Text.join "\n            " parts.calls).toList := by
  rw [Text.join_toList]
  exact .intercalate (firm_toList _ (by decide))
    (List.forall_mem_map.mpr fun call member => .of_not_mem (plain call member))

/-- What is filled in after the constructor has no tags. -/
theorem Clean.tagFree_closingSlots
    (clean : parts.Clean language) :
    ∀ slot ∈ parts.closingSlots language, TagFree slot.content.toList := by
  have exportFree :
      TagFree ("module.exports = " ++ parts.className ++ ";").toList :=
    .of_not_mem (brace_not_mem_append
      (brace_not_mem_append (by decide) clean.className) (by decide))
  have ownFree :
      ∀ slot ∈ parts.ownSlots language, TagFree slot.content.toList := by
    cases language with
    | php =>
        simp [ownSlots]
    | python =>
        simp [ownSlots]
    | javascript =>
        simp only [ownSlots, List.forall_mem_cons]
        exact ⟨.of_not_mem (by decide), exportFree, by simp⟩
  refine List.forall_mem_append.mpr ⟨?_, ownFree⟩
  simp only [credentialSlots, List.forall_mem_cons]
  refine ⟨clean.imports, clean.imports, clean.imports, ?_,
    .of_not_mem (by decide), by simp⟩
  cases language <;> exact .of_not_mem (by decide)

/--
What is filled after the methods changes the code of a method in at most one
way.
-/
theorem filled_methodCode
    {code : String}
    {calls constructor : String}
    (parts : Parts)
    (tags : TagsIn leftoverNames code.toList) :
    filled (⟨"steps_calls", calls⟩ :: ⟨"constructor", constructor⟩ ::
      parts.closingSlots language)
      code.toList = (finishedCode language code).toList := by
  have absent : ∀ name, IsTagName name → name ∉ leftoverNames →
      ¬ tag name <:+: code.toList :=
    fun name isName isOther found => isOther (tags name isName found)
  have shared :
      filled (⟨"steps_calls", calls⟩ :: ⟨"constructor", constructor⟩ ::
      parts.credentialSlots language) code.toList = code.toList := by
    refine filled_eq_self ?_ ?_
    · simp only [Named, credentialSlots, List.forall_mem_cons]
      exact ⟨by decide, by decide, by decide, by decide, by decide, by decide,
        by decide, by simp⟩
    · simp only [credentialSlots, List.forall_mem_cons]
      refine ⟨?_, ?_, ?_, ?_, ?_, ?_, ?_, by simp⟩
      all_goals exact absent _ (by decide) (by decide)
  rw [closingSlots, ← List.cons_append, ← List.cons_append, filled_append,
    shared]
  cases language with
  | php =>
      rfl
  | python =>
      rfl
  | javascript =>
      have directory :
          "../credentials".toList = '.' :: "./credentials".toList := by decide
      -- The directory of credentials brings no tags, so the export finds
      -- nothing to fill.
      have noExport : ¬ tag "module_export".toList <:+:
          Text.replaceAll (tag "credentials_path_base".toList)
            "../credentials".toList code.toList := by
        intro found
        rw [directory] at found
        obtain ⟨inCode, _⟩ :=
          tag_of_tag_replaceAll (by decide) (by decide) (by decide) found
        exact absent _ (by decide) (by decide) inCode
      rw [finishedCode, Text.replace_toList, placeholder_toList, ownSlots,
        filled_cons, filled_cons, replaceAll_tag_eq_self (by decide) noExport]
      rfl

/--
Filling the placeholders one after the other finishes the codes of methods,
and leaves everything else that was filled in as it is.
-/
theorem settled_slots
    (clean : parts.Clean language) :
    settled (parts.slots language) =
      (parts.finished language).slots language := by
  obtain ⟨_, namedOne⟩ := List.forall_mem_cons.mp (parts.named_slots language)
  obtain ⟨_, namedTwo⟩ := List.forall_mem_cons.mp namedOne
  obtain ⟨_, namedMethods⟩ := List.forall_mem_cons.mp namedTwo
  obtain ⟨_, namedCalls⟩ := List.forall_mem_cons.mp namedMethods
  obtain ⟨_, namedClosing⟩ := List.forall_mem_cons.mp namedCalls
  have classFree : TagFree parts.className.toList := .of_not_mem clean.className
  have constructorKept : fill parts.constructor (parts.closingSlots language) =
      parts.constructor := by
    apply String.toList_injective
    rw [fill_toList, filled_eq_self namedClosing clean.constructor]
  have methodsFinished : fill (Text.join "\n\n    " parts.codes)
      (⟨"steps_calls", Text.join "\n            " parts.calls⟩ ::
        ⟨"constructor", parts.constructor⟩ :: parts.closingSlots language) =
      Text.join "\n\n    " (parts.codes.map (finishedCode language)) := by
    apply String.toList_injective
    rw [fill_toList, Text.join_toList, Text.join_toList,
      filled_intercalate namedMethods (by decide) (by decide), List.map_map,
      List.map_map]
    congr 1
    apply List.map_congr_left
    intro code member
    rw [Function.comp_apply, Function.comp_apply,
      parts.filled_methodCode (clean.codes code member)]
  rw [slots, settled, settled, settled, settled, settled,
    settled_eq_self namedClosing clean.tagFree_closingSlots,
    fill_eq_self_of_tagFree namedOne classFree,
    fill_eq_self_of_tagFree namedTwo clean.workflowName, methodsFinished,
    fill_eq_self_of_tagFree namedCalls (tagFree_calls clean.calls),
    constructorKept]
  rfl

end Parts

end Flowgen.Class
