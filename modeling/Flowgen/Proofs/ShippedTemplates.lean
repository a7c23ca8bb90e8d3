import Flowgen.Language
import Flowgen.Proofs.Spacing
import Flowgen.Proofs.TemplateDocuments
import Flowgen.Template.Library
import Mathlib.Data.List.Forall2

namespace Flowgen.Template

/-!
# The templates that come with the program

Every line of the templates is checked once: the templates can be read from
their documents, and their placeholders are known and well spaced.
-/

/-- The names of the placeholders in the class template of a language. -/
def classNames (language : Language) : List (List Char) :=
  ["class_name".toList, "workflow_name".toList, "steps_methods".toList,
    "steps_calls".toList,
   "constructor".toList, "credentials_use".toList, "credentials_import".toList,
   "credentials_require".toList, "credentials_path".toList, "version".toList]
    ++ match language with
      | .javascript => ["credentials_path_base".toList, "module_export".toList]
      | .php | .python => []

/-- The names of the placeholders that are filled in method templates. -/
def methodNames : List (List Char) :=
  ["method_name".toList, "generated_code".toList, "output_key".toList,
    "url".toList,
   "method".toList, "headers".toList, "body".toList, "prompt".toList,
   "model".toList,
   "temperature".toList, "max_tokens".toList, "system_message".toList,
   "api_provider".toList,
   "api_key".toList, "api_url".toList, "tools_code".toList,
   "additional_code".toList]

/-- The names of the placeholders that are left over in method templates. -/
def leftoverNames : List (List Char) :=
  ["condition".toList, "true_branch".toList, "false_branch".toList,
   "credentials_path_base".toList]

/--
Lines that can be read from a document, with well spaced placeholders of some
names.
-/
def FineLines (names : List (List Char)) (code : List String) : Prop :=
  ∀ line ∈ code, CodeLine line.toList ∧ Spaced names line.toList

/-- Whether a line can be read from a document and is well spaced. -/
def isFineLine (names : List (List Char)) (line : List Char) : Bool :=
  line.all Markup.isAllowed && !line.contains '\r' &&
    !Text.occurs [']', ']', '>'] line && isSpacedWithin names 8 line

namespace FineLines

variable {names : List (List Char)} {code : List String}

theorem of_rows
    {rows : List (List Char)}
    (written : List.Forall₂ (fun row line => String.ofList row = line) rows
      code)
    (checked : rows.all (isFineLine names) = true) :
    FineLines names code := by
  induction written with
  | nil =>
      simp [FineLines]
  | @cons row line rows code same _ inductionHypothesis =>
      rw [List.all_cons, Bool.and_eq_true] at checked
      refine List.forall_mem_cons.mpr ⟨?_, inductionHypothesis checked.2⟩
      have first := checked.1
      simp only [isFineLine, Bool.and_eq_true, Bool.not_eq_true',
        ← Bool.not_eq_true,
        List.all_eq_true, List.contains_iff_mem, Text.occurs_iff] at first
      obtain ⟨⟨⟨allowed, noReturn⟩, noEnd⟩, spaced⟩ := first
      rw [← same, String.toList_ofList]
      exact ⟨⟨allowed, noReturn, noEnd⟩, spaced_of_isSpacedWithin spaced⟩

theorem mono
    {others : List (List Char)}
    (fine : FineLines names code)
    (included : names ⊆ others) :
    FineLines others code :=
  fun line member => ⟨(fine line member).1, (fine line member).2.mono included⟩

/-- The text of fine lines is well spaced. -/
theorem spaced
    (fine : FineLines names code) :
    Spaced names (Text.trim (Text.ofLines code)).toList := by
  rw [Text.trim, String.toList_ofList]
  exact (Spaced.ofLines fun line member => (fine line member).2).trimmed

end FineLines

/-- The code of the class template of a language. -/
def classCode : Language → List String
  | .php => Shipped.phpClassCode
  | .python => Shipped.pythonClassCode
  | .javascript => Shipped.javascriptClassCode

theorem fineLines_classCode
    (language : Language) :
    FineLines (classNames language) (classCode language) := by
  cases language
  all_goals
    apply FineLines.of_rows
    · repeat' first
        | exact List.Forall₂.nil
        | apply List.Forall₂.cons
        | rfl
    · simp only [classNames]
      repeat rewrite [String.toList_ofList]
      decide +kernel

theorem constructor_infix_classCode
    (language : Language) :
    tag "constructor".toList <:+:
      (Text.trim (Text.ofLines (classCode language))).toList := by
  cases language with
  | php =>
      have member : "    \x7b\x7bconstructor\x7d\x7d" ∈ classCode .php := by
        decide +kernel
      exact tag_infix_trim member (by decide)
  | python =>
      have member :
          "        \x7b\x7bconstructor\x7d\x7d" ∈ classCode .python := by
        decide +kernel
      exact tag_infix_trim member (by decide)
  | javascript =>
      have member :
          "    \x7b\x7bconstructor\x7d\x7d" ∈ classCode .javascript := by
        decide +kernel
      exact tag_infix_trim member (by decide)

open Shipped in
/-- The codes of all method templates. -/
def methodCodes : List (List String) :=
  [phpFunctionCode, phpHttpRequestCode, phpIfCode, phpSetCode, phpAgentCode,
   pythonFunctionCode, pythonHttpRequestCode, pythonIfCode, pythonSetCode,
   pythonAgentCode,
   javascriptFunctionCode, javascriptHttpRequestCode, javascriptIfCode,
   javascriptSetCode,
   javascriptAgentCode]

/-- The names of the placeholders for a choice and what follows from it. -/
def branchNames : List (List Char) :=
  ["condition".toList, "true_branch".toList, "false_branch".toList]

open Shipped in
/--
The codes of all method templates, each with the placeholders that it leaves
over.
-/
def leftovers : List (List String × List (List Char)) :=
  [(phpFunctionCode, []), (phpHttpRequestCode, []), (phpIfCode, branchNames),
   (phpSetCode, []), (phpAgentCode, []),
   (pythonFunctionCode, []), (pythonHttpRequestCode, []),
   (pythonIfCode, branchNames),
   (pythonSetCode, []), (pythonAgentCode, []),
   (javascriptFunctionCode, []), (javascriptHttpRequestCode, []),
   (javascriptIfCode, branchNames), (javascriptSetCode, []),
   (javascriptAgentCode, ["credentials_path_base".toList])]

theorem leftovers_codes : leftovers.map Prod.fst = methodCodes :=
  rfl

theorem leftovers_names : ∀ entry ∈ leftovers, entry.2 ⊆ leftoverNames := by
  simp only [leftovers, List.forall_mem_cons]
  decide

open Shipped in
/--
Method templates are fine, with no other placeholders than those that they
leave over.
-/
theorem fineLines_leftovers :
    ∀ entry ∈ leftovers, FineLines (methodNames ++ entry.2) entry.1 := by
  simp only [leftovers, List.forall_mem_cons]
  refine ⟨?_, ?_, ?_, ?_, ?_, ?_, ?_, ?_, ?_, ?_, ?_, ?_, ?_, ?_, ?_, by simp⟩
  all_goals
    apply FineLines.of_rows
    · repeat' first
        | exact List.Forall₂.nil
        | apply List.Forall₂.cons
        | rfl
    · simp only [methodNames, branchNames]
      repeat rewrite [String.toList_ofList]
      decide +kernel

theorem fineLines_methodCodes :
    ∀ code ∈ methodCodes, FineLines (methodNames ++ leftoverNames) code := by
  rw [← leftovers_codes]
  refine List.forall_mem_map.mpr fun entry known => ?_
  refine (fineLines_leftovers entry known).mono ?_
  exact List.append_subset.mpr ⟨List.subset_append_left _ _,
    fun name isLeft =>
      List.mem_append_right _ (leftovers_names entry known isLeft)⟩

end Flowgen.Template
