import Flowgen.Proofs.FileNames
import Flowgen.Proofs.SpelledRuns

namespace Flowgen

/-!
# Safe file names

Whatever a workflow is called, its file name is safe: it has none of the
characters that a file name should not have.  A name that is safe already is
kept, so a second turn changes nothing.  With its extension it is one
component below the directory of the language.
-/

namespace Naming

/--
A name without white space and without the characters that a file name should
not have.
-/
def IsSafe (name : List Char) : Prop :=
  ∀ character ∈ name, character ∉
    ['<', '>', ':', '\x22', '/', '\\', '|', '?', '*'] ∧
    Text.isBlank character = false

theorem isSafe_safeName
    (text : List Char) :
    IsSafe (safeName text) := by
  rw [safeName_eq]
  intro character member
  by_contra notSafe
  refine Text.not_mem_intercalate (fun between => notSafe ?_)
    (fun word isWord inside => notSafe ?_) member
  · rw [List.mem_singleton.mp between]
    decide
  · obtain ⟨written, isWritten, rfl⟩ := List.mem_map.mp isWord
    obtain ⟨original, inWritten, rfl⟩ := List.mem_map.mp inside
    constructor
    · change underscored original ∉ forbiddenCharacters
      unfold underscored
      split
      · decide
      · assumption
    · rw [isBlank_underscored]
      exact Text.not_isSeparator_of_mem_splitWhere
        (List.mem_filter.mp isWritten).1 original inWritten

/-- A safe name is one word, in which nothing is replaced. -/
theorem safeName_of_isSafe
    {text : List Char}
    (isSafe : IsSafe text) :
    safeName text = text := by
  have kept : text.map underscored = text :=
    (List.map_congr_left fun character member =>
      if_neg (isSafe character member).1).trans (List.map_id text)
  rw [safeName_eq, underscoredWords, Text.wordsOf]
  by_cases isEmpty : text = []
  · rw [isEmpty]
    rfl
  · have oneWord := @Text.runsOutside_run_append _ text [] isEmpty
      (fun character member => (isSafe character member).2) (by simp)
    rw [List.append_nil] at oneWord
    rw [oneWord, List.map_cons, kept]
    exact List.intercalate_singleton ..

end Naming

namespace Output

open Naming

/--
Every text has a safe file name, which is the text itself if that is safe, and
which is its own file name.  With the extension it is one component, which
lies below the directory of the language, and only making that directory can
fail.
-/
theorem fileName_safe_component
    (name : String) :
    ∃ safe : String, fileName (.text name) = .ok safe ∧ IsSafe safe.toList ∧
      (IsSafe name.toList → safe = name) ∧ fileName (.text safe) = .ok safe ∧
      ∀ language, Path.IsComponent
        (safe ++ Language.extensionOr ".txt" language) ∧
        ∀ (output : Output) (workflow : Value),
          workflow.get "name" (.text "workflow") = .ok (.text name) →
          output.workflowFile workflow language = do
            let directory ← output.languageDirectory language
            return ⟨directory.root,
              directory.parts ++ [safe ++
                Language.extensionOr ".txt" language]⟩ := by
  have isSafe : IsSafe (String.ofList (safeName name.toList)).toList := by
    rw [String.toList_ofList]
    exact isSafe_safeName name.toList
  refine ⟨String.ofList (safeName name.toList), rfl, isSafe,
    fun nameSafe => ?_, ?_, fun language =>
      ⟨isComponent_workflowName language name,
        fun output workflow named => ?_⟩⟩
  · rw [safeName_of_isSafe nameSafe, String.ofList_toList]
  · rw [fileName, Value.textFor, Except.map, safeName_of_isSafe isSafe,
      String.ofList_toList]
  · rw [← workflowName, workflowFile, named]
    simp only [← Path.join_component _ (isComponent_workflowName language name)]
    rfl

/-- Two dots are a safe name, but with the extension they do not lead up. -/
theorem fileName_safe_component_dots :
    IsSafe "..".toList ∧ fileName (.text "..") = .ok ".." ∧
    Path.IsComponent "...php" ∧
      workflowFile ⟨⟨"", ["output"]⟩⟩ (.object [("name", .text "..")])
        "php" = do
        let directory ← languageDirectory ⟨⟨"", ["output"]⟩⟩ "php"
        return ⟨directory.root, directory.parts ++ ["...php"]⟩ := by
  have isSafe : IsSafe "..".toList := by
    unfold IsSafe
    decide
  obtain ⟨safe, named, _, kept, _, found⟩ := fileName_safe_component ".."
  obtain rfl := kept isSafe
  obtain ⟨isComponent, places⟩ := found "php"
  exact ⟨isSafe, named, isComponent, places _ _ rfl⟩

/--
White space at the ends of a name is dropped, and what is forbidden is
replaced.
-/
example : safeName " ../a:b\t\u2003c ".toList = ".._a_b_c".toList := by
  decide

end Output

end Flowgen
