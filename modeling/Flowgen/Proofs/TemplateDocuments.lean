import Flowgen.Proofs.PlainDocuments
import Flowgen.Template.Shipped.Layout
import Flowgen.Template.Store

namespace Flowgen.Template

/-!
# Reading template documents

The document that is made around lines of code gives back these lines when it is
read, without the white space around them.
-/

/-- A line that can stand in the section of a template document. -/
structure CodeLine (line : List Char) : Prop where
  allowed : ∀ character ∈ line, Markup.isAllowed character = true
  noReturn : '\r' ∉ line
  noEnd : ¬ [']', ']', '>'] <:+: line

section Lines

variable {first second lines : List String}

theorem ofLines_append
    (firstNotNil : first ≠ [])
    (secondNotNil : second ≠ []) :
    (Text.ofLines (first ++ second)).toList =
      (Text.ofLines first).toList ++ '\n' :: (Text.ofLines second).toList := by
  rw [Text.ofLines, Text.join_append "\n" firstNotNil secondNotNil,
    String.toList_append, String.toList_append, List.append_assoc]
  rfl

theorem forall_mem_ofLines
    {holds : Char → Prop}
    (atBreak : holds '\n')
    (inLines : ∀ line ∈ lines, ∀ character ∈ line.toList, holds character) :
    ∀ character ∈ (Text.ofLines lines).toList, holds character := by
  intro character member
  rw [Text.ofLines, Text.join, String.toList_ofList] at member
  induction lines with
  | nil =>
      simp [List.intercalate] at member
  | cons line lines inductionHypothesis =>
      obtain ⟨inLine, inRest⟩ := List.forall_mem_cons.mp inLines
      cases lines with
      | nil =>
          exact inLine character (by simpa [List.intercalate] using member)
      | cons next lines =>
          rw [List.map_cons, List.map_cons, List.intercalate_cons_cons,
            List.append_assoc, List.mem_append, List.mem_append] at member
          rcases member with here | isBreak | later
          · exact inLine character here
          · rw [show "\n".toList = ['\n'] by decide, List.mem_singleton]
              at isBreak
            exact isBreak ▸ atBreak
          · exact inductionHypothesis inRest later

/-- A pattern without line breaks stands in one of the lines. -/
theorem exists_line_of_infix
    {pattern : List Char}
    (notNil : pattern ≠ [])
    (noBreak : '\n' ∉ pattern)
    (found : pattern <:+: (Text.ofLines lines).toList) :
    ∃ line ∈ lines, pattern <:+: line.toList := by
  rw [Text.ofLines, Text.join, String.toList_ofList] at found
  induction lines with
  | nil =>
      exact absurd (by simpa [List.intercalate] using found) notNil
  | cons line lines inductionHypothesis =>
      cases lines with
      | nil =>
          exact ⟨line, List.mem_cons_self,
            by simpa [List.intercalate] using found⟩
      | cons next lines =>
          rw [List.map_cons, List.map_cons, List.intercalate_cons_cons,
            List.append_assoc,
            show "\n".toList = ['\n'] by decide] at found
          rcases Text.infix_append_cons_cases noBreak found with here | later
          · exact ⟨line, List.mem_cons_self, here⟩
          · obtain ⟨other, member, inOther⟩ := inductionHypothesis later
            exact ⟨other, List.mem_cons_of_mem _ member, inOther⟩

theorem trimmed_append
    {before text after : List Char}
    (blankBefore : ∀ character ∈ before, Text.isBlank character = true)
    (blankAfter : ∀ character ∈ after, Text.isBlank character = true) :
    Text.trimmed (before ++ text ++ after) = Text.trimmed text := by
  have dropAfter : ∀ text, Text.dropEnd Text.isBlank (text ++ after) =
      Text.dropEnd Text.isBlank text := by
    intro text
    have reversed :
        ∀ character ∈ after.reverse, Text.isBlank character = true :=
      fun character member => blankAfter character (List.mem_reverse.mp member)
    rw [Text.dropEnd, Text.dropEnd, List.reverse_append,
      List.dropWhile_append_of_pos reversed]
  rw [Text.trimmed, Text.trimmed, Text.dropStart, Text.dropStart,
    List.append_assoc,
    List.dropWhile_append_of_pos blankBefore, List.dropWhile_append]
  split
  · rename_i allBlank
    rw [List.isEmpty_iff.mp allBlank, List.dropWhile_eq_nil_iff.mpr blankAfter]
  · exact dropAfter _

end Lines

section Documents

open Markup

variable {code : List String}

/-- The text of the section around lines of code. -/
def sectionText (code : List String) : List Char :=
  '\n' :: ((Text.ofLines code).toList ++ "\n        ".toList)

/-- The section around lines of code is read as a whole. -/
theorem reaches_sectionText
    {source : Source}
    {element : Open}
    {stack : List Open}
    {rest : List Char}
    (lines : ∀ line ∈ code, CodeLine line.toList)
    (noChildren : element.children = []) :
    Reaches source ('<' :: (sectionOpening ++
      (sectionText code ++ ([']', ']', '>'] ++ rest)))) (element :: stack) rest
      (withText (sectionText code) element :: stack) := by
  refine reaches_section ?_ ?_ ?_ noChildren
  · intro found
    rw [sectionText, ← List.nil_append ('\n' :: _)] at found
    rcases Text.infix_append_cons_cases (by decide) found with
      impossible | inside
    · exact absurd impossible (by decide)
    · rw [show "\n        ".toList = '\n' :: "        ".toList by decide]
        at inside
      rcases Text.infix_append_cons_cases (by decide) inside with
        inCode | inSpace
      · obtain ⟨line, member, inLine⟩ :=
          exists_line_of_infix (by simp) (by decide) inCode
        exact (lines line member).noEnd inLine
      · exact absurd inSpace (by decide)
  · rw [sectionText, ← List.cons_append,
      List.getLast?_append_of_ne_nil _ (by decide)]
    decide
  · have noReturn :
        ∀ character ∈ (Text.ofLines code).toList, character ≠ '\r' := by
      refine forall_mem_ofLines (by decide) fun line member character inLine =>
        ?_
      rintro rfl
      exact (lines line member).noReturn inLine
    simp only [sectionText, List.mem_cons, List.mem_append, not_or]
    exact ⟨by decide, fun member => noReturn _ member rfl, by decide⟩

/-- The text of an element around a section of code. -/
def codeText (code : List String) : String :=
  String.ofList ("\n        ".toList ++ sectionText code ++ "\n    ".toList)

theorem close_eq
    {element : Open}
    {text : List Char}
    (textIs : element.text.reverse.flatten = text)
    (notNil : text ≠ []) :
    element.close = .node element.name (some (String.ofList text))
      element.children.reverse := by
  rw [Open.close, textIs, if_neg (by simpa using notNil)]

/--
An element around a section of code is read as a child of the element around
it.
-/
theorem reaches_codeElement
    {source : Source}
    {outer : Open}
    {stack : List Open}
    {name rest : List Char}
    (plain : PlainName name)
    (lines : ∀ line ∈ code, CodeLine line.toList) :
    Reaches source
      ('<' :: (name ++ '>' :: ("\n        ".toList ++
        '<' :: (sectionOpening ++
          (sectionText code ++ ([']', ']', '>'] ++ ("\n    ".toList ++
          '<' :: '/' :: (name ++ '>' :: rest))))))))
      (outer :: stack) rest
      (withChild (.node (String.ofList name) (some (codeText code)) []) outer ::
        stack) := by
  have closed : (withText "\n    ".toList (withText (sectionText code)
      (withText "\n        ".toList
        (justOpened name (outer :: stack))))).close =
      .node (String.ofList name) (some (codeText code)) [] := by
    have textIs : [("\n    ".toList), sectionText code,
        "\n        ".toList].reverse.flatten =
        "\n        ".toList ++ sectionText code ++ "\n    ".toList := by
      simp only [List.reverse_cons, List.reverse_nil, List.nil_append,
        List.cons_append,
        List.flatten_cons, List.flatten_nil, List.append_nil, List.append_assoc]
    exact close_eq textIs (by simp)
  rw [← closed]
  refine (reaches_opening plain).trans ?_
  refine (reaches_run (by decide) (by decide) rfl).trans ?_
  refine (reaches_sectionText lines rfl).trans ?_
  refine (reaches_run (by decide) (by decide) rfl).trans ?_
  refine reaches_closing plain (by simp [withText, justOpened])
    (by simp [withText, justOpened]) ?_
  simp [withText, justOpened]

theorem isAllowed_of_mem_ofLines
    {lines : List String}
    (fine : ∀ line ∈ lines, line.toList.all isAllowed = true) :
    ∀ character ∈ (Text.ofLines lines).toList, isAllowed character = true :=
  forall_mem_ofLines (by decide) fun line member =>
    List.all_eq_true.mp (fine line member)

/-- A class template, read from the document around its code. -/
theorem parse_classDocument
    (notNil : code ≠ [])
    (lines : ∀ line ∈ code, CodeLine line.toList) :
    parse (.text (Shipped.classDocument code)) =
      .ok (.node "language" (some "\n    ")
        [.node "class" (some (codeText code)) []]) := by
  have documentIs : (Shipped.classDocument code).toList =
      '<' :: ("language".toList ++ '>' :: ("\n    ".toList ++
        '<' :: ("class".toList ++ '>' :: ("\n        ".toList ++
          '<' :: (sectionOpening ++
            (sectionText code ++ ([']', ']', '>'] ++ ("\n    ".toList ++
            '<' :: '/' :: ("class".toList ++ '>' :: ("\n".toList ++
              '<' :: '/' :: ("language".toList ++ '>' :: ['\n']))))))))))) := by
    rw [Shipped.classDocument, ofLines_append (by simp) (by simp),
      ofLines_append (by simp) notNil, sectionText, sectionOpening]
    generalize (Text.ofLines code).toList = body
    simp [Text.ofLines, Text.join, List.intercalate]
  have allowed : ∀ character ∈ (Shipped.classDocument code).toList,
      isAllowed character = true := by
    refine isAllowed_of_mem_ofLines fun line member => ?_
    simp only [List.mem_append] at member
    rcases member with (opening | inCode) | closing
    · revert line
      decide
    · exact List.all_eq_true.mpr (lines line inCode).allowed
    · revert line
      decide
  let inside := withText "\n    ".toList (justOpened "language".toList [])
  let element := withChild (.node "class" (some (codeText code)) []) inside
  have reaches : ∀ source, Reaches source (Shipped.classDocument code).toList []
      ('<' :: '/' :: ("language".toList ++ '>' :: ['\n'])) [element] := by
    intro source
    rw [documentIs]
    refine (reaches_opening (by decide)).trans ?_
    refine (reaches_run (by decide) (by decide) rfl).trans ?_
    refine (reaches_codeElement (by decide) lines).trans ?_
    apply reaches_run_of_children
    · decide
    · decide
    · simp [withChild]
  exact parse_plain (by decide) documentIs allowed reaches (by decide) rfl
    (by simp [element, inside, withChild, withText, justOpened]) (by decide)

theorem isText_of_isAlpha
    {character : Char}
    (isLetter : character.isAlpha = true) :
    isAllowed character = true ∧
      endsText character = false ∧ character ≠ ']' ∧ character ≠ '\r' := by
  have notEnd : character ≠ '<' ∧ character ≠ '&' ∧ character ≠ ']' ∧
      character ≠ '\r' := by
    refine ⟨?_, ?_, ?_, ?_⟩ <;> (rintro rfl; exact absurd isLetter (by decide))
  have range : 65 ≤ character.toNat ∧ character.toNat ≤ 122 := by
    delta Char.isAlpha Char.isUpper Char.isLower at isLetter
    simp only [Bool.or_eq_true, Bool.and_eq_true, decide_eq_true_eq] at isLetter
    rcases isLetter with ⟨least, most⟩ | ⟨least, most⟩
    · have low : 65 ≤ character.toNat := least
      have high : character.toNat ≤ 90 := most
      omega
    · have low : 97 ≤ character.toNat := least
      have high : character.toNat ≤ 122 := most
      omega
  refine ⟨?_, by simp [endsText, notEnd], notEnd.2.2⟩
  simp only [isAllowed, Bool.or_eq_true, beq_iff_eq, Bool.and_eq_true,
    decide_eq_true_eq, bne_iff_ne]
  omega

theorem ofLines_append_empty
    {lines : List String}
    (notNil : lines ≠ [])
    (count : Nat) :
    (Text.ofLines (lines ++ List.replicate count "")).toList =
      (Text.ofLines lines).toList ++ List.replicate count '\n' := by
  induction count with
  | zero => simp
  | succ count inductionHypothesis =>
      rw [List.replicate_succ', ← List.append_assoc,
        ofLines_append (by simp [notNil]) (by simp),
        inductionHypothesis, List.replicate_succ', ← List.append_assoc]
      rfl

/-- A method template, read from the document around its code. -/
theorem parse_methodDocument
    {name : String}
    (plain : PlainName name.toList)
    (notNil : code ≠ [])
    (lines : ∀ line ∈ code, CodeLine line.toList)
    (emptyLines : Nat) :
    parse (.text (Shipped.methodDocument name code emptyLines)) =
      .ok (.node "node" (some "\n    ")
        [.node "name" (some name) [],
          .node "method" (some (codeText code)) []]) := by
  have documentIs : (Shipped.methodDocument name code emptyLines).toList =
      '<' :: ("node".toList ++ '>' :: ("\n    ".toList ++
        '<' :: ("name".toList ++ '>' :: (name.toList ++
          '<' :: '/' :: ("name".toList ++ '>' :: ("\n    ".toList ++
            '<' :: ("method".toList ++ '>' :: ("\n        ".toList ++
              '<' :: (sectionOpening ++
                (sectionText code ++ ([']', ']', '>'] ++ ("\n    ".toList ++
                '<' :: '/' :: ("method".toList ++ '>' :: ("\n".toList ++
                  '<' :: '/' :: ("node".toList ++ '>' ::
                    List.replicate emptyLines '\n'))))))))))))))) := by
    rw [Shipped.methodDocument, ofLines_append_empty (by simp),
      ofLines_append (by simp) (by simp),
      ofLines_append (by simp) notNil, sectionText, sectionOpening]
    generalize (Text.ofLines code).toList = body
    simp [Text.ofLines, Text.join, List.intercalate]
  have allowed :
      ∀ character ∈ (Shipped.methodDocument name code emptyLines).toList,
      isAllowed character = true := by
    refine isAllowed_of_mem_ofLines fun line member => ?_
    simp only [List.mem_append, List.mem_replicate] at member
    rcases member with ((opening | inCode) | closing) | ⟨-, rfl⟩
    · have letters : name.toList.all isAllowed = true :=
        List.all_eq_true.mpr fun character inName =>
          (isText_of_isAlpha (plain.2 _ inName)).1
      simp only [List.mem_cons, List.not_mem_nil, or_false] at opening
      rcases opening with rfl | rfl | rfl | rfl
      · decide
      · rw [String.toList_append, String.toList_append, List.all_append,
          List.all_append, letters]
        decide
      · decide
      · decide
    · exact List.all_eq_true.mpr (lines line inCode).allowed
    · revert line
      decide
    · rfl
  let inside := withText "\n    ".toList (justOpened "node".toList [])
  let named := withChild (.node "name" (some name) []) inside
  let element := withChild (.node "method" (some (codeText code)) []) named
  have nameClosed :
      (withText name.toList (justOpened "name".toList [inside])).close =
      .node "name" (some name) [] := by
    have textIs : [name.toList].reverse.flatten = name.toList := by simp
    exact (close_eq textIs plain.1).trans (by rw [String.ofList_toList]; rfl)
  have reaches : ∀ source, Reaches source
      (Shipped.methodDocument name code emptyLines).toList []
      ('<' :: '/' :: ("node".toList ++ '>' :: List.replicate emptyLines '\n'))
        [element] := by
    intro source
    rw [documentIs]
    refine (reaches_opening (by decide)).trans ?_
    refine (reaches_run (by decide) (by decide) rfl).trans ?_
    refine (reaches_opening (by decide)).trans ?_
    refine (reaches_run plain.1 (fun character member =>
      (isText_of_isAlpha (plain.2 _ member)).2) rfl).trans ?_
    refine (reaches_closing (by decide) (by rfl)
      (by simp [withText, justOpened]) (by rfl)).trans ?_
    rw [nameClosed]
    refine (reaches_run_of_children (by decide) (by decide)
      (by simp [withChild])).trans ?_
    refine (reaches_codeElement (by decide) lines).trans ?_
    apply reaches_run_of_children
    · decide
    · decide
    · simp [withChild]
  exact parse_plain (by decide) documentIs allowed reaches (by decide) rfl
    (by simp [element, named, inside, withChild, withText, justOpened])
    (fun character member => (List.mem_replicate.mp member).2 ▸ by decide)

theorem trim_codeText
    (code : List String) :
    Text.trim (codeText code) = Text.trim (Text.ofLines code) := by
  have regroup : ∀ indented body after : List Char,
      indented ++ '\n' :: (body ++ indented) ++ after =
        (indented ++ ['\n']) ++ body ++ (indented ++ after) := by
    simp
  have around : (codeText code).toList =
      ("\n        ".toList ++ ['\n']) ++ (Text.ofLines code).toList ++
        ("\n        ".toList ++ "\n    ".toList) :=
    String.toList_ofList.trans (regroup _ _ _)
  have blankBefore : ∀ character ∈ "\n        ".toList ++ ['\n'],
      Text.isBlank character = true := by
    decide
  have blankAfter : ∀ character ∈ "\n        ".toList ++ "\n    ".toList,
      Text.isBlank character = true := by
    decide
  rw [Text.trim, Text.trim, around, trimmed_append blankBefore blankAfter]

/-- The document of a class template gives its code, and no method template. -/
theorem classText_classDocument
    (notNil : code ≠ [])
    (lines : ∀ line ∈ code, CodeLine line.toList) :
    ∃ document, parse (.text (Shipped.classDocument code)) = .ok document ∧
      Store.classText document = .ok (some (Text.trim (Text.ofLines code))) ∧
      ∀ type, Store.nodeTemplate type document = none := by
  refine ⟨_, parse_classDocument notNil lines, ?_, fun type => ?_⟩
  · rw [← trim_codeText]
    rfl
  · rfl

/-- The document of a method template gives its code. -/
theorem nodeTemplate_methodDocument
    {name : String}
    (plain : PlainName name.toList)
    (notNil : code ≠ [])
    (lines : ∀ line ∈ code, CodeLine line.toList)
    (emptyLines : Nat) :
    ∃ document, parse (.text (Shipped.methodDocument name code emptyLines)) =
      .ok document ∧ ∀ type, Store.nodeTemplate type document =
        some ⟨.text (Text.trim name), Text.trim (Text.ofLines code)⟩ := by
  refine ⟨_, parse_methodDocument plain notNil lines emptyLines, fun type => ?_⟩
  rw [← trim_codeText]
  rfl

end Documents

end Flowgen.Template
