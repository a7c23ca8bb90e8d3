import Flowgen.Proofs.MethodNames
import Flowgen.Proofs.References
import Flowgen.Proofs.Spacing
import Flowgen.Proofs.TemplateDocuments

namespace Flowgen

/-!
# Expressions along a path

An expression along names below a source of the call stands for an access to
the parameters of the class.  By its characters it is plain: in quotes it is
no template and it does not end a statement.
-/

open Template

namespace Text

/-- A text is what trimming leaves of it, with white space around that. -/
theorem exists_blank_around
    (text : List Char) :
    ∃ lead trail, text = lead ++ (trimmed text ++ trail) ∧
      (∀ character ∈ lead, isBlank character = true) ∧
      ∀ character ∈ trail, isBlank character = true := by
  refine ⟨text.takeWhile isBlank,
    ((text.dropWhile isBlank).reverse.takeWhile isBlank).reverse,
    ?_, fun _ => List.mem_takeWhile_imp, fun _ member => ?_⟩
  · rw [trimmed, dropStart, dropEnd, ← List.reverse_append,
      List.takeWhile_append_dropWhile,
      List.reverse_reverse, List.takeWhile_append_dropWhile]
  · exact List.mem_takeWhile_imp (List.mem_reverse.mp member)

theorem trimmed_eq_self
    {text : List Char}
    (start : ∀ character, text.head? = some character →
      isBlank character = false)
    (finish : ∀ character, text.getLast? = some character →
      isBlank character = false) :
    trimmed text = text := by
  have kept : ∀ text : List Char,
      (∀ character, text.head? = some character → isBlank character = false) →
        text.dropWhile isBlank = text := by
    intro text start
    cases text with
    | nil =>
        rfl
    | cons character text =>
        exact List.dropWhile_cons_of_neg (by simp [start character rfl])
  rw [trimmed, dropStart, kept text start, dropEnd,
    kept _ (by simpa [List.head?_reverse] using finish), List.reverse_reverse]

end Text

namespace Expression

variable {names : List String} {text : String}

/--
A text that is one expression for what lies along names below a source of the
call.
-/
structure Supported (names : List String) (text : String) : Prop where
  notNil : names ≠ []
  isName : ∀ name ∈ names, Parameters.IsName name.toList
  written : ∃ source ∈ sources, ∃ lead trail : List Char,
    (∀ character ∈ lead, Text.isBlank character = true) ∧
    (∀ character ∈ trail, Text.isBlank character = true) ∧
    text.toList = opening ++ (lead ++ ("$json.".toList ++ (source ++ '.' ::
      List.intercalate ['.'] (names.map String.toList))) ++ trail) ++ closing

/-- Whether a character may stand inside a supported expression. -/
def isInsideCharacter (character : Char) : Bool :=
  Parameters.continuesIdentifier character || character == '.' ||
    character == '$'

theorem isBlank_of_isInsideCharacter
    {character : Char}
    (isInside : isInsideCharacter character = true) :
    Text.isBlank character = false := by
  simp only [isInsideCharacter, Parameters.continuesIdentifier, Bool.or_eq_true,
    beq_iff_eq] at isInside
  rcases isInside with ((isAlphanumeric | rfl) | rfl) | rfl
  · exact Naming.not_isBlank_of_isAlphanum isAlphanumeric
  · decide
  · decide
  · decide

theorem continuesIdentifier_of_isName
    {name : List Char}
    (isName : Parameters.IsName name) :
    ∀ character ∈ name, Parameters.continuesIdentifier character = true := by
  obtain ⟨first, rest, rfl, starts, goesOn⟩ := isName
  refine List.forall_mem_cons.mpr ⟨?_, goesOn⟩
  simp only [Parameters.startsIdentifier, Parameters.continuesIdentifier,
    Char.isAlphanum, Bool.or_eq_true] at starts ⊢
  exact starts.imp_left .inl

theorem isInsideCharacter_of_mem_path
    (isName : ∀ name ∈ names, Parameters.IsName name.toList) :
    ∀ character ∈ List.intercalate ['.'] (names.map String.toList),
      isInsideCharacter character = true := by
  have inName : ∀ name ∈ names, ∀ character ∈ name.toList,
      isInsideCharacter character = true := by
    intro name member character inName
    rw [isInsideCharacter, continuesIdentifier_of_isName (isName name member)
      character inName]
    rfl
  clear isName
  induction names with
  | nil =>
      simp
  | cons name names inductionHypothesis =>
      obtain ⟨first, others⟩ := List.forall_mem_cons.mp inName
      have rest := inductionHypothesis others
      cases names with
      | nil =>
          simpa using first
      | cons second names =>
          rw [List.map_cons, List.map_cons, List.intercalate_cons_cons]
          simp only [List.forall_mem_append, List.forall_mem_singleton]
          exact ⟨⟨first, by decide⟩, rest⟩

/-- The path of a supported expression is split into the names. -/
theorem pathNames_intercalate
    (notNil : names ≠ [])
    (isName : ∀ name ∈ names, Parameters.IsName name.toList) :
    pathNames (List.intercalate ['.'] (names.map String.toList)) = names := by
  rw [pathNames, Text.splitOn_singleton,
    List.splitOn_intercalate _ _ (by simpa using notNil), List.map_map]
  · simp
  · simp only [List.forall_mem_map]
    intro name member isDot
    exact absurd (continuesIdentifier_of_isName (isName name member) '.' isDot)
      (by decide)

/-- The inside of a supported expression means an access along its names. -/
theorem meaning_eq_access
    {source path : List Char}
    (isSource : source ∈ sources)
    (notNil : path ≠ [])
    (oneLine : '\n' ∉ path) :
    meaning ("$json.".toList ++ (source ++ '.' :: path)) =
      .access (pathNames path) := by
  have line : restOfLine? path = some path := by
    rw [restOfLine?, List.takeWhile_eq_self_iff.mpr fun character member => ?_]
    · simpa using notNil
    · have notBreak : character ≠ '\n' := by
        rintro rfl
        exact oneLine member
      simpa using notBreak
  have found : pathAt? "$json.".toList
      ("$json.".toList ++ (source ++ '.' :: path)) = some path := by
    rw [pathAt?, Text.after?_eq_some.mpr rfl, Option.bind_some,
      Parameters.afterSource?_eq_some.mpr ⟨source, isSource, rfl⟩,
      Option.bind_some, line]
  have first :
      sourcePath? ("$json.".toList ++ (source ++ '.' :: path)) = some path := by
    have marker : "$json.".toList ++ (source ++ '.' :: path) =
        '$' :: ("json.".toList ++ (source ++ '.' :: path)) :=
      rfl
    rw [marker] at found ⊢
    rw [sourcePath?, findPath?, found]
  rw [meaning, first]

/-- What a supported expression is made of. -/
theorem Supported.exists_inside
    (supported : Supported names text) :
    ∃ lead inside trail : List Char,
      text.toList = opening ++ (lead ++ ('$' :: inside) ++ trail) ++ closing ∧
      (∀ character ∈ lead, Text.isBlank character = true) ∧
      (∀ character ∈ trail, Text.isBlank character = true) ∧
      (∀ character ∈ '$' :: inside, isInsideCharacter character = true) ∧
      meaning ('$' :: inside) = .access names := by
  obtain ⟨notNil, isName, source, isSource, lead, trail, blankLead, blankTrail,
    written⟩ := supported
  have insidePath := isInsideCharacter_of_mem_path isName
  have split := pathNames_intercalate notNil isName
  generalize List.intercalate ['.'] (names.map String.toList) =
    path at written insidePath split
  have pathNotNil : path ≠ [] := by
    rintro rfl
    obtain ⟨_, _, isEmpty, _⟩ := isName "" (by rw [← split]; decide)
    cases isEmpty
  have oneLine : '\n' ∉ path :=
    fun member => absurd (insidePath _ member) (by decide)
  refine ⟨lead, "json.".toList ++ (source ++ '.' :: path), trail, written,
    blankLead, blankTrail, ?_, ?_⟩
  · have insideSource : ∀ source ∈ sources, ∀ character ∈ source,
        isInsideCharacter character = true := by
      decide
    simp only [List.forall_mem_cons, List.forall_mem_append]
    exact ⟨by decide, by decide, insideSource source isSource, by decide,
      insidePath⟩
  · rw [← split]
    exact meaning_eq_access isSource pathNotNil oneLine

/--
The inside of a text is what stands between the markers, without the white
space around it.
-/
theorem inside?_eq_some_iff
    {text inside : List Char} :
    inside? text = some inside ↔
      ∃ middle, text = opening ++ middle ++ closing ∧
      Text.trimmed middle = inside := by
  have dropped : ∀ middle : List Char,
      ((opening ++ middle ++ closing).drop 3).dropLast.dropLast = middle := by
    intro middle
    rw [show (opening ++ middle ++ closing).drop 3 =
      middle ++ ['\x7d'] ++ ['\x7d'] by
      simp [opening, closing], List.dropLast_concat, List.dropLast_concat]
  constructor
  · intro found
    unfold inside? at found
    split at found
    · rename_i marked
      rw [Bool.and_eq_true, List.isPrefixOf_iff_prefix,
        List.isSuffixOf_iff_suffix] at marked
      obtain ⟨⟨rest, rfl⟩, ends⟩ := marked
      -- The markers do not overlap: they have no character in common.
      have closed : closing <:+ rest := by
        obtain ⟨front, whole⟩ := ends
        rcases List.append_eq_append_iff.mp whole with
          ⟨shared, openingIs, closingIs⟩ | ⟨middle, _, restIs⟩
        · cases shared with
          | nil =>
              exact ⟨[], closingIs⟩
          | cons first shared =>
              have isBrace : '\x7d' = first := (List.cons.inj closingIs).1
              have inOpening : first ∈ opening := by
                rw [openingIs]
                exact List.mem_append_right _ List.mem_cons_self
              exact absurd (isBrace ▸ inOpening) (by decide)
        · exact ⟨middle, restIs.symm⟩
      obtain ⟨middle, rfl⟩ := closed
      rw [← List.append_assoc, dropped] at found
      exact ⟨middle, (List.append_assoc _ _ _).symm, Option.some.inj found⟩
    · cases found
  · rintro ⟨middle, rfl, rfl⟩
    rw [inside?, dropped, if_pos]
    rw [Bool.and_eq_true, List.isPrefixOf_iff_prefix,
      List.isSuffixOf_iff_suffix]
    exact ⟨⟨_, (List.append_assoc _ _ _).symm⟩, List.suffix_append _ _⟩

/--
What stands between the markers of a supported expression means an access
along its names.
-/
theorem Supported.exists_meaning
    (supported : Supported names text) :
    ∃ inside, inside? (Text.trimmed text.toList) = some inside ∧
    meaning inside = .access names := by
  obtain ⟨lead, inside, trail, written, blankLead, blankTrail, isInside,
    isAccess⟩ :=
    supported.exists_inside
  refine ⟨'$' :: inside, ?_, isAccess⟩
  have whole : Text.trimmed text.toList = text.toList := by
    rw [written]
    refine Text.trimmed_eq_self (fun character isFirst => ?_) fun character
      isLast => ?_
    · cases isFirst
      decide
    · rw [List.getLast?_append, show closing.getLast? = some '\x7d' from rfl]
        at isLast
      cases isLast
      decide
  have notBlank : ∀ character ∈ '$' :: inside, Text.isBlank character = false :=
    fun character member =>
      isBlank_of_isInsideCharacter (isInside character member)
  rw [whole, inside?_eq_some_iff]
  refine ⟨_, written, ?_⟩
  rw [Template.trimmed_append blankLead blankTrail]
  exact Text.trimmed_eq_self
    (fun character isFirst => notBlank character (List.mem_of_head? isFirst))
    fun character isLast => notBlank character (List.mem_of_getLast? isLast)

/--
A supported expression is turned into an access along its names, the first of
which is used.
-/
theorem Supported.renderText_eq
    (supported : Supported names text)
    (scope : Scope) :
    Expression.renderText scope text =
      (.ok (accessCode names), scope.register (names.headD "")) := by
  obtain ⟨inside, isInside, isAccess⟩ := supported.exists_meaning
  rw [Expression.renderText, isInside]
  simp only [isAccess]

theorem Supported.renderText
    (supported : Supported names text)
    (scope : Scope) :
    (renderText scope text).1 = .ok (accessCode names) := by
  rw [supported.renderText_eq]

/--
What stands between the markers of a supported expression, by its characters.
-/
theorem Supported.exists_middle
    (supported : Supported names text) :
    ∃ first rest, text.toList = opening ++ (first :: rest) ++ closing ∧
      (Text.isBlank first = true ∨ first = '$') ∧
      ∀ character, Text.isBlank character = false →
        isInsideCharacter character = false → character ∉ first :: rest := by
  obtain ⟨lead, inside, trail, written, blankLead, blankTrail, isInside, _⟩ :=
    supported.exists_inside
  have absent : ∀ character, Text.isBlank character = false →
      isInsideCharacter character = false →
      character ∉ lead ++ ('$' :: inside) ++ trail := by
    intro character notBlank notInside member
    simp only [List.mem_append] at member
    rcases member with (inLead | inInside) | inTrail
    · rw [blankLead character inLead] at notBlank
      cases notBlank
    · rw [isInside character inInside] at notInside
      cases notInside
    · rw [blankTrail character inTrail] at notBlank
      cases notBlank
  cases lead with
  | nil =>
      exact ⟨'$', inside ++ trail, written, .inr rfl, absent⟩
  | cons first lead =>
      exact ⟨first, _, written, .inl (blankLead first List.mem_cons_self),
        absent⟩

theorem Supported.plain
    (supported : Supported names text) :
    ';' ∉ text.toList ∧ TagFree ('\x22' :: text.toList ++ ['\x22']) := by
  obtain ⟨first, rest, written, starts, absent⟩ := supported.exists_middle
  have noSemicolon := absent ';' (by decide) (by decide)
  have noOpening := absent '\x7b' (by decide) (by decide)
  have outside : isTagCharacter first = false := by
    rcases starts with isBlank | rfl
    · exact isTagCharacter_of_isBlank isBlank
    · decide
  rw [written]
  constructor
  · simp only [opening, closing, List.mem_append, not_or]
    exact ⟨⟨by decide, noSemicolon⟩, by decide⟩
  · -- The double brace at the start is followed by a character that no tag has.
    have regroup :
        '\x22' :: (opening ++ (first :: rest) ++ closing) ++ ['\x22'] =
        ('\x22' :: opening) ++ (first :: rest ++ (closing ++ ['\x22'])) := by
      simp
    rw [regroup]
    refine TagsIn.append (tagFree_iff.mpr (by decide)) (.of_not_mem ?_)
      (.of_head? ?_)
    · rw [List.mem_append, not_or]
      exact ⟨noOpening, by decide⟩
    · rintro character isFirst
      cases isFirst
      exact outside

theorem Supported.ne_empty
    (supported : Supported names text) :
    text ≠ "" := by
  rintro rfl
  obtain ⟨source, _, lead, trail, _, _, written⟩ := supported.written
  simp [opening] at written

end Expression

end Flowgen
