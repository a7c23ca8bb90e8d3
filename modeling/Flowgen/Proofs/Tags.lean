import Flowgen.Proofs.Searching
import Flowgen.Template.Slot

namespace Flowgen.Template

/-!
# Tags

A tag is a name in double braces.  Two texts can be put next to each other
without making a new tag if a character that no tag has stands between them, so
the tags of a text that is put together are those of its parts.
-/

/-- Whether a character may stand in the name of a tag. -/
def isNameCharacter (character : Char) : Bool :=
  character.isLower || character == '_'

/-- Whether a character may stand in a tag. -/
def isTagCharacter (character : Char) : Bool :=
  isNameCharacter character || character == '\x7b' || character == '\x7d'

/--
A name of a tag: a run of lower-case letters and underscores that is not
empty.
-/
def IsTagName (name : List Char) : Prop :=
  name ≠ [] ∧ ∀ character ∈ name, isNameCharacter character = true

instance (name : List Char) : Decidable (IsTagName name) :=
  inferInstanceAs (Decidable (_ ∧ _))

/-- The tag with a name. -/
def tag (name : List Char) : List Char :=
  '\x7b' :: '\x7b' :: name ++ ['\x7d', '\x7d']

/-- All tags in a text have one of some names. -/
def TagsIn (names : List (List Char)) (text : List Char) : Prop :=
  ∀ name, IsTagName name → tag name <:+: text → name ∈ names

/-- There is no tag in a text. -/
abbrev TagFree (text : List Char) : Prop :=
  TagsIn [] text

/--
No tag has one part at the end of a text and the other at the start of the
next.
-/
def Parted (first second : List Char) : Prop :=
  ∀ name before after, IsTagName name → tag name = before ++ after →
    before ≠ [] → after ≠ [] → before <:+ first → ¬ after <+: second

theorem placeholder_toList
    (name : String) :
    (placeholder name).toList = tag name.toList := by
  simp [placeholder, tag]

theorem tag_eq_append
    (name : List Char) :
    tag name = ['\x7b', '\x7b'] ++ (name ++ ['\x7d', '\x7d']) :=
  rfl

theorem tag_append_eq
    (first name : List Char) :
    first ++ tag name = first ++ '\x7b' :: '\x7b' :: name ++ ['\x7d'] ++
      ['\x7d'] := by
  simp [tag]

section Characters

variable {name : List Char} {character : Char}

theorem IsTagName.brace_not_mem
    (isName : IsTagName name) :
    '\x7b' ∉ name ∧ '\x7d' ∉ name := by
  refine ⟨fun member => ?_, fun member => ?_⟩
  · exact absurd (isName.2 _ member) (by decide)
  · exact absurd (isName.2 _ member) (by decide)

theorem isTagCharacter_of_mem
    (isName : IsTagName name)
    (member : character ∈ tag name) :
    isTagCharacter character = true := by
  simp only [tag, List.mem_cons, List.mem_append, List.cons_append,
    List.not_mem_nil, or_false] at member
  rcases member with rfl | rfl | inName | rfl | rfl
  · decide
  · decide
  · simp [isTagCharacter, isName.2 _ inName]
  · decide
  · decide

/-- A tag within a tag is the whole of it. -/
theorem eq_of_tag_infix_tag
    {other : List Char}
    (isName : IsTagName name)
    (isOther : IsTagName other)
    (found : tag name <:+: tag other) :
    name = other := by
  obtain ⟨left, right, whole⟩ := found
  -- both tags have two braces of each kind, so nothing is left for the sides
  have countOpening :
      ∀ {word : List Char}, IsTagName word → (tag word).count '\x7b' = 2 := by
    intro word isWord
    simp [tag, List.count_eq_zero_of_not_mem isWord.brace_not_mem.1]
  have countClosing :
      ∀ {word : List Char}, IsTagName word → (tag word).count '\x7d' = 2 := by
    intro word isWord
    simp [tag, List.count_eq_zero_of_not_mem isWord.brace_not_mem.2]
  have opened := congrArg (List.count '\x7b') whole
  have closed := congrArg (List.count '\x7d') whole
  rw [List.count_append, List.count_append, countOpening isName,
    countOpening isOther] at opened
  rw [List.count_append, List.count_append, countClosing isName,
    countClosing isOther] at closed
  have noLeft : left = [] := by
    cases left with
    | nil =>
        rfl
    | cons head rest =>
        have headIs : head = '\x7b' := (List.cons.inj whole).1
        rw [headIs, List.count_cons_self] at opened
        omega
  have noRight : right = [] := by
    induction right using List.reverseRecOn with
    | nil =>
        rfl
    | append_singleton rest last _ =>
        have lastIs := congrArg List.getLast? whole
        rw [← List.append_assoc, List.getLast?_concat,
          ← List.nil_append (tag other),
          tag_append_eq, List.getLast?_concat] at lastIs
        have isClosing : last = '\x7d' := Option.some.inj lastIs
        rw [isClosing, List.count_append, List.count_singleton_self] at closed
        omega
  subst noLeft noRight
  simpa [tag] using whole

end Characters

namespace Parted

variable {first second : List Char}

/-- A character that no tag has parts two texts, at the end of the first one. -/
theorem of_getLast?
    (apart : ∀ character, first.getLast? = some character →
      isTagCharacter character = false) :
    Parted first second := by
  intro name before after isName tagIs notNil _ isSuffix _
  have lastIs := List.getLast?_eq_some_getLast notNil
  have member : before.getLast notNil ∈ tag name := by
    rw [tagIs]
    exact List.mem_append_left _ (List.getLast_mem notNil)
  have lastOfFirst : first.getLast? = some (before.getLast notNil) := by
    obtain ⟨rest, rfl⟩ := isSuffix
    rw [List.getLast?_append, lastIs]
    rfl
  have outside := apart _ lastOfFirst
  rw [isTagCharacter_of_mem isName member] at outside
  cases outside

/--
A character that no tag has parts two texts, at the start of the second one.
-/
theorem of_head?
    (apart : ∀ character, second.head? = some character →
      isTagCharacter character = false) :
    Parted first second := by
  intro name before after isName tagIs _ notNil _ isPrefix
  obtain ⟨head, rest, rfl⟩ := List.exists_cons_of_ne_nil notNil
  have member : head ∈ tag name := by
    rw [tagIs]
    simp
  have headOfSecond : second.head? = some head := by
    obtain ⟨more, rfl⟩ := isPrefix
    rfl
  have outside := apart head headOfSecond
  rw [isTagCharacter_of_mem isName member] at outside
  cases outside

/-- A text without an opening brace cannot begin a tag. -/
theorem of_not_mem
    (noOpening : '\x7b' ∉ first) :
    Parted first second := by
  intro name before after _ tagIs notNil _ isSuffix _
  obtain ⟨head, rest, rfl⟩ := List.exists_cons_of_ne_nil notNil
  have headIs : '\x7b' = head := (List.cons.inj tagIs).1
  apply noOpening
  rw [headIs]
  exact isSuffix.subset List.mem_cons_self

/-- A tag in parted texts stands in one of them. -/
theorem split_tag
    {name : List Char}
    (parted : Parted first second)
    (isName : IsTagName name)
    (found : tag name <:+: first ++ second) :
    tag name <:+: first ∨ tag name <:+: second := by
  rcases Text.infix_append_cases found with
    inFirst | inSecond | ⟨before, after, tagIs, notNil, alsoNotNil, isSuffix,
      isPrefix⟩
  · exact .inl inFirst
  · exact .inr inSecond
  · exact absurd isPrefix (parted name before after isName tagIs notNil
      alsoNotNil isSuffix)

end Parted

namespace TagsIn

variable {names : List (List Char)} {text first second : List Char}

theorem of_infix
    (tags : TagsIn names text)
    {part : List Char}
    (isPart : part <:+: text) :
    TagsIn names part :=
  fun name isName found => tags name isName (found.trans isPart)

theorem mono
    {others : List (List Char)}
    (tags : TagsIn names text)
    (included : names ⊆ others) :
    TagsIn others text :=
  fun name isName found => included (tags name isName found)

theorem of_tagFree
    (free : TagFree text) :
    TagsIn names text :=
  free.mono (List.nil_subset names)

/-- Texts that are put together have the tags that they have by themselves. -/
theorem append
    (firstTags : TagsIn names first)
    (secondTags : TagsIn names second)
    (parted : Parted first second) :
    TagsIn names (first ++ second) := by
  intro name isName found
  rcases parted.split_tag isName found with inFirst | inSecond
  · exact firstTags name isName inFirst
  · exact secondTags name isName inSecond

theorem of_no_opening
    (noOpening : ¬ ['\x7b', '\x7b'] <:+: text) :
    TagsIn names text := by
  intro name _ found
  refine absurd (List.IsInfix.trans ?_ found) noOpening
  rw [tag_eq_append]
  exact List.infix_append_left

theorem of_not_mem
    (noOpening : '\x7b' ∉ text) :
    TagsIn names text :=
  of_no_opening fun found => noOpening (found.subset (by simp))

theorem tag
    {name : List Char}
    (isName : IsTagName name)
    (known : name ∈ names) :
    TagsIn names (tag name) := by
  intro other isOther found
  rw [eq_of_tag_infix_tag isOther isName found]
  exact known

end TagsIn

section Deciding

variable {text : List Char}

/-- Whether a text starts with a tag. -/
def startsWithTag (text : List Char) : Bool :=
  match Text.after? ['\x7b', '\x7b'] text with
  | none => false
  | some rest =>
      !(rest.takeWhile isNameCharacter).isEmpty
        && (Text.after? ['\x7d', '\x7d']
          (rest.dropWhile isNameCharacter)).isSome

theorem startsWithTag_iff :
    startsWithTag text = true ↔ ∃ name, IsTagName name ∧ tag name <+: text := by
  unfold startsWithTag
  constructor
  · intro starts
    cases opened : Text.after? ['\x7b', '\x7b'] text with
    | none =>
        rw [opened] at starts
        cases starts
    | some rest =>
        rw [opened] at starts
        simp only [Bool.and_eq_true, Bool.not_eq_true',
          List.isEmpty_eq_false_iff, Option.isSome_iff_exists] at starts
        obtain ⟨notNil, after, closed⟩ := starts
        refine ⟨rest.takeWhile isNameCharacter, ⟨notNil, ?_⟩, after, ?_⟩
        · exact List.all_eq_true.mp List.all_takeWhile
        · rw [Text.after?_eq_some.mp opened, tag_eq_append, List.append_assoc,
            List.append_assoc,
            ← Text.after?_eq_some.mp closed, List.takeWhile_append_dropWhile]
  · rintro ⟨name, isName, after, rfl⟩
    have opened : Text.after? ['\x7b', '\x7b'] (tag name ++ after) =
        some (name ++ '\x7d' :: '\x7d' :: after) :=
      Text.after?_eq_some.mpr (by simp [tag])
    have closed :
        Text.after? ['\x7d', '\x7d'] ('\x7d' :: '\x7d' :: after) = some after :=
      Text.after?_eq_some.mpr rfl
    have taken : (name ++ '\x7d' :: '\x7d' :: after).takeWhile isNameCharacter =
        name := by
      rw [List.takeWhile_append_of_pos isName.2,
        List.takeWhile_cons_of_neg (by decide), List.append_nil]
    have dropped :
        (name ++ '\x7d' :: '\x7d' :: after).dropWhile isNameCharacter =
        '\x7d' :: '\x7d' :: after := by
      rw [List.dropWhile_append_of_pos isName.2,
        List.dropWhile_cons_of_neg (by decide)]
    simp only [opened, taken, dropped, closed, Bool.and_eq_true,
      Bool.not_eq_true',
      List.isEmpty_eq_false_iff, Option.isSome_some, and_true]
    exact isName.1

/-- A text is free of tags if it starts with none from any place on. -/
theorem tagFree_iff :
    TagFree text ↔ ∀ rest ∈ text.tails, startsWithTag rest = false := by
  simp only [List.mem_tails, ← Bool.not_eq_true, startsWithTag_iff]
  constructor
  · rintro free rest isRest ⟨name, isName, starts⟩
    exact List.not_mem_nil (free name isName
      (starts.isInfix.trans isRest.isInfix))
  · intro none name isName found
    obtain ⟨rest, starts, isRest⟩ := List.infix_iff_prefix_suffix.mp found
    exact absurd ⟨name, isName, starts⟩ (none rest isRest)

instance (text : List Char) : Decidable (TagFree text) :=
  decidable_of_iff _ tagFree_iff.symm

end Deciding

/--
A text with tags of some names that keeps what stands before it from what
stands after it.
-/
structure Firm (names : List (List Char)) (text : List Char) : Prop where
  notNil : text ≠ []
  tags : TagsIn names text
  start : ∀ character, text.head? = some character →
  isTagCharacter character = false
  finish : ∀ character, text.getLast? = some character →
  isTagCharacter character = false

/-- Whether a text is firm because it has no two opening braces in a row. -/
def isFirm (text : List Char) : Bool :=
  !text.isEmpty && !Text.occurs ['\x7b', '\x7b'] text
    && text.head?.all (fun character => !isTagCharacter character)
    && text.getLast?.all (fun character => !isTagCharacter character)

theorem firm_of_isFirm
    {names : List (List Char)}
    {text : List Char}
    (checked : isFirm text = true) :
    Firm names text := by
  simp only [isFirm, Bool.and_eq_true, Bool.not_eq_true', Option.all_eq_true,
    ← Bool.not_eq_true, List.isEmpty_iff, Text.occurs_iff] at checked
  obtain ⟨⟨⟨notNil, noOpening⟩, start⟩, finish⟩ := checked
  refine ⟨notNil, .of_no_opening noOpening, ?_, ?_⟩
  · intro character isHead
    simpa using start character isHead
  · intro character isLast
    simpa using finish character isLast

theorem firm_toList
    {names : List (List Char)}
    (characters : List Char)
    (checked : isFirm characters = true) :
    Firm names (String.ofList characters).toList := by
  rw [String.toList_ofList]
  exact firm_of_isFirm checked

/--
A tag in texts with a firm separator stands in the separator or in one of the
texts.
-/
theorem Firm.mem_or_exists_part
    {names parts : List (List Char)}
    {separator name : List Char}
    (firm : Firm names separator)
    (isName : IsTagName name)
    (found : tag name <:+: List.intercalate separator parts) :
    name ∈ names ∨ ∃ part ∈ parts, tag name <:+: part := by
  induction parts with
  | nil =>
      exact absurd (List.infix_nil.mp found) (by simp [tag])
  | cons part parts inductionHypothesis =>
      cases parts with
      | nil =>
          exact .inr ⟨part, List.mem_cons_self,
            by simpa [List.intercalate] using found⟩
      | cons next parts =>
          rw [List.intercalate_cons_cons, List.append_assoc] at found
          have start : ∀ character, (separator ++
              List.intercalate separator (next :: parts)).head? =
                some character → isTagCharacter character = false := by
            intro character isHead
            rw [List.head?_append_of_ne_nil _ firm.notNil] at isHead
            exact firm.start character isHead
          rcases (Parted.of_head? start).split_tag isName found with
            inPart | behind
          · exact .inr ⟨part, List.mem_cons_self, inPart⟩
          rcases (Parted.of_getLast? firm.finish).split_tag isName behind with
            inSeparator | inRest
          · exact .inl (firm.tags name isName inSeparator)
          rcases inductionHypothesis inRest with
            known | ⟨other, isOther, inOther⟩
          · exact .inl known
          · exact .inr ⟨other, List.mem_cons_of_mem _ isOther, inOther⟩

namespace TagsIn

variable {names : List (List Char)} {text first second : List Char}

theorem append_firm
    (tags : TagsIn names first)
    (firm : Firm names second) :
    TagsIn names (first ++ second) :=
  tags.append firm.tags (.of_head? firm.start)

theorem around
    {middle : List Char}
    (firstTags : TagsIn names first)
    (firm : Firm names middle)
    (secondTags : TagsIn names second) :
    TagsIn names (first ++ middle ++ second) := by
  refine (firstTags.append_firm firm).append secondTags (.of_getLast? ?_)
  intro character isLast
  rw [List.getLast?_append_of_ne_nil _ firm.notNil] at isLast
  exact firm.finish character isLast

/--
Texts with a firm separator between each two have the tags that they have by
themselves.
-/
theorem intercalate
    {separator : List Char}
    (firm : Firm names separator)
    {parts : List (List Char)}
    (tags : ∀ part ∈ parts, TagsIn names part) :
    TagsIn names (List.intercalate separator parts) := by
  intro name isName found
  rcases firm.mem_or_exists_part isName found with
    known | ⟨part, isPart, inPart⟩
  · exact known
  · exact tags part isPart name isName inPart

end TagsIn

section Strings

variable {names : List (List Char)} {first middle second : String}

theorem tagsIn_append
    (firstTags : TagsIn names first.toList)
    (secondTags : TagsIn names second.toList)
    (parted : Parted first.toList second.toList) :
    TagsIn names (first ++ second).toList := by
  rw [String.toList_append]
  exact firstTags.append secondTags parted

theorem tagsIn_firm_append
    (firm : Firm names first.toList)
    (tags : TagsIn names second.toList) :
    TagsIn names (first ++ second).toList :=
  tagsIn_append firm.tags tags (.of_getLast? firm.finish)

theorem tagsIn_append_firm
    (tags : TagsIn names first.toList)
    (firm : Firm names second.toList) :
    TagsIn names (first ++ second).toList :=
  tagsIn_append tags firm.tags (.of_head? firm.start)

theorem tagsIn_around
    (firstTags : TagsIn names first.toList)
    (firm : Firm names middle.toList)
    (secondTags : TagsIn names second.toList) :
    TagsIn names (first ++ middle ++ second).toList := by
  rw [String.toList_append, String.toList_append]
  exact firstTags.around firm secondTags

/-- A text between firm ones makes a firm text. -/
theorem firm_around
    (firmFirst : Firm names first.toList)
    (tags : TagsIn names middle.toList)
    (firmSecond : Firm names second.toList) :
    Firm names (first ++ middle ++ second).toList := by
  refine ⟨?_, tagsIn_append_firm (tagsIn_firm_append firmFirst tags) firmSecond,
    ?_, ?_⟩
  · simp [firmFirst.notNil]
  · intro character isHead
    rw [String.toList_append, String.toList_append, List.append_assoc,
      List.head?_append_of_ne_nil _ firmFirst.notNil] at isHead
    exact firmFirst.start character isHead
  · intro character isLast
    rw [String.toList_append,
      List.getLast?_append_of_ne_nil _ firmSecond.notNil] at isLast
    exact firmSecond.finish character isLast

theorem tagsIn_join
    {texts : List String}
    (firm : ∀ text ∈ texts, Firm names text.toList) :
    TagsIn names (String.join texts).toList := by
  induction texts with
  | nil =>
      exact .of_not_mem (by decide)
  | cons text texts inductionHypothesis =>
      obtain ⟨textFirm, restFirm⟩ := List.forall_mem_cons.mp firm
      rw [String.join_cons]
      exact tagsIn_firm_append textFirm (inductionHypothesis restFirm)

theorem tagsIn_append_text
    (characters : List Char)
    (checked : (!Text.occurs ['\x7b', '\x7b'] characters
      && characters.head?.all fun character =>
      !isTagCharacter character) = true)
    (tags : TagsIn names first.toList) :
    TagsIn names (first ++ String.ofList characters).toList := by
  simp only [Bool.and_eq_true, Bool.not_eq_true', ← Bool.not_eq_true,
    Text.occurs_iff, Option.all_eq_true] at checked
  have written : (String.ofList characters).toList = characters :=
    String.toList_ofList
  refine tagsIn_append tags ?_ (.of_head? ?_)
  · rw [written]
    exact .of_no_opening checked.1
  · rw [written]
    exact fun character isHead => by simpa using checked.2 character isHead

end Strings

end Flowgen.Template
