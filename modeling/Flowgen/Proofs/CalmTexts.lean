import Flowgen.Json.Printer
import Flowgen.Proofs.Tags
import Mathlib.Tactic.SplitIfs

namespace Flowgen.Template

/-!
# Values written without tags

A value whose strings have no tags is written without tags, in running text and
as a document.  The braces of objects stand next to each other in such a text,
but two opening braces in a row come from a string, and every string is closed
by a quote.
-/

section Calm

variable {first second text : List Char}

/-- A text without tags that does not end inside of one. -/
structure Calm (text : List Char) : Prop where
  free : TagFree text
  ending : ∀ part, part <:+ text →
  (∀ character ∈ part, isTagCharacter character = true) →
    ¬ ['\x7b', '\x7b'] <+: part

namespace Calm

theorem of_not_mem
    (noOpening : '\x7b' ∉ text) :
    Calm text := by
  refine ⟨.of_not_mem noOpening, fun part isSuffix _ braces => noOpening ?_⟩
  exact isSuffix.subset (braces.subset List.mem_cons_self)

theorem of_concat
    {character : Char}
    (free : TagFree (text ++ [character]))
    (outside : isTagCharacter character = false) :
    Calm (text ++ [character]) := by
  refine ⟨free, fun part isSuffix inTags braces => ?_⟩
  have notNil : part ≠ [] := by
    rintro rfl
    simp at braces
  obtain ⟨before, whole⟩ := isSuffix
  have lastIs : part.getLast notNil = character := by
    have := congrArg List.getLast? whole
    rw [List.getLast?_append_of_ne_nil _ notNil, List.getLast?_concat,
      List.getLast?_eq_some_getLast notNil] at this
    exact Option.some.inj this
  have inside := inTags _ (List.getLast_mem notNil)
  rw [lastIs, outside] at inside
  cases inside

/-- Behind a calm text no double braces begin in it, unless braces meet. -/
theorem no_braces
    {before after : List Char}
    (calm : Calm first)
    (apart : first.getLast? = some '\x7b' → second.head? ≠ some '\x7b')
    (notNil : before ≠ [])
    (isSuffix : before <:+ first)
    (isPrefix : after <+: second)
    (inTags : ∀ character ∈ before, isTagCharacter character = true) :
    ¬ ['\x7b', '\x7b'] <+: before ++ after := by
  rintro ⟨more, whole⟩
  rcases before with _ | ⟨head, _ | ⟨next, before⟩⟩
  · exact notNil rfl
  · -- one brace on each side
    obtain ⟨rest, rfl⟩ := isSuffix
    obtain ⟨behind, rfl⟩ := isPrefix
    simp only [List.cons_append, List.nil_append, List.cons.injEq] at whole
    obtain ⟨rfl, rfl⟩ := whole
    exact apart (by simp) rfl
  · -- both braces at the end of the first text
    simp only [List.cons_append, List.nil_append, List.cons.injEq] at whole
    obtain ⟨rfl, rfl, -⟩ := whole
    exact calm.ending _ isSuffix inTags ⟨before, rfl⟩

theorem append
    (firstCalm : Calm first)
    (secondCalm : Calm second)
    (apart : first.getLast? = some '\x7b' → second.head? ≠ some '\x7b') :
    Calm (first ++ second) := by
  have parted : Parted first second := by
    intro name before after isName tagIs notNil _ isSuffix isPrefix
    refine firstCalm.no_braces apart notNil isSuffix isPrefix ?_ ?_
    · intro character member
      apply isTagCharacter_of_mem isName
      rw [tagIs]
      exact List.mem_append_left _ member
    · rw [← tagIs, tag_eq_append]
      exact List.prefix_append _ _
  refine ⟨firstCalm.free.append secondCalm.free parted, ?_⟩
  rintro part ⟨before, whole⟩ inTags braces
  rcases List.append_eq_append_iff.mp whole with
    ⟨rest, rfl, rfl⟩ | ⟨rest, rfl, rfl⟩
  · cases rest with
    | nil =>
        exact secondCalm.ending _ (List.suffix_refl _) inTags braces
    | cons head rest =>
        exact firstCalm.no_braces apart (by simp) (List.suffix_append _ _)
          (List.prefix_refl _)
          (fun character member =>
            inTags character (List.mem_append_left _ member)) braces
  · exact secondCalm.ending _ (List.suffix_append _ _) inTags braces

theorem singleton
    (character : Char) :
    Calm [character] := by
  have short : ∀ more, ¬ '\x7b' :: '\x7b' :: more <:+: [character] := by
    intro more found
    have := found.length_le
    simp at this
  refine ⟨fun name _ found => absurd found (short _), ?_⟩
  rintro part isSuffix _ ⟨more, rfl⟩
  exact short more isSuffix.isInfix

theorem enclosed
    {opening closing : Char}
    (calm : Calm text)
    (start : opening = '\x7b' → text.head? ≠ some '\x7b')
    (notOpening : closing ≠ '\x7b') :
    Calm (opening :: text ++ [closing]) := by
  have opened : Calm ([opening] ++ text) :=
    (Calm.singleton opening).append calm fun isLast =>
      start (Option.some.inj isLast)
  exact opened.append (.singleton closing) fun _ isHead =>
    notOpening (Option.some.inj isHead)

theorem intercalate
    {separator : List Char}
    {parts : List (List Char)}
    (noOpening : '\x7b' ∉ separator)
    (notNil : separator ≠ [])
    (partsCalm : ∀ part ∈ parts, Calm part) :
    Calm (List.intercalate separator parts) := by
  induction parts with
  | nil =>
      exact of_not_mem (by simp [List.intercalate])
  | cons part parts inductionHypothesis =>
      obtain ⟨partCalm, restCalm⟩ := List.forall_mem_cons.mp partsCalm
      cases parts with
      | nil =>
          simpa [List.intercalate] using partCalm
      | cons next parts =>
          rw [List.intercalate_cons_cons]
          have apart : separator.head? ≠ some '\x7b' :=
            fun isHead => noOpening (List.mem_of_head? isHead)
          refine (partCalm.append (.of_not_mem noOpening) fun _ => apart).append
            (inductionHypothesis restCalm) ?_
          intro isLast
          rw [List.getLast?_append_of_ne_nil _ notNil] at isLast
          exact absurd (List.mem_of_getLast? isLast) noOpening

end Calm

theorem head?_append_ne
    (firstStart : first.head? ≠ some '\x7b')
    (secondStart : second.head? ≠ some '\x7b') :
    (first ++ second).head? ≠ some '\x7b' := by
  rw [List.head?_append]
  simp only [ne_eq, Option.or_eq_some_iff, not_or, not_and]
  exact ⟨firstStart, fun _ => secondStart⟩

/--
Texts that start with no opening brace, with a separator that does not either.
-/
theorem head?_intercalate_ne
    {separator : List Char}
    {parts : List (List Char)}
    (apart : separator.head? ≠ some '\x7b')
    (starts : ∀ part ∈ parts, part.head? ≠ some '\x7b') :
    (List.intercalate separator parts).head? ≠ some '\x7b' := by
  induction parts with
  | nil =>
      simp [List.intercalate]
  | cons part parts inductionHypothesis =>
      obtain ⟨partStart, restStarts⟩ := List.forall_mem_cons.mp starts
      cases parts with
      | nil =>
          simpa [List.intercalate] using partStart
      | cons next parts =>
          rw [List.intercalate_cons_cons]
          exact head?_append_ne (head?_append_ne partStart apart)
            (inductionHypothesis restStarts)

end Calm

section Escaping

variable {escape : Char → List Char}

/--
A way to write characters that adds nothing to a tag: what is changed starts
outside tags.
-/
def Escapes (escape : Char → List Char) : Prop :=
  ∀ character, escape character = [character] ∨
    ∃ first rest, escape character = first :: rest ∧
      isTagCharacter first = false ∧ '\x7b' ∉ first :: rest

/--
What starts a text in escaped form without leaving tags starts the text
itself.
-/
theorem Escapes.prefix_of_flatMap
    (escapes : Escapes escape)
    {part text : List Char}
    (inTags : ∀ character ∈ part, isTagCharacter character = true)
    (isStart : part <+: text.flatMap escape) :
    part <+: text := by
  induction text generalizing part with
  | nil =>
      simpa using isStart
  | cons character text inductionHypothesis =>
      cases part with
      | nil =>
          exact List.nil_prefix
      | cons head part =>
          obtain ⟨headInTags, restInTags⟩ := List.forall_mem_cons.mp inTags
          rw [List.flatMap_cons] at isStart
          rcases escapes character with
            kept | ⟨first, rest, changed, outside, _⟩
          · rw [kept, List.singleton_append, List.cons_prefix_cons] at isStart
            exact List.cons_prefix_cons.mpr
              ⟨isStart.1, inductionHypothesis restInTags isStart.2⟩
          · rw [changed, List.cons_append, List.cons_prefix_cons] at isStart
            rw [← isStart.1, headInTags] at outside
            cases outside

/-- Escaping makes no tags. -/
theorem Escapes.tagsIn
    (escapes : Escapes escape)
    {names : List (List Char)}
    {text : List Char}
    (tags : TagsIn names text) :
    TagsIn names (text.flatMap escape) := by
  induction text with
  | nil =>
      simpa using tags
  | cons character text inductionHypothesis =>
      have restTags :=
        inductionHypothesis (tags.of_infix (List.suffix_cons _ _).isInfix)
      rcases kept :
        escapes character with same | ⟨first, rest, changed, _, noOpening⟩
      · intro name isName found
        rw [List.flatMap_cons, same, List.singleton_append] at found
        rcases List.infix_cons_iff.mp found with atStart | behind
        · have isStart : tag name <+: (character :: text).flatMap escape := by
            rwa [List.flatMap_cons, same, List.singleton_append]
          exact tags name isName (escapes.prefix_of_flatMap
            (fun _ => isTagCharacter_of_mem isName) isStart).isInfix
        · exact restTags name isName behind
      · rw [List.flatMap_cons, changed]
        exact (TagsIn.of_not_mem noOpening).append restTags
          (.of_not_mem noOpening)

theorem replaceAll_singleton
    (character : Char)
    (replacement text : List Char) :
    Text.replaceAll [character] replacement text =
      text.flatMap fun other =>
      if other = character then replacement else [other] := by
  induction text with
  | nil =>
      rfl
  | cons other text inductionHypothesis =>
      rw [Text.replaceAll] at inductionHypothesis ⊢
      rw [List.flatMap_cons, ← inductionHypothesis, Text.replaceAfter]
      by_cases same : other = character
      · simp [same]
      · simp [same, Ne.symm same]

end Escaping

section Digits

theorem brace_not_mem_append
    {first second : String}
    (notInFirst : '\x7b' ∉ first.toList)
    (notInSecond : '\x7b' ∉ second.toList) :
    '\x7b' ∉ (first ++ second).toList := by
  rw [String.toList_append, List.mem_append, not_or]
  exact ⟨notInFirst, notInSecond⟩

theorem digitChar_ne_brace
    (digit : Nat) :
    Nat.digitChar digit ≠ '\x7b' := by
  by_cases small : digit < 16
  · revert digit
    decide
  · obtain ⟨more, rfl⟩ : ∃ more, digit = more + 16 := ⟨digit - 16, by omega⟩
    have isStar : Nat.digitChar (more + 16) = '*' := rfl
    rw [isStar]
    decide

theorem brace_not_mem_toDigits
    (base number : Nat) :
    '\x7b' ∉ Nat.toDigits base number := by
  have core : ∀ fuel number digits, '\x7b' ∉ digits →
      '\x7b' ∉ Nat.toDigitsCore base fuel number digits := by
    intro fuel
    induction fuel with
    | zero =>
        exact fun _ _ absent => absent
    | succ fuel inductionHypothesis =>
        intro number digits absent
        have more : '\x7b' ∉ Nat.digitChar (number % base) :: digits := by
          simp [absent, (digitChar_ne_brace _).symm]
        simp only [Nat.toDigitsCore]
        split
        · exact more
        · exact inductionHypothesis _ _ more
  exact core _ _ _ List.not_mem_nil

theorem brace_not_mem_natural
    (number : Nat) :
    '\x7b' ∉ (toString number).toList := by
  change '\x7b' ∉ (String.ofList (Nat.toDigits 10 number)).toList
  rw [String.toList_ofList]
  exact brace_not_mem_toDigits 10 number

theorem brace_not_mem_integer
    (number : Int) :
    '\x7b' ∉ (toString number).toList := by
  cases number with
  | ofNat number =>
      exact brace_not_mem_natural number
  | negSucc number =>
      change '\x7b' ∉ ("-" ++ toString (number + 1)).toList
      exact brace_not_mem_append (by decide) (brace_not_mem_natural _)

theorem brace_not_mem_hexadecimal
    (width number : Nat) :
    '\x7b' ∉ Text.hexadecimal width number := by
  simp only [Text.hexadecimal, List.mem_append, List.mem_replicate, not_or,
    not_and]
  exact ⟨fun _ => by decide, brace_not_mem_toDigits 16 number⟩

/-- No brace is in a number, unless it is in the words for the special ones. -/
theorem brace_not_mem_real
    {layout : Decimal.Layout}
    (infinity : '\x7b' ∉ layout.infinity.toList)
    (notANumber : '\x7b' ∉ layout.notANumber.toList)
    (number : Binary64) :
    '\x7b' ∉ (layout.writeBinary64 number).toList := by
  have zeros : ∀ count, '\x7b' ∉ (Decimal.zeros count).toList := by
    intro count
    simp [Decimal.zeros]
  have digits : ∀ number, '\x7b' ∉ Nat.toDigits 10 number :=
    brace_not_mem_toDigits 10
  have taken : ∀ count number, '\x7b' ∉ (Nat.toDigits 10 number).take count :=
    fun _ number member => digits number (List.mem_of_mem_take member)
  have dropped : ∀ count number, '\x7b' ∉ (Nat.toDigits 10 number).drop count :=
    fun _ number member => digits number (List.mem_of_mem_drop member)
  have exponent : ∀ width exponent,
      '\x7b' ∉ (Decimal.exponentText width exponent).toList := by
    intro width exponent
    refine brace_not_mem_append (brace_not_mem_append ?_ (zeros _))
      (brace_not_mem_natural _)
    split <;> decide
  have written : ∀ decimal, '\x7b' ∉ (layout.write decimal).toList := by
    intro decimal
    simp only [Decimal.Layout.write]
    split
    · split
      · simp [zeros, digits]
      · split
        · simp [zeros, digits]
        · simp [taken, dropped]
    · refine brace_not_mem_append
        (brace_not_mem_append (brace_not_mem_append ?_ ?_) (by decide))
        (exponent _ _)
      · rw [String.toList_ofList]
        exact taken _ _
      · split
        · simp
        · exact brace_not_mem_append (by decide)
            (by rw [String.toList_ofList]; exact dropped _ _)
  have signed :
      ∀ negative, '\x7b' ∉ (if negative = true then "-" else "").toList := by
    decide
  cases number with
  | nan =>
      exact notANumber
  | infinite negative =>
      exact brace_not_mem_append (signed negative) infinity
  | finite negative mantissa exponent =>
      refine brace_not_mem_append (signed negative) ?_
      split
      · decide
      · exact written _

end Digits

section Quotes

theorem calm_between_quotes
    {quote : Char}
    {text : List Char}
    (outside : isTagCharacter quote = false)
    (free : TagFree text) :
    Calm (quote :: text ++ [quote]) := by
  have noOpening : '\x7b' ∉ [quote] := by
    rw [List.mem_singleton]
    rintro rfl
    exact absurd outside (by decide)
  have opened : TagFree (quote :: text) := by
    refine (TagsIn.of_not_mem noOpening).append free (.of_not_mem noOpening)
  refine .of_concat ?_ outside
  refine opened.append (.of_not_mem noOpening) (.of_head? ?_)
  exact fun character isHead => Option.some.inj isHead ▸ outside

/-- A changed character is written with a backslash in front. -/
theorem escaped_of_backslash
    {text rest : List Char}
    (changed : text = '\\' :: rest)
    (noOpening : '\x7b' ∉ rest) :
    ∃ first rest, text = first :: rest ∧ isTagCharacter first = false ∧
      '\x7b' ∉ first :: rest :=
  ⟨'\\', rest, changed, by decide, by simp [noOpening]⟩

/-- What is written between quotes in running text. -/
theorem escapes_quoteCharacter
    {quote : Char}
    (notBrace : quote ≠ '\x7b') :
    Escapes (Text.quoteCharacter quote) := by
  intro character
  unfold Text.quoteCharacter
  split
  · rename_i isSpecial
    refine .inr (escaped_of_backslash rfl ?_)
    rw [List.mem_singleton]
    rintro rfl
    rcases isSpecial with same | same
    · exact notBrace same.symm
    · exact absurd same (by decide)
  · split_ifs
    · exact .inr (escaped_of_backslash rfl (by decide))
    · exact .inr (escaped_of_backslash rfl (by decide))
    · exact .inr (escaped_of_backslash rfl (by decide))
    · exact .inl rfl
    · exact .inr (escaped_of_backslash rfl
        (by simp [brace_not_mem_hexadecimal]))
    · exact .inr (escaped_of_backslash rfl
        (by simp [brace_not_mem_hexadecimal]))
    · exact .inr (escaped_of_backslash rfl
        (by simp [brace_not_mem_hexadecimal]))

/-- What is written between quotes in a document. -/
theorem escapes_escape : Escapes Json.escape := by
  intro character
  unfold Json.escape
  split
  · rename_i isSpecial
    refine .inr (escaped_of_backslash rfl ?_)
    rw [List.mem_singleton]
    rintro rfl
    exact absurd isSpecial (by decide)
  · split_ifs
    · exact .inr (escaped_of_backslash rfl (by decide))
    · exact .inr (escaped_of_backslash rfl (by decide))
    · exact .inr (escaped_of_backslash rfl (by decide))
    · exact .inr (escaped_of_backslash rfl (by decide))
    · exact .inr (escaped_of_backslash rfl (by decide))
    · exact .inr (escaped_of_backslash rfl
        (by simp [brace_not_mem_hexadecimal]))
    · exact .inl rfl

theorem calm_quote
    {text : String}
    (free : TagFree text.toList) :
    Calm (Text.quote text).toList ∧
    (Text.quote text).toList.head? ≠ some '\x7b' := by
  have quoteIs : Text.quoteFor text.toList = '\x22' ∨
      Text.quoteFor text.toList = '\x27' := by
    unfold Text.quoteFor
    split
    · exact .inl rfl
    · exact .inr rfl
  rw [Text.quote, String.toList_ofList, Text.quoted]
  rcases quoteIs with isDouble | isSingle
  · rw [isDouble]
    exact ⟨calm_between_quotes (by decide)
      ((escapes_quoteCharacter (by decide)).tagsIn free), by simp⟩
  · rw [isSingle]
    exact ⟨calm_between_quotes (by decide)
      ((escapes_quoteCharacter (by decide)).tagsIn free), by simp⟩

theorem calm_quoted
    {text : String}
    (free : TagFree text.toList) :
    Calm (Json.quoted text) ∧ (Json.quoted text).head? ≠ some '\x7b' :=
  ⟨calm_between_quotes (by decide) (escapes_escape.tagsIn free),
    by simp [Json.quoted]⟩

end Quotes

end Flowgen.Template
