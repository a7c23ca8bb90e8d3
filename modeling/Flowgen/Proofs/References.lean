import Flowgen.Parameters
import Flowgen.Proofs.Searching
import Mathlib.Data.List.TakeWhile

namespace Flowgen.Parameters

/-!
# References in texts

A text refers to a name if a marker, a source and a dot stand before it, and
the name goes on as long as it can.  The scan passes over each reference that
it finds, and misses none: a reference has a dollar sign at its start and
nowhere else.
-/

/-- A name that one can refer to. -/
def IsName (name : List Char) : Prop :=
  ∃ first rest, name = first :: rest ∧ startsIdentifier first = true ∧
    ∀ character ∈ rest, continuesIdentifier character = true

/-- A text that a name before it does not go on into. -/
def EndsName (rest : List Char) : Prop :=
  ∀ character ∈ rest.head?, continuesIdentifier character = false

/-- A text that starts with a reference to a name. -/
def ReferenceAt (name text : List Char) : Prop :=
  ∃ source ∈ Expression.sources, ∃ rest, IsName name ∧ EndsName rest ∧
    text = "$json.".toList ++ (source ++ '.' :: (name ++ rest))

/-- A text with an expression in it that refers to a name somewhere. -/
def Refers (content name : String) : Prop :=
  Expression.opening <:+: content.toList ∧
    ∃ rest, rest <:+ content.toList ∧ ReferenceAt name.toList rest

/--
A text with an expression in it that refers to a name before it refers to any
other.
-/
def RefersFirst (content name : String) : Prop :=
  Expression.opening <:+: content.toList ∧
    ∃ rest, rest <:+ content.toList ∧ ReferenceAt name.toList rest ∧
      ∀ other earlier, earlier <:+ content.toList → ReferenceAt other earlier →
        earlier.length ≤ rest.length

variable {name other text rest : List Char}

/-- The name at the start of a text is the longest one there. -/
theorem identifierAt?_eq_some :
    identifierAt? text = some name ↔
      IsName name ∧ ∃ rest, text = name ++ rest ∧ EndsName rest := by
  constructor
  · intro found
    cases text with
    | nil =>
        cases found
    | cons first text =>
        rw [identifierAt?] at found
        split at found
        · rename_i starts
          cases found
          refine ⟨⟨first, _, rfl, starts, fun character member => ?_⟩,
            text.dropWhile continuesIdentifier, ?_, ?_⟩
          · exact List.mem_takeWhile_imp member
          · rw [List.cons_append, List.takeWhile_append_dropWhile]
          · intro character isHead
            have := List.head?_dropWhile_not continuesIdentifier text
            rw [Option.mem_def.mp isHead] at this
            exact this
        · cases found
  · rintro ⟨⟨first, more, rfl, starts, goesOn⟩, rest, rfl, ends⟩
    have stops : rest.takeWhile continuesIdentifier = [] := by
      cases rest with
      | nil =>
          rfl
      | cons character rest =>
          exact List.takeWhile_cons_of_neg (by simp [ends character rfl])
    rw [List.cons_append, identifierAt?, if_pos starts,
      List.takeWhile_append_of_pos goesOn, stops, List.append_nil]

theorem isName_iff :
    IsName name ↔ identifierAt? name = some name := by
  rw [identifierAt?_eq_some]
  exact ⟨fun isName => ⟨isName, [], by simp, by simp [EndsName]⟩, And.left⟩

instance decidableIsName (name : List Char) : Decidable (IsName name) :=
  decidable_of_iff _ isName_iff.symm

theorem afterSource?_eq_some :
    Expression.afterSource? text = some rest ↔
      ∃ source ∈ Expression.sources, text = source ++ '.' :: rest := by
  constructor
  · intro found
    obtain ⟨source, isSource, follows⟩ := List.exists_of_findSome?_eq_some found
    refine ⟨source, isSource, ?_⟩
    rw [Text.after?_eq_some.mp follows, List.append_assoc,
      List.singleton_append]
  · rintro ⟨source, isSource, rfl⟩
    simp only [Expression.sources, List.mem_cons, List.not_mem_nil, or_false]
      at isSource
    rcases isSource with rfl | rfl | rfl
    all_goals rfl

theorem IsName.dollar_not_mem
    (isName : IsName name) :
    '$' ∉ name := by
  obtain ⟨first, rest, rfl, starts, goesOn⟩ := isName
  rw [List.mem_cons, not_or]
  refine ⟨fun isFirst => ?_, fun member => ?_⟩
  · rw [← isFirst] at starts
    exact absurd starts (by decide)
  · exact absurd (goesOn '$' member) (by decide)

theorem ReferenceAt.head?_eq
    (isReference : ReferenceAt name text) :
    text.head? = some '$' := by
  obtain ⟨_, _, _, _, _, rfl⟩ := isReference
  rfl

/--
A reference that is found at the start of a text is one, and has no other
dollar sign.
-/
theorem referenceAt_of_referenceAt?
    {length : Nat}
    (found : referenceAt? text = some (name, length)) :
    ReferenceAt name text ∧
      ∃ spelled rest, text = '$' :: (spelled ++ rest) ∧ '$' ∉ spelled ∧
        length = spelled.length + 1 := by
  have plainSource : ∀ source ∈ Expression.sources, '$' ∉ source := by
    decide
  have marker : "$json.".toList = '$' :: "json.".toList := by
    decide
  have plainMarker : '$' ∉ "json.".toList := by
    decide
  simp only [referenceAt?, Option.bind_eq_bind, Option.bind_eq_some_iff,
    Option.pure_def, Option.some.injEq, Prod.mk.injEq] at found
  obtain ⟨_, marked, _, isSource, found, identified, foundIs, lengthIs⟩ := found
  rw [foundIs] at identified lengthIs
  rw [Text.after?_eq_some] at marked
  obtain ⟨source, known, rfl⟩ := afterSource?_eq_some.mp isSource
  obtain ⟨isName, rest, rfl, ends⟩ := identifierAt?_eq_some.mp identified
  refine ⟨⟨source, known, rest, isName, ends, marked⟩,
    "json.".toList ++ (source ++ '.' :: name), rest, ?_, ?_, ?_⟩
  · rw [marked, marker]
    simp only [List.cons_append, List.append_assoc]
  · simp only [List.mem_append, List.mem_cons, not_or]
    exact ⟨plainMarker, plainSource source known, by decide,
      isName.dollar_not_mem⟩
  · rw [← lengthIs, marked, marker]
    simp only [List.length_cons, List.length_append]
    omega

/-- A reference at the start of a text is found. -/
theorem ReferenceAt.referenceAt?_eq
    (isReference : ReferenceAt name text) :
    ∃ length, referenceAt? text = some (name, length) := by
  obtain ⟨source, known, rest, isName, ends, textIs⟩ := isReference
  have marked := Text.after?_eq_some.mpr textIs
  have isSource := afterSource?_eq_some.mpr
    ⟨source, known, (rfl : source ++ '.' :: (name ++ rest) = _)⟩
  have identified := identifierAt?_eq_some.mpr ⟨isName, rest, rfl, ends⟩
  refine ⟨text.length - (name ++ rest).length + name.length, ?_⟩
  rw [referenceAt?, marked]
  simp only [Option.bind_eq_bind, Option.bind_some, isSource, identified,
    Option.pure_def]

theorem ReferenceAt.unique
    (isReference : ReferenceAt name text)
    (isOther : ReferenceAt other text) :
    name = other := by
  obtain ⟨_, found⟩ := isReference.referenceAt?_eq
  obtain ⟨_, otherFound⟩ := isOther.referenceAt?_eq
  rw [found, Option.some.injEq, Prod.mk.injEq] at otherFound
  exact otherFound.1

theorem referencesAfter_eq_drop
    (skip : Nat)
    (text : List Char) :
    referencesAfter skip text = referencesAfter 0 (text.drop skip) := by
  induction text generalizing skip with
  | nil =>
      rw [List.drop_nil, referencesAfter, referencesAfter]
  | cons character text inductionHypothesis =>
      cases skip with
      | zero =>
          rfl
      | succ skip =>
          rw [referencesAfter, inductionHypothesis, List.drop_succ_cons]

/--
The end of a text that starts with a dollar sign does not start before the
first one.
-/
theorem suffix_of_suffix_append
    {spelled suffix : List Char}
    (plain : '$' ∉ spelled)
    (isSuffix : suffix <:+ spelled ++ rest)
    (starts : suffix.head? = some '$') :
    suffix <:+ rest := by
  obtain ⟨before, whole⟩ := isSuffix
  rcases List.append_eq_append_iff.mp whole with
    ⟨more, spelledIs, suffixIs⟩ | ⟨more, _, restIs⟩
  · cases more with
    | nil =>
        exact ⟨[], suffixIs⟩
    | cons first more =>
        rw [suffixIs, List.cons_append, List.head?_cons, Option.some.injEq]
          at starts
        rw [spelledIs, starts] at plain
        exact absurd (List.mem_append_right _ List.mem_cons_self) plain
  · exact ⟨more, restIs.symm⟩

/-- The scan finds the name of every reference in a text. -/
theorem mem_referencesAfter :
    name ∈ referencesAfter 0 text ↔
    ∃ rest, rest <:+ text ∧ ReferenceAt name rest := by
  induction size :
    text.length using Nat.strong_induction_on generalizing text with
  | _ size inductionHypothesis =>
      subst size
      cases text with
      | nil =>
          constructor
          · simp [referencesAfter]
          · rintro ⟨rest, isSuffix, isReference⟩
            rw [List.suffix_nil.mp isSuffix] at isReference
            cases isReference.head?_eq
      | cons character text =>
          rw [referencesAfter]
          split
          · rename_i first length found
            obtain ⟨isReference, spelled, rest, textIs, plain, rfl⟩ :=
              referenceAt_of_referenceAt? found
            obtain ⟨rfl, rfl⟩ := List.cons.inj textIs
            rw [referencesAfter_eq_drop, Nat.add_sub_cancel, List.drop_left,
              List.mem_cons,
              inductionHypothesis rest.length
                (by rw [List.length_cons, List.length_append]; omega) rfl]
            constructor
            · rintro (rfl | ⟨later, isSuffix, isLater⟩)
              · exact ⟨_, List.suffix_refl _, isReference⟩
              · refine ⟨later, isSuffix.trans ?_, isLater⟩
                exact (List.suffix_append _ _).trans (List.suffix_cons _ _)
            · rintro ⟨other, isSuffix, isOther⟩
              rcases List.suffix_cons_iff.mp isSuffix with rfl | inside
              · exact .inl (isOther.unique isReference)
              · exact .inr ⟨other, suffix_of_suffix_append plain inside
                  isOther.head?_eq, isOther⟩
          · rename_i nothing
            rw [inductionHypothesis text.length (by simp) rfl]
            constructor
            · rintro ⟨rest, isSuffix, isReference⟩
              exact ⟨rest, isSuffix.trans (List.suffix_cons _ _), isReference⟩
            · rintro ⟨rest, isSuffix, isReference⟩
              rcases List.suffix_cons_iff.mp isSuffix with rfl | inside
              · obtain ⟨_, found⟩ := isReference.referenceAt?_eq
                rw [nothing] at found
                cases found
              · exact ⟨rest, inside, isReference⟩

/--
The first name that the scan finds is that of the reference with the most text
behind it.
-/
theorem head?_referencesAfter :
    (referencesAfter 0 text).head? = some name ↔
      ∃ rest, rest <:+ text ∧ ReferenceAt name rest ∧
        ∀ other earlier, earlier <:+ text → ReferenceAt other earlier →
          earlier.length ≤ rest.length := by
  induction text with
  | nil =>
      constructor
      · simp [referencesAfter]
      · rintro ⟨rest, isSuffix, isReference, _⟩
        rw [List.suffix_nil.mp isSuffix] at isReference
        cases isReference.head?_eq
  | cons character text inductionHypothesis =>
      rw [referencesAfter]
      split
      · rename_i first length found
        have isReference := (referenceAt_of_referenceAt? found).1
        rw [List.head?_cons, Option.some.injEq]
        constructor
        · rintro rfl
          exact ⟨_, List.suffix_refl _, isReference,
            fun _ _ isSuffix _ => isSuffix.length_le⟩
        · rintro ⟨rest, isSuffix, isFirst, longest⟩
          have whole := isSuffix.eq_of_length_le
            (longest _ _ (List.suffix_refl _) isReference)
          rw [whole] at isFirst
          exact isReference.unique isFirst
      · rename_i nothing
        have inside : ∀ {other earlier}, earlier <:+ character :: text →
            ReferenceAt other earlier → earlier <:+ text := by
          intro other earlier isSuffix isReference
          rcases List.suffix_cons_iff.mp isSuffix with rfl | inside
          · obtain ⟨_, found⟩ := isReference.referenceAt?_eq
            rw [nothing] at found
            cases found
          · exact inside
        rw [inductionHypothesis]
        constructor
        · rintro ⟨rest, isSuffix, isReference, longest⟩
          exact ⟨rest, isSuffix.trans (List.suffix_cons _ _), isReference,
            fun other earlier isEarlier isOther =>
              longest other earlier (inside isEarlier isOther) isOther⟩
        · rintro ⟨rest, isSuffix, isReference, longest⟩
          exact ⟨rest, inside isSuffix isReference, isReference,
            fun other earlier isEarlier isOther =>
              longest other earlier (isEarlier.trans (List.suffix_cons _ _))
                isOther⟩

section Texts

variable {content name : String}

/-- Looking for the marker first makes no difference. -/
theorem references_eq
    (content : String) :
    references content =
      if Text.occurs Expression.opening content.toList then
        (referencesAfter 0 content.toList).map String.ofList
      else
        [] := by
  have unmarked : Text.occurs "$json.".toList content.toList = false →
      referencesAfter 0 content.toList = [] := by
    intro lacks
    refine List.eq_nil_iff_forall_not_mem.mpr fun name member => ?_
    obtain ⟨_, ⟨before, contentIs⟩, _, _, _, _, _, rfl⟩ :=
      mem_referencesAfter.mp member
    have found : "$json.".toList <:+: content.toList :=
      ⟨before, _, by rw [← contentIs, List.append_assoc]⟩
    rw [Text.occurs_iff.mpr found] at lacks
    cases lacks
  cases marked : Text.occurs "$json.".toList content.toList with
  | true =>
      simp only [references, marked, Bool.and_true]
  | false =>
      rw [unmarked marked, List.map_nil, ite_self]
      simp only [references, marked, Bool.and_false, Bool.false_eq_true,
        if_false]

/-- The names that a text is found to refer to are those it refers to. -/
theorem mem_references :
    name ∈ references content ↔ Refers content name := by
  rw [references_eq, Refers, ← Text.occurs_iff, ← mem_referencesAfter]
  split
  · rename_i opened
    rw [List.mem_map, opened]
    simp only [true_and]
    constructor
    · rintro ⟨found, member, rfl⟩
      rwa [String.toList_ofList]
    · exact fun member => ⟨name.toList, member, String.ofList_toList⟩
  · rename_i unopened
    simp [unopened]

/-- The first name that is found in a text is the one it refers to first. -/
theorem head?_references :
    (references content).head? = some name ↔ RefersFirst content name := by
  rw [references_eq, RefersFirst, ← Text.occurs_iff, ← head?_referencesAfter]
  split
  · rename_i opened
    rw [List.head?_map, Option.map_eq_some_iff, opened]
    simp only [true_and]
    constructor
    · rintro ⟨found, isFirst, rfl⟩
      rwa [String.toList_ofList]
    · exact fun isFirst => ⟨name.toList, isFirst, String.ofList_toList⟩
  · rename_i unopened
    simp [unopened]

end Texts

end Flowgen.Parameters
