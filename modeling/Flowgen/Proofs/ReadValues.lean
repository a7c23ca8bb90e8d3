import Flowgen.Json.Reader
import Mathlib.Data.List.Nodup
import Mathlib.Data.List.TakeWhile
import Mathlib.Tactic.Ring

namespace Flowgen

/-!
# Values as documents give them

A document never gives an object two fields of one name, since a repeated name
only takes a new value, and never an integer with more digits than may be
spelled.  Every step of the reader keeps this, so every value that is read has
it at any depth.
-/

namespace Value

mutual

/-- The doubles in a value at any depth. -/
def reals : Value → List Binary64
  | .real number => [number]
  | .list items => itemReals items
  | .object fields => fieldReals fields
  | .text _ => []
  | .int _ => []
  | .bool _ => []
  | .null => []

/-- The doubles in some items. -/
def itemReals : List Value → List Binary64
  | [] => []
  | item :: items => reals item ++ itemReals items

/-- The doubles in the values of some fields. -/
def fieldReals : List (String × Value) → List Binary64
  | [] => []
  | (_, value) :: fields => reals value ++ fieldReals fields

end

/--
No name twice in an object, and no integer too long to be spelled, at any
depth.
-/
inductive Regular : Value → Prop where
  | null :
      Regular .null
  | bool (flag : Bool) :
      Regular (.bool flag)
  | int
      {number : Int}
      (short : (Nat.toDigits 10 number.natAbs).length ≤ Numeral.digitLimit) :
      Regular (.int number)
  | real (number : Binary64) :
      Regular (.real number)
  | text (content : String) :
      Regular (.text content)
  | list
      {items : List Value}
      (regular : ∀ item ∈ items, Regular item) :
      Regular (.list items)
  | object
      {fields : Fields}
      (nodup : (fields.map Prod.fst).Nodup)
      (regular : ∀ field ∈ fields, Regular field.2) :
      Regular (.object fields)

end Value

namespace Fields

variable {name : String} {value : Value} {fields : Fields}

theorem mem_set
    {field : String × Value}
    (member : field ∈ set name value fields) :
    field = (name, value) ∨ field ∈ fields := by
  induction fields with
  | nil =>
      exact .inl (List.mem_singleton.mp member)
  | cons first fields inductionHypothesis =>
      rw [set] at member
      split at member
      · rcases List.mem_cons.mp member with isNew | inRest
        · exact .inl isNew
        · exact .inr (List.mem_cons_of_mem _ inRest)
      · rcases List.mem_cons.mp member with rfl | inRest
        · exact .inr List.mem_cons_self
        · exact (inductionHypothesis inRest).imp_right (List.mem_cons_of_mem _)

theorem nodup_set
    (nodup : (fields.map Prod.fst).Nodup) :
    ((set name value fields).map Prod.fst).Nodup := by
  induction fields with
  | nil =>
      exact List.nodup_singleton name
  | cons first fields inductionHypothesis =>
      obtain ⟨isNew, restNodup⟩ := List.nodup_cons.mp nodup
      rw [set]
      split
      · rename_i same
        exact List.nodup_cons.mpr ⟨same ▸ isNew, restNodup⟩
      · rename_i differs
        refine List.nodup_cons.mpr
          ⟨fun inRest => ?_, inductionHypothesis restNodup⟩
        obtain ⟨field, member, sameName⟩ := List.mem_map.mp inRest
        rcases mem_set member with rfl | old
        · exact differs sameName.symm
        · exact isNew (List.mem_map.mpr ⟨field, old, sameName⟩)

theorem set_of_not_mem
    (isNew : name ∉ fields.map Prod.fst) :
    set name value fields = fields ++ [(name, value)] := by
  induction fields with
  | nil =>
      rfl
  | cons first fields inductionHypothesis =>
      rw [List.map_cons, List.mem_cons, not_or] at isNew
      rw [set, if_neg (Ne.symm isNew.1), inductionHypothesis isNew.2,
        List.cons_append]

end Fields

namespace Json

theorem ofDigits_lt
    {digits : List Char}
    (areDigits : ∀ digit ∈ digits, digit.isDigit = true) :
    Numeral.ofDigits digits < 10 ^ digits.length := by
  have after : ∀ start, digits.foldl
      (fun number digit => 10 * number + (digit.toNat - 48)) start <
      (start + 1) * 10 ^ digits.length := by
    induction digits with
    | nil =>
        intro start
        simp
    | cons digit digits inductionHypothesis =>
        intro start
        obtain ⟨isDigit, restDigits⟩ := List.forall_mem_cons.mp areDigits
        have small : digit.toNat - 48 ≤ 9 := by
          simp only [Char.isDigit, Bool.and_eq_true, decide_eq_true_eq]
            at isDigit
          have atMost : digit.toNat ≤ 57 := isDigit.2
          omega
        rw [List.foldl_cons, List.length_cons]
        calc
          _ < (10 * start + (digit.toNat - 48) + 1) * 10 ^ digits.length :=
            inductionHypothesis restDigits _
          _ ≤ (10 * (start + 1)) * 10 ^ digits.length :=
            Nat.mul_le_mul_right _ (by omega)
          _ = (start + 1) * 10 ^ (digits.length + 1) := by ring
  have isBelow := after 0
  rwa [Nat.zero_add, Nat.one_mul] at isBelow

theorem isDigit_of_mem_wholeDigits
    {text : List Char}
    {digit : Char}
    (member : digit ∈ wholeDigits text) :
    digit.isDigit = true := by
  unfold wholeDigits at member
  split at member
  · rw [List.mem_singleton.mp member]
    rfl
  · exact List.mem_takeWhile_imp member

variable {text rest : List Char} {value : Value}

theorem regular_of_number
    {negative : Bool}
    (read : number negative text = .ok (value, rest)) :
    value.Regular := by
  simp only [number] at read
  split at read
  · cases read
  · split at read
    · split at read
      · cases read
      · rename_i _ _ fits
        cases read
        refine .int ?_
        have bound := ofDigits_lt fun digit member =>
          @isDigit_of_mem_wholeDigits text digit member
        have absolute : (if negative =
            true then -(Numeral.ofDigits (wholeDigits text) : Int)
            else Numeral.ofDigits (wholeDigits text)).natAbs =
              Numeral.ofDigits (wholeDigits text) := by
          split
          · rw [Int.natAbs_neg, Int.natAbs_natCast]
          · rw [Int.natAbs_natCast]
        rw [absolute, Nat.length_toDigits_le_iff (by decide) (by decide)]
        exact bound.trans_le (Nat.pow_le_pow_right (by decide)
          (Nat.le_of_not_lt fits))
    · cases read
      exact .real _

theorem regular_of_scalar
    (read : scalar text = .ok (value, rest)) :
    value.Regular := by
  unfold scalar at read
  split at read
  · rename_i found
    obtain ⟨⟨word, meaning⟩, isWord, matched⟩ :=
      List.exists_of_findSome?_eq_some found
    obtain ⟨_, _, rfl⟩ := Option.map_eq_some_iff.mp matched
    cases read
    simp only [wordValues, List.mem_cons, List.not_mem_nil, or_false,
      Prod.mk.injEq] at isWord
    rcases isWord with ⟨_, rfl⟩ | ⟨_, rfl⟩ | ⟨_, rfl⟩ | ⟨_, rfl⟩ | ⟨_,
      rfl⟩ | ⟨_, rfl⟩
    · exact .null
    · exact .bool _
    · exact .bool _
    all_goals exact .real _
  · split at read
    · split at read
      · cases read
        exact .text _
      · cases read
    · exact regular_of_number read
    · exact regular_of_number read

section Reading

variable {fuel : Nat}

theorem map_eq_ok
    {computation : Except ε α}
    {function : α → β}
    {result : β} :
    computation.map function = .ok result ↔
      ∃ value, computation = .ok value ∧ function value = result := by
  cases computation with
  | error fault =>
      simp [Except.map]
  | ok value =>
      simp [Except.map]

/--
A value is a scalar, an empty list or object, or one whose parts are read in
turn.
-/
theorem value_succ_eq_ok
    (read : Json.value (fuel + 1) text = .ok (value, rest)) :
    scalar text = .ok (value, rest) ∨ value = .list [] ∨ value = .object [] ∨
      (∃ inner items, value = .list items ∧
        Json.items fuel inner = .ok (items, rest)) ∨
      ∃ inner fields, value = .object fields ∧
      Json.fields fuel [] inner = .ok (fields, rest) := by
  unfold Json.value at read
  split at read
  · cases read
  · rename_i sameFuel
    cases sameFuel
    split at read
    · cases read
      exact .inr (.inl rfl)
    · obtain ⟨⟨items, after⟩, itemsRead, same⟩ := map_eq_ok.mp read
      cases same
      exact .inr (.inr (.inr (.inl ⟨_, items, rfl, itemsRead⟩)))
  · rename_i sameFuel
    cases sameFuel
    split at read
    · cases read
      exact .inr (.inr (.inl rfl))
    · obtain ⟨⟨fields, after⟩, fieldsRead, same⟩ := map_eq_ok.mp read
      cases same
      exact .inr (.inr (.inr (.inr ⟨_, fields, rfl, fieldsRead⟩)))
  · exact .inl read

theorem items_succ_eq_ok
    {items : List Value}
    (read : Json.items (fuel + 1) text = .ok (items, rest)) :
    ∃ item after, Json.value fuel text = .ok (item, after) ∧
      (items = [item] ∨
        ∃ inner others, items = item :: others ∧
        Json.items fuel inner = .ok (others, rest)) := by
  rw [Json.items] at read
  split at read
  · cases read
  · rename_i item after itemRead
    refine ⟨item, after, itemRead, ?_⟩
    split at read
    · obtain ⟨⟨others, after⟩, othersRead, same⟩ := map_eq_ok.mp read
      cases same
      exact .inr ⟨_, others, rfl, othersRead⟩
    · cases read
      exact .inl rfl
    · cases read

theorem fields_succ_eq_ok
    {before fields : Fields}
    (read : Json.fields (fuel + 1) before text = .ok (fields, rest)) :
    ∃ name inner content after, Json.value fuel inner = .ok (content, after) ∧
      (fields = Fields.set name content before ∨
        ∃ others, Json.fields fuel (Fields.set name content before) others =
          .ok (fields, rest)) := by
  unfold Json.fields at read
  split at read
  · rename_i sameFuel
    cases sameFuel
    split at read
    · cases read
    · rename_i name _ _
      split at read
      · split at read
        · cases read
        · rename_i content after contentRead
          refine ⟨name, _, content, after, contentRead, ?_⟩
          dsimp only at read
          split at read
          · exact .inr ⟨_, read⟩
          · cases read
            exact .inl rfl
          · cases read
      · cases read
  · cases read

/-- What is read is regular; fields are so together with those read before. -/
theorem regular_of_read
    (fuel : Nat) :
    (∀ text value rest, Json.value fuel text = .ok (value, rest) →
      value.Regular) ∧
    (∀ text items rest, Json.items fuel text = .ok (items, rest) →
      ∀ item ∈ items, item.Regular) ∧
    (∀ before text fields rest, (Value.object before).Regular →
      Json.fields fuel before text = .ok (fields, rest) →
      (Value.object fields).Regular) := by
  have noItems : (Value.list []).Regular := .list (by simp)
  have noFields : (Value.object []).Regular := .object (by simp) (by simp)
  induction fuel with
  | zero =>
      refine ⟨?_, ?_, ?_⟩
      · intro text value rest read
        cases read
      · intro text items rest read
        cases read
      · intro before text fields rest regular read
        cases read
  | succ fuel inductionHypothesis =>
      obtain ⟨values, itemLists, fieldLists⟩ := inductionHypothesis
      refine ⟨?_, ?_, ?_⟩
      · intro text value rest read
        rcases value_succ_eq_ok read with
          isScalar | rfl | rfl | ⟨inner, items, rfl, itemsRead⟩ |
          ⟨inner, fields, rfl, fieldsRead⟩
        · exact regular_of_scalar isScalar
        · exact noItems
        · exact noFields
        · exact .list (itemLists inner items rest itemsRead)
        · exact fieldLists [] inner fields rest noFields fieldsRead
      · intro text items rest read
        obtain ⟨item, after, itemRead,
          rfl | ⟨inner, others, rfl, othersRead⟩⟩ :=
          items_succ_eq_ok read
        · exact List.forall_mem_singleton.mpr (values text item after itemRead)
        · exact List.forall_mem_cons.mpr
            ⟨values text item after itemRead,
              itemLists inner others rest othersRead⟩
      · intro before text fields rest regular read
        obtain ⟨name, inner, content, after, contentRead, outcome⟩ :=
          fields_succ_eq_ok read
        have contentRegular := values inner content after contentRead
        have extended :
            (Value.object (Fields.set name content before)).Regular := by
          cases regular with
          | object nodup beforeRegular =>
              refine .object (Fields.nodup_set nodup) fun field member => ?_
              rcases Fields.mem_set member with rfl | old
              · exact contentRegular
              · exact beforeRegular field old
        rcases outcome with rfl | ⟨others, othersRead⟩
        · exact extended
        · exact fieldLists _ others fields rest extended othersRead

theorem regular_of_parse
    {document : String}
    (read : parse document = .ok value) :
    value.Regular := by
  simp only [parse] at read
  split at read
  · cases read
  · rename_i result rest valueRead
    split at read
    · cases read
      exact (regular_of_read _).1 _ _ _ valueRead
    · cases read

end Reading

end Json

end Flowgen
