import Flowgen.Method.Slots
import Flowgen.Proofs.CalmTexts
import Flowgen.Proofs.Computations

namespace Flowgen

/-!
# Values whose strings have no tags

What is taken out of such a value has no tags in its strings either, and such a
value is written without tags.
-/

namespace Value

mutual

/-- The strings in a value at any depth, with the names of fields. -/
def strings : Value → List String
  | .text content => [content]
  | .list items => itemStrings items
  | .object fields => fieldStrings fields
  | .real _ => []
  | .int _ => []
  | .bool _ => []
  | .null => []

/-- The strings in some items. -/
def itemStrings : List Value → List String
  | [] => []
  | item :: items => strings item ++ itemStrings items

/-- The names of some fields, and the strings in their values. -/
def fieldStrings : List (String × Value) → List String
  | [] => []
  | (name, value) :: fields => name :: strings value ++ fieldStrings fields

end

/-- No string in a value has a tag. -/
def Clean (value : Value) : Prop :=
  ∀ text ∈ value.strings, Template.TagFree text.toList

instance (value : Value) : Decidable value.Clean :=
  inferInstanceAs (Decidable
    (∀ text ∈ value.strings, Template.TagFree text.toList))

theorem clean_text
    {content : String} :
    (Value.text content).Clean ↔ Template.TagFree content.toList := by
  simp [Clean, strings]

theorem mem_strings_list
    {items : List Value}
    {text : String} :
    text ∈ (Value.list items).strings ↔
    ∃ item ∈ items, text ∈ item.strings := by
  rw [strings]
  induction items with
  | nil =>
      simp [itemStrings]
  | cons item items inductionHypothesis =>
      rw [itemStrings, List.mem_append, inductionHypothesis,
        List.exists_mem_cons_iff]

theorem mem_strings_object
    {fields : Fields}
    {text : String} :
    text ∈ (Value.object fields).strings ↔
      ∃ field ∈ fields, text = field.1 ∨ text ∈ field.2.strings := by
  rw [strings]
  induction fields with
  | nil =>
      simp [fieldStrings]
  | cons field fields inductionHypothesis =>
      rw [fieldStrings, List.cons_append, List.mem_cons, List.mem_append,
        inductionHypothesis, List.exists_mem_cons_iff, or_assoc]

theorem clean_list
    {items : List Value} :
    (Value.list items).Clean ↔ ∀ item ∈ items, item.Clean := by
  simp only [Clean, mem_strings_list]
  constructor
  · exact fun clean item isItem text inItem => clean text ⟨item, isItem, inItem⟩
  · rintro clean text ⟨item, isItem, inItem⟩
    exact clean item isItem text inItem

theorem clean_object
    {fields : Fields} :
    (Value.object fields).Clean ↔
      ∀ field ∈ fields, Template.TagFree field.1.toList ∧ field.2.Clean := by
  simp only [Clean, mem_strings_object]
  constructor
  · exact fun clean field isField => ⟨clean field.1 ⟨field, isField, .inl rfl⟩,
      fun text inField => clean text ⟨field, isField, .inr inField⟩⟩
  · rintro clean text ⟨field, isField, rfl | inField⟩
    · exact (clean field isField).1
    · exact (clean field isField).2 text inField

theorem clean_of_strings_eq_nil
    {value : Value}
    (none : value.strings = []) :
    value.Clean := by
  simp [Clean, none]

open Template

section Written

mutual

theorem calm_literal :
    ∀ value : Value, value.Clean → Calm value.literal.toList
  | .null, _ => .of_not_mem (by decide)
  | .bool true, _ => .of_not_mem (by decide)
  | .bool false, _ => .of_not_mem (by decide)
  | .int number, _ => .of_not_mem (brace_not_mem_integer number)
  | .real number, _ => .of_not_mem
      (brace_not_mem_real (by decide) (by decide) number)
  | .text content, clean => (calm_quote (clean_text.mp clean)).1
  | .list items, clean => by
      rw [literal, String.toList_append, String.toList_append,
        String.toList_intercalate]
      refine Calm.enclosed (.intercalate (by decide) (by decide) ?_)
        (fun isBrace => ?_) (by decide)
      · exact calm_literals items (clean_list.mp clean)
      · exact absurd isBrace (by decide)
  | .object fields, clean => by
      have calmFields := calm_fieldLiterals fields (clean_object.mp clean)
      rw [literal, String.toList_append, String.toList_append,
        String.toList_intercalate]
      refine Calm.enclosed (.intercalate (by decide) (by decide) ?_)
        (fun _ => ?_) (by decide)
      · exact fun text member => (calmFields text member).1
      · exact head?_intercalate_ne (by decide) fun text member =>
          (calmFields text member).2

theorem calm_literals :
    ∀ items : List Value, (∀ item ∈ items, item.Clean) →
      ∀ text ∈ (literals items).map String.toList, Calm text
  | [], _ => by
      simp [literals]
  | item :: items, clean => by
      obtain ⟨itemClean, restClean⟩ := List.forall_mem_cons.mp clean
      rw [literals, List.map_cons]
      exact List.forall_mem_cons.mpr
        ⟨calm_literal item itemClean, calm_literals items restClean⟩

theorem calm_fieldLiterals :
    ∀ fields : Fields, (∀ field ∈ fields, TagFree field.1.toList ∧
      field.2.Clean) → ∀ text ∈ (fieldLiterals fields).map String.toList,
        Calm text ∧ text.head? ≠ some '\x7b'
  | [], _ => by
      simp [fieldLiterals]
  | (name, value) :: fields, clean => by
      obtain ⟨⟨nameFree, valueClean⟩, restClean⟩ :=
        List.forall_mem_cons.mp clean
      obtain ⟨nameCalm, nameStart⟩ := calm_quote nameFree
      rw [fieldLiterals, List.map_cons]
      refine List.forall_mem_cons.mpr ⟨?_, calm_fieldLiterals fields restClean⟩
      rw [String.toList_append, String.toList_append]
      refine ⟨?_, ?_⟩
      · have named : Calm ((Text.quote name).toList ++ ": ".toList) :=
          nameCalm.append (.of_not_mem (by decide)) fun _ => by decide
        refine named.append (calm_literal value valueClean) fun isLast => ?_
        rw [List.getLast?_append_of_ne_nil _ (by decide)] at isLast
        exact absurd isLast (by decide)
      · rw [List.append_assoc]
        exact head?_append_ne nameStart (by simp)

end

theorem Clean.display
    {value : Value}
    (clean : value.Clean) :
    TagFree value.display.toList := by
  cases value with
  | text content =>
      exact clean_text.mp clean
  | _ =>
      exact (calm_literal _ clean).free

theorem brace_not_mem_lineBreak
    (width depth : Nat) :
    '\x7b' ∉ Json.lineBreak (some width) depth := by
  simp [Json.lineBreak]

theorem calm_bracketed
    {width depth : Nat}
    {opening closing : Char}
    {parts : List (List Char)}
    (notOpening : closing ≠ '\x7b')
    (partsCalm : ∀ part ∈ parts, Calm part) :
    Calm (Json.bracketed (some width) depth opening closing parts) := by
  rw [Json.bracketed]
  split
  · have nothing : Calm [] := .of_not_mem List.not_mem_nil
    exact nothing.enclosed (by simp) notOpening
  · have separated : Calm
        (List.intercalate (',' :: Json.lineBreak (some width) (depth + 1))
          parts) :=
      .intercalate (by simp [brace_not_mem_lineBreak]) (by simp) partsCalm
    have started : Calm (Json.lineBreak (some width) (depth + 1) ++
        List.intercalate (',' :: Json.lineBreak (some width) (depth + 1))
          parts) :=
      Calm.append (.of_not_mem (brace_not_mem_lineBreak _ _)) separated
        fun isLast =>
          absurd (List.mem_of_getLast? isLast) (brace_not_mem_lineBreak _ _)
    have ended :=
      started.append (.of_not_mem (brace_not_mem_lineBreak width depth))
      fun _ isHead => brace_not_mem_lineBreak _ _ (List.mem_of_head? isHead)
    exact ended.enclosed (by simp [Json.lineBreak]) notOpening

mutual

theorem calm_written
    (width : Nat) :
    ∀ (depth : Nat) (value : Value), value.Clean →
    Calm (Json.written (some width) depth value)
  | _, .null, _ => .of_not_mem (by simp [Json.written])
  | _, .bool true, _ => .of_not_mem (by simp [Json.written])
  | _, .bool false, _ => .of_not_mem (by simp [Json.written])
  | _, .int number, _ => .of_not_mem (brace_not_mem_integer number)
  | _, .real number, _ => .of_not_mem
      (brace_not_mem_real (by decide) (by decide) number)
  | _, .text content, clean => (calm_quoted (clean_text.mp clean)).1
  | depth, .list items, clean =>
      calm_bracketed (by decide)
        (calm_writtenItems width (depth + 1) items (clean_list.mp clean))
  | depth, .object fields, clean =>
      calm_bracketed (by decide)
        (calm_writtenFields width (depth + 1) fields (clean_object.mp clean))

theorem calm_writtenItems
    (width : Nat) :
    ∀ (depth : Nat) (items : List Value), (∀ item ∈ items, item.Clean) →
      ∀ text ∈ Json.writtenItems (some width) depth items, Calm text
  | _, [], _ => by
      simp [Json.writtenItems]
  | depth, item :: items, clean => by
      obtain ⟨itemClean, restClean⟩ := List.forall_mem_cons.mp clean
      exact List.forall_mem_cons.mpr
        ⟨calm_written width depth item itemClean,
          calm_writtenItems width depth items restClean⟩

theorem calm_writtenFields
    (width : Nat) :
    ∀ (depth : Nat) (fields : Fields),
      (∀ field ∈ fields, TagFree field.1.toList ∧ field.2.Clean) →
      ∀ text ∈ Json.writtenFields (some width) depth fields, Calm text
  | _, [], _ => by
      simp [Json.writtenFields]
  | depth, (name, value) :: fields, clean => by
      obtain ⟨⟨nameFree, valueClean⟩, restClean⟩ :=
        List.forall_mem_cons.mp clean
      refine List.forall_mem_cons.mpr
        ⟨?_, calm_writtenFields width depth fields restClean⟩
      have colon : Calm ([':', ' '] ++ Json.written (some width) depth value) :=
        Calm.append (.of_not_mem (by decide))
          (calm_written width depth value valueClean) (by simp)
      exact (calm_quoted nameFree).1.append colon (by simp)

end

end Written

section Access

variable {value fallback result : Value} {name : String}

theorem strings_subset_of_field
    (found : value.field? name = some result) :
    result.strings ⊆ value.strings := by
  intro text inField
  cases value with
  | object fields =>
      rw [mem_strings_object]
      rw [Value.field?] at found
      induction fields with
      | nil =>
          cases found
      | cons field fields inductionHypothesis =>
          rw [List.exists_mem_cons_iff]
          rw [Fields.get?] at found
          split at found
          · cases found
            exact .inl (.inr inField)
          · exact .inr (inductionHypothesis found)
  | _ =>
      cases found

theorem strings_subset_of_get
    (got : value.get name fallback = .ok result) :
    result.strings ⊆ fallback.strings ++ value.strings := by
  obtain ⟨_, rfl⟩ := get_eq_ok.mp got
  cases found : value.field? name with
  | none =>
      exact List.subset_append_left _ _
  | some field =>
      exact List.subset_append_of_subset_right _ (strings_subset_of_field found)

theorem Clean.field
    (clean : value.Clean)
    (found : value.field? name = some result) :
    result.Clean :=
  fun text inField => clean text (strings_subset_of_field found inField)

theorem Clean.fieldOr
    (clean : value.Clean)
    (fallbackClean : fallback.Clean) :
    ((value.field? name).getD fallback).Clean := by
  cases found : value.field? name with
  | none =>
      exact fallbackClean
  | some result =>
      exact clean.field found

theorem Clean.get
    (clean : value.Clean)
    (got : value.get name fallback = .ok result)
    (fallbackClean : fallback.Clean) :
    result.Clean := by
  intro text inResult
  rcases List.mem_append.mp (strings_subset_of_get got inResult) with
    inFallback | inValue
  · exact fallbackClean text inFallback
  · exact clean text inValue

theorem Clean.orElse
    (clean : value.Clean)
    (otherClean : result.Clean) :
    (value.orElse result).Clean := by
  unfold Value.orElse
  split
  · exact clean
  · exact otherClean

theorem Clean.unwrapped
    (clean : value.Clean) :
    value.unwrapped.Clean :=
  clean.fieldOr clean

theorem Clean.elements
    {elements : List Value}
    (clean : value.Clean)
    (got : value.elements = .ok elements) :
    ∀ element ∈ elements, element.Clean := by
  cases value with
  | list items =>
      cases got
      exact clean_list.mp clean
  | text content =>
      cases got
      refine List.forall_mem_map.mpr fun character _ => clean_text.mpr ?_
      rw [String.toList_ofList]
      exact (Calm.singleton character).free
  | object fields =>
      cases got
      exact List.forall_mem_map.mpr fun field member =>
        clean_text.mpr (clean_object.mp clean field member).1
  | _ =>
      cases got

end Access

end Value

end Flowgen
