import Flowgen.Proofs.References

namespace Flowgen

/-!
# Texts in nested parameters

Parameters are searched for references in two ways.  Both go from an object to
the values of its fields and to the objects among the items of a list, and
both remember what they find in texts: one every name, the other the first
name in each text, written below the keys of the objects on the way.
-/

namespace Value

mutual

/-- The texts in a value at any depth. -/
def texts : Value → List String
  | .text content => [content]
  | .list items => itemTexts items
  | .object fields => fieldTexts fields
  | .real _ => []
  | .int _ => []
  | .bool _ => []
  | .null => []

/-- The texts in some items. -/
def itemTexts : List Value → List String
  | [] => []
  | item :: items => texts item ++ itemTexts items

/-- The texts in the values of some fields. -/
def fieldTexts : List (String × Value) → List String
  | [] => []
  | (_, value) :: fields => texts value ++ fieldTexts fields

end

variable {content : String}

theorem mem_itemTexts
    {items : List Value} :
    content ∈ itemTexts items ↔ ∃ item ∈ items, content ∈ item.texts := by
  induction items with
  | nil =>
      simp [itemTexts]
  | cons item items inductionHypothesis =>
      simp [itemTexts, inductionHypothesis]

theorem mem_fieldTexts
    {fields : Fields} :
    content ∈ fieldTexts fields ↔
    ∃ field ∈ fields, content ∈ field.2.texts := by
  induction fields with
  | nil =>
      simp [fieldTexts]
  | cons field fields inductionHypothesis =>
      simp [fieldTexts, inductionHypothesis]

end Value

namespace Parameters

/--
Fields that hold a text below some keys.  A step goes to an object in a field,
or to an object among the items of a list in a field, and only the first adds
a key.
-/
inductive HoldsAt : Fields → List String → String → Prop where
  | here
      {fields : Fields}
      {name content : String}
      (isField : (name, .text content) ∈ fields) :
      HoldsAt fields [] content
  | inField
      {fields inner : Fields}
      {name content : String}
      {keys : List String}
      (isField : (name, .object inner) ∈ fields)
      (holds : HoldsAt inner keys content) :
      HoldsAt fields (name :: keys) content
  | inItem
      {fields inner : Fields}
      {items : List Value}
      {name content : String}
      {keys : List String}
      (isField : (name, .list items) ∈ fields)
      (isItem : .object inner ∈ items)
      (holds : HoldsAt inner keys content) :
      HoldsAt fields keys content

namespace HoldsAt

variable {fields inner : Fields} {items : List Value} {name content : String}
  {keys : List String}

theorem mem_texts
    (holds : HoldsAt fields keys content) :
    content ∈ (Value.object fields).texts := by
  induction holds with
  | here isField =>
      exact Value.mem_fieldTexts.mpr ⟨_, isField, by simp [Value.texts]⟩
  | inField isField _ inductionHypothesis =>
      exact Value.mem_fieldTexts.mpr ⟨_, isField, inductionHypothesis⟩
  | inItem isField isItem _ inductionHypothesis =>
      refine Value.mem_fieldTexts.mpr ⟨_, isField, ?_⟩
      exact Value.mem_itemTexts.mpr ⟨_, isItem, inductionHypothesis⟩

theorem iff_exists_singleton :
    HoldsAt fields keys content ↔
    ∃ field ∈ fields, HoldsAt [field] keys content := by
  constructor
  · intro holds
    cases holds with
    | here isField =>
        exact ⟨_, isField, .here (List.mem_singleton.mpr rfl)⟩
    | inField isField holds =>
        exact ⟨_, isField, .inField (List.mem_singleton.mpr rfl) holds⟩
    | inItem isField isItem holds =>
        exact ⟨_, isField, .inItem (List.mem_singleton.mpr rfl) isItem holds⟩
  · rintro ⟨field, isField, holds⟩
    cases holds with
    | here isOnly =>
        exact .here (List.mem_singleton.mp isOnly ▸ isField)
    | inField isOnly holds =>
        exact .inField (List.mem_singleton.mp isOnly ▸ isField) holds
    | inItem isOnly isItem holds =>
        exact .inItem (List.mem_singleton.mp isOnly ▸ isField) isItem holds

end HoldsAt

/-- Fields that hold a text with a property of it and of the keys above it. -/
def HoldsSome
    (fields : Fields)
    (property : List String → String → Prop) :
    Prop :=
  ∃ keys content, HoldsAt fields keys content ∧ property keys content

namespace HoldsSome

variable {fields inner : Fields} {items : List Value} {name : String}
  {property : List String → String → Prop}

theorem nil_iff :
    HoldsSome [] property ↔ False := by
  refine iff_false_intro ?_
  rintro ⟨_, _, holds, _⟩
  obtain ⟨_, isField, _⟩ := HoldsAt.iff_exists_singleton.mp holds
  cases isField

theorem cons_iff
    {field : String × Value} :
    HoldsSome (field :: fields) property ↔
      HoldsSome [field] property ∨ HoldsSome fields property := by
  simp only [HoldsSome, ← exists_or, ← or_and_right]
  refine exists_congr fun keys => exists_congr fun content =>
    and_congr_left fun _ => ?_
  rw [HoldsAt.iff_exists_singleton, @HoldsAt.iff_exists_singleton fields,
    List.exists_mem_cons_iff]

theorem text_iff
    {content : String} :
    HoldsSome [(name, .text content)] property ↔ property [] content := by
  constructor
  · rintro ⟨_, _, ⟨isField⟩ | ⟨isField, _⟩ | ⟨isField, _, _⟩, holds⟩
    all_goals simp_all
  · exact fun holds => ⟨[], content, .here (List.mem_singleton.mpr rfl), holds⟩

theorem object_iff :
    HoldsSome [(name, .object inner)] property ↔
      HoldsSome inner fun keys => property (name :: keys) := by
  constructor
  · rintro ⟨_, content, ⟨isField⟩ | ⟨isField, inside⟩ | ⟨isField, _, _⟩, holds⟩
    · simp at isField
    · simp only [List.mem_singleton, Prod.mk.injEq, Value.object.injEq]
        at isField
      obtain ⟨rfl, rfl⟩ := isField
      exact ⟨_, content, inside, holds⟩
    · simp at isField
  · rintro ⟨keys, content, inside, holds⟩
    exact ⟨_, content, .inField (List.mem_singleton.mpr rfl) inside, holds⟩

theorem list_iff :
    HoldsSome [(name, .list items)] property ↔
      ∃ inner, .object inner ∈ items ∧ HoldsSome inner property := by
  constructor
  · rintro ⟨keys, content, ⟨isField⟩ | ⟨isField, _⟩ | ⟨isField, isItem, inside⟩,
      holds⟩
    · simp at isField
    · simp at isField
    · simp only [List.mem_singleton, Prod.mk.injEq, Value.list.injEq] at isField
      exact ⟨_, isField.2 ▸ isItem, keys, content, inside, holds⟩
  · rintro ⟨inner, isItem, keys, content, inside, holds⟩
    exact ⟨keys, content, .inItem (List.mem_singleton.mpr rfl) isItem inside,
      holds⟩

/-- Only texts, objects and lists hold anything. -/
theorem iff_false_of_kind
    {value : Value}
    (isScalar : value.kind ∉ [.text, .object, .list]) :
    HoldsSome [(name, value)] property ↔ False := by
  refine iff_false_intro ?_
  rintro ⟨_, _, ⟨isField⟩ | ⟨isField, _⟩ | ⟨isField, _, _⟩, _⟩
  all_goals
    simp only [List.mem_singleton, Prod.mk.injEq] at isField
    simp [← isField.2, Value.kind] at isScalar

end HoldsSome

/--
A name below keys, with an underscore after each; empty keys in front do not
count.
-/
def nestedName (keys : List String) (name : String) : String :=
  Text.join "_" (keys.dropWhile (fun key => key == "") ++ [name])

theorem qualified_foldl_of_ne
    {scope : String}
    (notEmpty : scope ≠ "")
    (keys : List String)
    (name : String) :
    qualified (keys.foldl qualified scope) name =
      Text.join "_" (scope :: keys ++ [name]) := by
  induction keys generalizing scope with
  | nil =>
      apply String.toList_injective
      rw [List.foldl_nil, qualified, if_neg notEmpty, Text.join_toList]
      simp [List.intercalate_cons_cons]
  | cons key keys inductionHypothesis =>
      have extended : qualified scope key = scope ++ "_" ++ key :=
        if_neg notEmpty
      have extendedNotEmpty : scope ++ "_" ++ key ≠ "" := by
        intro isEmpty
        simp [String.append_eq_empty_iff, notEmpty] at isEmpty
      obtain ⟨next, rest, more⟩ := List.exists_cons_of_ne_nil
        (List.append_ne_nil_of_right_ne_nil keys (List.cons_ne_nil name []))
      rw [List.foldl_cons, extended, inductionHypothesis extendedNotEmpty]
      apply String.toList_injective
      simp only [Text.join_toList, List.cons_append, more, List.map_cons,
        List.intercalate_cons_cons, String.toList_append, List.append_assoc]

theorem qualified_foldl
    (keys : List String)
    (name : String) :
    qualified (keys.foldl qualified "") name = nestedName keys name := by
  induction keys with
  | nil =>
      apply String.toList_injective
      simp [qualified, nestedName, Text.join_toList]
  | cons key keys inductionHypothesis =>
      have started : qualified "" key = key := if_pos rfl
      rw [List.foldl_cons, started, nestedName]
      by_cases isEmpty : key = ""
      · rw [List.dropWhile_cons_of_pos (by simp [isEmpty]), isEmpty,
          inductionHypothesis, nestedName]
      · rw [List.dropWhile_cons_of_neg (by simp [isEmpty]),
          qualified_foldl_of_ne isEmpty]

variable {name : String}

mutual

theorem mem_usedInFields :
    ∀ fields : Fields, name ∈ usedInFields fields ↔
      HoldsSome fields fun _ content => Refers content name
  | [] => by
      simp [usedInFields, HoldsSome.nil_iff]
  | (key, value) :: fields => by
      rw [usedInFields, List.mem_append, HoldsSome.cons_iff,
        mem_usedInValue key value, mem_usedInFields fields]

theorem mem_usedInValue
    (key : String) :
    ∀ value : Value, name ∈ usedInValue value ↔
      HoldsSome [(key, value)] fun _ content => Refers content name
  | .text content => by
      rw [usedInValue, HoldsSome.text_iff, mem_references]
  | .object fields => by
      rw [usedInValue, HoldsSome.object_iff, mem_usedInFields fields]
  | .list items => by
      rw [usedInValue, HoldsSome.list_iff, mem_usedInItems items]
  | .real _ => by
      simp [usedInValue, HoldsSome.iff_false_of_kind, Value.kind]
  | .int _ => by
      simp [usedInValue, HoldsSome.iff_false_of_kind, Value.kind]
  | .bool _ => by
      simp [usedInValue, HoldsSome.iff_false_of_kind, Value.kind]
  | .null => by
      simp [usedInValue, HoldsSome.iff_false_of_kind, Value.kind]

theorem mem_usedInItems :
    ∀ items : List Value, name ∈ usedInItems items ↔
      ∃ inner, .object inner ∈ items ∧
      HoldsSome inner fun _ content => Refers content name
  | [] => by
      simp [usedInItems]
  | .object fields :: items => by
      simp [usedInItems, mem_usedInFields fields, mem_usedInItems items,
        or_and_right, exists_or]
  | .text _ :: items => by
      simp [usedInItems, mem_usedInItems items]
  | .list _ :: items => by
      simp [usedInItems, mem_usedInItems items]
  | .real _ :: items => by
      simp [usedInItems, mem_usedInItems items]
  | .int _ :: items => by
      simp [usedInItems, mem_usedInItems items]
  | .bool _ :: items => by
      simp [usedInItems, mem_usedInItems items]
  | .null :: items => by
      simp [usedInItems, mem_usedInItems items]

end

mutual

/--
Fields declare the first name of each text they hold, below the keys above it.
-/
theorem mem_declaredInFields :
    ∀ (scope : String) (fields : Fields), name ∈ declaredInFields scope fields ↔
      HoldsSome fields fun keys content =>
        ∃ first, RefersFirst content first ∧
          name = qualified (keys.foldl qualified scope) first
  | scope, [] => by
      simp [declaredInFields, HoldsSome.nil_iff]
  | scope, (key, value) :: fields => by
      rw [declaredInFields, List.mem_append, HoldsSome.cons_iff,
        mem_declaredInField scope key value, mem_declaredInFields scope fields]

theorem mem_declaredInField :
    ∀ (scope key : String) (value : Value),
    name ∈ declaredInField scope key value ↔
      HoldsSome [(key, value)] fun keys content =>
        ∃ first, RefersFirst content first ∧
          name = qualified (keys.foldl qualified scope) first
  | scope, _, .text content => by
      rw [declaredInField, HoldsSome.text_iff]
      simp [← head?_references, eq_comm]
  | scope, key, .object fields => by
      rw [declaredInField, HoldsSome.object_iff,
        mem_declaredInFields (qualified scope key) fields]
      rfl
  | scope, _, .list items => by
      rw [declaredInField, HoldsSome.list_iff, mem_declaredInItems scope items]
  | _, _, .real _ => by
      simp [declaredInField, HoldsSome.iff_false_of_kind, Value.kind]
  | _, _, .int _ => by
      simp [declaredInField, HoldsSome.iff_false_of_kind, Value.kind]
  | _, _, .bool _ => by
      simp [declaredInField, HoldsSome.iff_false_of_kind, Value.kind]
  | _, _, .null => by
      simp [declaredInField, HoldsSome.iff_false_of_kind, Value.kind]

theorem mem_declaredInItems :
    ∀ (scope : String) (items : List Value),
    name ∈ declaredInItems scope items ↔
      ∃ inner, .object inner ∈ items ∧ HoldsSome inner fun keys content =>
        ∃ first, RefersFirst content first ∧
          name = qualified (keys.foldl qualified scope) first
  | _, [] => by
      simp [declaredInItems]
  | scope, .object fields :: items => by
      simp [declaredInItems, mem_declaredInFields scope fields,
        mem_declaredInItems scope items, or_and_right, exists_or]
  | scope, .text _ :: items => by
      simp [declaredInItems, mem_declaredInItems scope items]
  | scope, .list _ :: items => by
      simp [declaredInItems, mem_declaredInItems scope items]
  | scope, .real _ :: items => by
      simp [declaredInItems, mem_declaredInItems scope items]
  | scope, .int _ :: items => by
      simp [declaredInItems, mem_declaredInItems scope items]
  | scope, .bool _ :: items => by
      simp [declaredInItems, mem_declaredInItems scope items]
  | scope, .null :: items => by
      simp [declaredInItems, mem_declaredInItems scope items]

end

/--
Parameters declare the first name of each text they hold, below the keys above
it.
-/
theorem mem_declaredInFields_empty
    (fields : Fields) :
    name ∈ declaredInFields "" fields ↔
      HoldsSome fields fun keys content =>
        ∃ first, RefersFirst content first ∧ name = nestedName keys first := by
  rw [mem_declaredInFields]
  simp only [qualified_foldl]

end Parameters

end Flowgen
