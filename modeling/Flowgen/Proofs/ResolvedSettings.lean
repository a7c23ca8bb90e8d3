import Flowgen.Proofs.Searching
import Flowgen.Settings

namespace Flowgen

/-!
# What is left of settings when they are resolved

Resolving changes the texts that are references and nothing else, wherever
objects lead to them.  If no variable holds a reference, none is left, so that
resolving again changes nothing.
-/

namespace Value

/--
The value where a path leads, which goes from an object to the field at a
position.
-/
def within : List Nat → Value → Option Value
  | [], value => some value
  | place :: path, .object fields => fields[place]?.bind fun field =>
      within path field.2
  | _ :: _, _ => none

/-- The names of the fields of an object, in order. -/
def names? : Value → Option (List String)
  | .object fields => some (fields.map Prod.fst)
  | _ => none

end Value

namespace Settings

variable {environment : List (String × String)} {text name : String}

/-- A text that starts and ends as a reference does. -/
def IsReference (text : String) : Prop :=
  Text.startsWith text "$\x7b" = true ∧ Text.endsWith text "\x7d" = true

theorem reference?_eq_some :
    reference? text = some name ↔ text = "$\x7b" ++ name ++ "\x7d" := by
  constructor
  · intro found
    unfold reference? at found
    split at found
    · rename_i rest follows
      split at found
      · rename_i closes
        cases found
        apply String.toList_injective
        rw [Text.after?_eq_some.mp follows,
          ← List.dropLast_append_getLast? _ closes]
        simp
      · cases found
    · cases found
  · rintro rfl
    have follows :
        Text.after? "$\x7b".toList ("$\x7b" ++ name ++ "\x7d").toList =
        some (name.toList ++ ['\x7d']) :=
      Text.after?_eq_some.mpr (by simp)
    rw [reference?, follows]
    simp

/-- The two ends of a reference do not overlap. -/
theorem isReference_iff :
    IsReference text ↔ ∃ name, reference? text = some name := by
  simp only [IsReference, Text.startsWith_iff, Text.endsWith,
    List.isSuffixOf_iff_suffix, reference?_eq_some]
  constructor
  · rintro ⟨⟨rest, opened⟩, ⟨before, closed⟩⟩
    have lastIs := congrArg List.getLast? (opened.trans closed.symm)
    rw [List.getLast?_append, List.getLast?_append] at lastIs
    rcases List.eq_nil_or_concat rest with rfl | ⟨name, last, rfl⟩
    · simp at lastIs
    · have closes : last = '\x7d' := by simpa using lastIs
      subst closes
      exact ⟨String.ofList name, String.toList_injective (by simp [← opened])⟩
  · rintro ⟨name, rfl⟩
    exact ⟨⟨name.toList ++ ['\x7d'], by simp⟩,
      ⟨"$\x7b".toList ++ name.toList, by simp⟩⟩

/-- A text that is no reference stands for itself. -/
theorem resolveText_of_not
    (noReference : ¬ IsReference text) :
    resolveText environment text = text := by
  cases found : reference? text with
  | none =>
      rw [resolveText, found]
  | some name =>
      exact absurd (isReference_iff.mpr ⟨name, found⟩) noReference

/-- Where no variable holds a reference, no text stands for one. -/
theorem not_isReference_resolveText
    (noReference : ∀ binding ∈ environment, ¬ IsReference binding.2)
    (text : String) :
    ¬ IsReference (resolveText environment text) := by
  by_cases isReference : IsReference text
  · obtain ⟨name, found⟩ := isReference_iff.mp isReference
    simp only [resolveText, found]
    cases isBound : environment.lookup name with
    | none =>
        exact fun ⟨starts, _⟩ => by cases starts
    | some content =>
        obtain ⟨before, behind, rfl, _⟩ := List.lookup_eq_some_iff.mp isBound
        exact noReference (name, content) (by simp)
  · rwa [resolveText_of_not isReference]

theorem resolveFields_eq_map
    (fields : Fields) :
    resolveFields environment fields =
      fields.map fun field => (field.1, resolveField environment field.2) := by
  induction fields with
  | nil =>
      rfl
  | cons field fields inductionHypothesis =>
      rw [resolveFields, inductionHypothesis, List.map_cons]

/-- Resolving puts what a value stands for where the value was. -/
theorem within_resolveField
    (path : List Nat)
    (value : Value) :
    (resolveField environment value).within path =
      (value.within path).map (resolveField environment) := by
  induction path generalizing value with
  | nil =>
      rfl
  | cons place path inductionHypothesis =>
      cases value with
      | object fields =>
          rw [resolveField, resolveFields_eq_map, Value.within, Value.within,
            List.getElem?_map]
          cases fields[place]? with
          | none =>
              rfl
          | some field =>
              exact inductionHypothesis field.2
      | _ =>
          rfl

mutual

theorem resolveFields_of_settled : ∀ fields : Fields,
    (∀ path text, (Value.object fields).within path = some (.text text) →
      ¬ IsReference text) →
    resolveFields environment fields = fields
  | [], _ => rfl
  | (name, value) :: fields, settled => by
      have first : resolveField environment value = value :=
        resolveField_of_settled value fun path => settled (0 :: path)
      have others : resolveFields environment fields = fields := by
        refine resolveFields_of_settled fields fun path text leads => ?_
        cases path with
        | nil =>
            cases leads
        | cons place path =>
            exact settled ((place + 1) :: path) text leads
      rw [resolveFields, first, others]

/-- A value in which paths lead to no reference has nothing to resolve. -/
theorem resolveField_of_settled : ∀ value : Value,
    (∀ path text, value.within path = some (.text text) → ¬ IsReference text) →
    resolveField environment value = value
  | .object fields, settled => by
      rw [resolveField, resolveFields_of_settled fields settled]
  | .text content, settled => by
      rw [resolveField, resolveText_of_not (settled [] content rfl)]
  | .list _, _ | .real _, _ | .int _, _ | .bool _, _ | .null, _ => rfl

end

/-- Settings and what they are resolved to, compared wherever a path leads. -/
structure Resolves
    (environment : List (String × String))
    (settings resolved : Value) : Prop where
  sameNames : ∀ path,
    (resolved.within path).map Value.names? =
      (settings.within path).map Value.names?
  sameOthers : ∀ path value, settings.within path = some value →
    value.kind ≠ .object → value.kind ≠ .text →
    resolved.within path = some value
  sameTexts : ∀ path text, settings.within path = some (.text text) →
    ¬ IsReference text → resolved.within path = some (.text text)
  lookedUp : ∀ path name, settings.within path =
    some (.text ("$\x7b" ++ name ++ "\x7d")) →
    resolved.within path = some (.text ((environment.lookup name).getD ""))
  noneLeft :
    ∀ path text, resolved.within path = some (.text text) → ¬ IsReference text

/-- What is resolved in an environment without references has none. -/
theorem resolves_resolveField
    (noReference : ∀ binding ∈ environment, ¬ IsReference binding.2)
    (settings : Value) :
    Resolves environment settings (resolveField environment settings) := by
  refine ⟨fun path => ?_, fun path value leads notObject notText => ?_,
    fun path text leads isPlain => ?_, fun path name leads => ?_,
    fun path text leads => ?_⟩
  · rw [within_resolveField, Option.map_map]
    congr 1
    funext value
    cases value with
    | object fields =>
        simp [resolveField, resolveFields_eq_map, Value.names?]
    | _ =>
        rfl
  · rw [within_resolveField, leads]
    cases value with
    | object fields =>
        exact absurd rfl notObject
    | text content =>
        exact absurd rfl notText
    | _ =>
        rfl
  · rw [within_resolveField, leads, Option.map_some, resolveField,
      resolveText_of_not isPlain]
  · rw [within_resolveField, leads, Option.map_some, resolveField, resolveText,
      reference?_eq_some.mpr rfl]
  · rw [within_resolveField, Option.map_eq_some_iff] at leads
    obtain ⟨value, _, standsFor⟩ := leads
    cases value <;> cases standsFor
    exact not_isReference_resolveText noReference _

/--
Where no variable holds a reference, resolving settings keeps the names and
their order in all objects and every value that is neither object nor text,
and no reference is left: what is resolved again stays as it is.
-/
theorem resolve_object_settled
    (noReference : ∀ binding ∈ environment, ¬ IsReference binding.2)
    (fields : Fields) :
    ∃ resolved, resolve environment (.object fields) = .ok resolved ∧
      Resolves environment (.object fields) resolved ∧
      resolve environment resolved = .ok resolved := by
  have resolves := resolves_resolveField noReference (.object fields)
  exact ⟨_, rfl, resolves, congrArg Except.ok
    (resolveField_of_settled _ resolves.noneLeft)⟩

/-- Variables that hold the start or the end of a reference. -/
def halfReferences : List (String × String) :=
  [("A", "$\x7bA"), ("A\x7d", "A\x7d")]

/--
Settings with texts in an object and beside it, and a reference for a name and
in a list.
-/
def nestedSettings (first second third : String) : Fields :=
  [("$\x7bA\x7d", .object [("b", .text first), ("a", .text second)]),
   ("c", .list [.text "$\x7bA\x7d"]), ("d", .text third)]

theorem resolve_nestedSettings_settled :
    (∀ binding ∈ halfReferences, ¬ IsReference binding.2) ∧
      resolve halfReferences (.object
        (nestedSettings "$\x7bA\x7d" "$\x7bA\x7d\x7d" "$\x7b\x7d")) =
        .ok (.object (nestedSettings "$\x7bA" "A\x7d" "")) ∧
      resolve halfReferences (.object (nestedSettings "$\x7bA" "A\x7d" "")) =
        .ok (.object (nestedSettings "$\x7bA" "A\x7d" "")) := by
  have noReference : ∀ binding ∈ halfReferences, ¬ IsReference binding.2 := by
    unfold IsReference
    decide
  have computed :
      resolve halfReferences (.object
        (nestedSettings "$\x7bA\x7d" "$\x7bA\x7d\x7d" "$\x7b\x7d")) =
        .ok (.object (nestedSettings "$\x7bA" "A\x7d" "")) := by
    rfl
  obtain ⟨resolved, isResolved, _, again⟩ := resolve_object_settled noReference
    (nestedSettings "$\x7bA\x7d" "$\x7bA\x7d\x7d" "$\x7b\x7d")
  cases computed.symm.trans isResolved
  exact ⟨noReference, computed, again⟩

end Settings

end Flowgen
