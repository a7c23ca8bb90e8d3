import Flowgen.Proofs.ConstructorParameters
import Mathlib.Logic.Relation

namespace Flowgen.Parameters

/-!
# The names that a workflow uses

A workflow uses the names that texts refer to in the objects that can be
reached from the parameters of its nodes.  The scan of a text goes on behind
each reference that it has found, and still it stops at every place where a
reference starts, once and in order.
-/

/--
From an object to an object in one of its fields, or to one in a list in its
fields.
-/
inductive Enters (fields inner : Fields) : Prop where
  | inField
      {name : String}
      (isField : (name, .object inner) ∈ fields)
  | inItem
      {name : String}
      {items : List Value}
      (isField : (name, .list items) ∈ fields)
      (isItem : .object inner ∈ items)

/-- An object that is reached from another one in any number of steps. -/
def Reaches : Fields → Fields → Prop :=
  Relation.ReflTransGen Enters

/--
The texts that fields hold are those of the objects that are reached from
them.
-/
theorem exists_holdsAt_iff
    {fields : Fields}
    {content : String} :
    (∃ keys, HoldsAt fields keys content) ↔
      ∃ inner key, Reaches fields inner ∧ (key, .text content) ∈ inner := by
  constructor
  · rintro ⟨keys, holds⟩
    induction holds with
    | here isField =>
        exact ⟨_, _, .refl, isField⟩
    | inField isField _ inductionHypothesis =>
        obtain ⟨inner, key, reaches, isText⟩ := inductionHypothesis
        exact ⟨inner, key, reaches.head (.inField isField), isText⟩
    | inItem isField isItem _ inductionHypothesis =>
        obtain ⟨inner, key, reaches, isText⟩ := inductionHypothesis
        exact ⟨inner, key, reaches.head (.inItem isField isItem), isText⟩
  · rintro ⟨inner, key, reaches, isText⟩
    induction reaches using Relation.ReflTransGen.head_induction_on with
    | refl =>
        exact ⟨[], .here isText⟩
    | head enters _ inductionHypothesis =>
        obtain ⟨keys, holds⟩ := inductionHypothesis
        cases enters with
        | inField isField =>
            exact ⟨_, .inField isField holds⟩
        | inItem isField isItem =>
            exact ⟨keys, .inItem isField isItem holds⟩

/--
A node uses the names that are referred to in the objects below its
parameters.
-/
theorem usesName_iff
    {node : Value}
    {name : String} :
    UsesName node name ↔
      ∃ fields inner key content, HasParameters node fields ∧
      Reaches fields inner ∧
        (key, .text content) ∈ inner ∧ Refers content name := by
  constructor
  · rintro ⟨fields, has, keys, content, holds, refers⟩
    obtain ⟨inner, key, reaches, isText⟩ := exists_holdsAt_iff.mp ⟨keys, holds⟩
    exact ⟨fields, inner, key, content, has, reaches, isText, refers⟩
  · rintro ⟨fields, inner, key, content, has, reaches, isText, refers⟩
    obtain ⟨keys, holds⟩ := exists_holdsAt_iff.mpr ⟨inner, key, reaches, isText⟩
    exact ⟨fields, has, keys, content, holds, refers⟩

section Scan

variable {text rest : List Char}

/-- A text that starts with a reference. -/
def StartsReference (text : List Char) : Prop :=
  ∃ name, ReferenceAt name text

theorem startsReference_iff :
    StartsReference text ↔ (referenceAt? text).isSome = true := by
  rw [Option.isSome_iff_exists]
  constructor
  · rintro ⟨name, isReference⟩
    obtain ⟨length, found⟩ := isReference.referenceAt?_eq
    exact ⟨_, found⟩
  · rintro ⟨⟨name, length⟩, found⟩
    exact ⟨name, (referenceAt_of_referenceAt? found).1⟩

instance : DecidablePred StartsReference :=
  fun _ => decidable_of_iff _ startsReference_iff.symm

/-- No reference starts in a part of a text that has no dollar sign. -/
theorem filter_tails_append
    {spelled : List Char}
    (plain : '$' ∉ spelled)
    (rest : List Char) :
    (spelled ++ rest).tails.filter (StartsReference ·) =
      rest.tails.filter (StartsReference ·) := by
  induction spelled with
  | nil =>
      rfl
  | cons character spelled inductionHypothesis =>
      rw [List.mem_cons, not_or] at plain
      have startsNot : ¬ StartsReference (character :: (spelled ++ rest)) := by
        rintro ⟨name, isReference⟩
        exact plain.1 (Option.some.inj isReference.head?_eq).symm
      rw [List.cons_append, List.tails_cons,
        List.filter_cons_of_neg (by simpa using startsNot),
        inductionHypothesis plain.2]

/--
The scan finds one name for each place where a reference starts, in the order
of the places.  A reference that was found has no dollar sign behind its first
character, so no other one starts in what the scan passes over.
-/
theorem forall₂_referencesAfter
    (text : List Char) :
    List.Forall₂ ReferenceAt (referencesAfter 0 text)
      (text.tails.filter (StartsReference ·)) := by
  induction size :
    text.length using Nat.strong_induction_on generalizing text with
  | _ size inductionHypothesis =>
      subst size
      cases text with
      | nil =>
          have startsNot : ¬ StartsReference [] := by decide
          simp [referencesAfter, startsNot]
      | cons character text =>
          rw [referencesAfter]
          split
          · rename_i name length found
            obtain ⟨isReference, spelled, rest, textIs, plain, rfl⟩ :=
              referenceAt_of_referenceAt? found
            obtain ⟨rfl, rfl⟩ := List.cons.inj textIs
            have starts : StartsReference ('$' :: (spelled ++ rest)) :=
              ⟨name, isReference⟩
            rw [referencesAfter_eq_drop, Nat.add_sub_cancel, List.drop_left,
              List.tails_cons,
              List.filter_cons_of_pos (by simpa using starts),
              filter_tails_append plain]
            refine .cons isReference
              (inductionHypothesis rest.length ?_ rest rfl)
            rw [List.length_cons, List.length_append]
            omega
          · rename_i nothing
            have startsNot : ¬ StartsReference (character :: text) := by
              rw [startsReference_iff, nothing]
              simp
            rw [List.tails_cons, List.filter_cons_of_neg
              (by simpa using startsNot)]
            exact inductionHypothesis text.length (by simp) text rfl

/--
A text with an expression is found to refer to a name at each place with a
reference.
-/
theorem forall₂_references
    {content : String}
    (opened : Expression.opening <:+: content.toList) :
    List.Forall₂ (fun name rest => ReferenceAt name.toList rest)
      (references content)
      (content.toList.tails.filter (StartsReference ·)) := by
  rw [references_eq, if_pos (Text.occurs_iff.mpr opened),
    List.forall₂_map_left_iff]
  simpa only [String.toList_ofList] using forall₂_referencesAfter content.toList

end Scan

/-- The workflow that has one node and nothing else. -/
def alone (node : Value) : Value :=
  .object [("nodes", .list [node])]

/-- Nodes use the names that they use one by one. -/
theorem exists_usedBy_alone
    {nodes : List Value}
    {names : List String}
    (made : usedByNodes nodes = .ok names) :
    ∃ results, List.Forall₂ (fun node own => usedBy (alone node) = .ok own)
      nodes results ∧ ∀ name, name ∈ names ↔ ∃ own ∈ results, name ∈ own := by
  induction nodes generalizing names with
  | nil =>
      cases made
      exact ⟨[], .nil, by simp⟩
  | cons node nodes inductionHypothesis =>
      obtain ⟨parameters, areParameters, made⟩ := bind_eq_ok.mp made
      obtain ⟨fields, areFields, made⟩ := bind_eq_ok.mp made
      obtain ⟨others, areOthers, made⟩ := bind_eq_ok.mp made
      obtain rfl := pure_eq_ok.mp made
      have own : usedBy (alone node) = .ok (usedInFields fields).eraseDups := by
        have one : usedByNodes [node] = .ok (usedInFields fields) := by
          simp only [usedByNodes, areParameters, areFields, bind, Except.bind,
            pure, Except.pure, List.append_nil]
        change (do return (← usedByNodes [node]).eraseDups) = _
        rw [one]
        rfl
      obtain ⟨results, areResults, mem_iff⟩ := inductionHypothesis areOthers
      refine ⟨_ :: results, .cons own areResults, fun name => ?_⟩
      rw [List.mem_append, mem_iff, List.exists_mem_cons_iff,
        List.mem_eraseDups]

/--
A workflow uses just the names that texts refer to in objects that are reached
from the parameters of its nodes.  The scan of a text with an expression gives
one name for each place where a reference starts, in order, and the names of a
workflow are those of its nodes alone.
-/
theorem usedBy_finds_references
    {workflow : Value}
    {names : List String}
    (made : usedBy workflow = .ok names) :
    ∃ value nodes, workflow.get "nodes" (.list []) = .ok value ∧
      value.elements = .ok nodes ∧ names.Nodup ∧
      (∀ name, name ∈ names ↔ ∃ node ∈ nodes, ∃ fields inner key content,
        HasParameters node fields ∧ Reaches fields inner ∧
          (key, .text content) ∈ inner ∧ Refers content name) ∧
      (∀ content : String, Expression.opening <:+: content.toList →
        List.Forall₂ (fun name rest => ReferenceAt name.toList rest)
          (references content)
          (content.toList.tails.filter (StartsReference ·))) ∧
      ∃ results, List.Forall₂ (fun node own => usedBy (alone node) = .ok own)
        nodes results ∧ ∀ name, name ∈ names ↔ ∃ own ∈ results, name ∈ own := by
  obtain ⟨value, isValue, made⟩ := bind_eq_ok.mp made
  obtain ⟨nodes, areNodes, made⟩ := bind_eq_ok.mp made
  obtain ⟨all, areAll, made⟩ := bind_eq_ok.mp made
  obtain rfl := pure_eq_ok.mp made
  obtain ⟨results, areResults, mem_iff⟩ := exists_usedBy_alone areAll
  refine ⟨value, nodes, isValue, areNodes, nodup_eraseDups all, fun name => ?_,
    fun content => forall₂_references, results, areResults, fun name => ?_⟩
  · rw [List.mem_eraseDups, mem_usedByNodes areAll]
    simp only [usesName_iff]
  · rw [List.mem_eraseDups, mem_iff]

/--
A node with references side by side in a row of a table, and one outside of
every row.
-/
def tableNode : Value :=
  .object [("parameters", .object [("rows", .list
    [.object
      [("cell", .text "=\x7b\x7b$json.body.json.body.x$json.query.y\x7d\x7d")],
     .text "=\x7b\x7b$json.body.z\x7d\x7d"])])]

/-- A node with a reference two objects deep, and a marker without a name. -/
def deepNode : Value :=
  .object [("parameters", .object [("to", .object [("user",
    .object
      [("id", .text "$json.body.9 =\x7b\x7b $json.headers.id_2 \x7d\x7d")])])])]

/-- Both nodes, one of them twice. -/
def mixedNodes : Value :=
  .object [("nodes", .list [tableNode, deepNode, tableNode])]

/-- The references of the nodes are found, each name once. -/
theorem usedBy_finds_references_mixedNodes :
    usedBy mixedNodes = .ok ["json", "y", "id_2"] ∧
    ∃ nodes, mixedNodes.get "nodes" (.list []) = .ok (.list nodes) ∧
      (∀ name, name ∈ ["json", "y", "id_2"] ↔
        ∃ node ∈ nodes, ∃ fields inner key content,
        HasParameters node fields ∧ Reaches fields inner ∧
          (key, .text content) ∈ inner ∧ Refers content name) ∧
      ∃ results, List.Forall₂ (fun node own => usedBy (alone node) = .ok own)
        nodes results ∧
        ∀ name, name ∈ ["json", "y", "id_2"] ↔ ∃ own ∈ results, name ∈ own := by
  have made : usedBy mixedNodes = .ok ["json", "y", "id_2"] :=
    eq_ok_of_toOption (by decide +kernel)
  obtain ⟨value, nodes, isValue, areNodes, _, mem_iff, _, single⟩ :=
    usedBy_finds_references made
  obtain rfl := Except.ok.inj isValue
  obtain rfl := Except.ok.inj areNodes
  exact ⟨made, _, rfl, mem_iff, single⟩

end Flowgen.Parameters
