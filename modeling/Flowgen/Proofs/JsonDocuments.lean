import Flowgen.Proofs.JsonScalars
import Flowgen.Proofs.ReadValues
import Mathlib.Tactic.SplitIfs

namespace Flowgen.Json

/-!
# Documents that spell a value

A document spells a value whatever white space stands between its parts.  The
reader gives back the value that a document spells.  What is written for a
value spells it, and goes on spelling it when every line break is replaced by
other white space: no line break stands inside a text.
-/

/-- White space of any length. -/
def Blank (gap : List Char) : Prop :=
  ∀ character ∈ gap, isSpace character = true

/-- A part of a document: a value, or the rest of a list or of an object. -/
inductive Part where
  | value (value : Value)
  | items (items : List Value)
  | fields (fields : Fields)

/--
The documents for a part; the rest of a list or an object has its closing
bracket.
-/
inductive Spells : Part → List Char → Prop where
  | word
      {word : List Char}
      {value : Value}
      (isWord : (word, value) ∈ wordValues) :
      Spells (.value value) word
  | int
      {number : Int}
      (short : (Nat.toDigits 10 number.natAbs).length ≤ Numeral.digitLimit) :
      Spells (.value (.int number)) (toString number).toList
  | text (content : String) :
      Spells (.value (.text content)) (quoted content)
  | emptyList
      {gap : List Char}
      (blank : Blank gap) :
      Spells (.value (.list [])) ('\x5b' :: (gap ++ ['\x5d']))
  | list
      {gap text : List Char}
      {items : List Value}
      (blank : Blank gap) :
      Spells (.items items) text →
      Spells (.value (.list items)) ('\x5b' :: (gap ++ text))
  | emptyObject
      {gap : List Char}
      (blank : Blank gap) :
      Spells (.value (.object [])) ('\x7b' :: (gap ++ ['\x7d']))
  | object
      {gap text : List Char}
      {fields : Fields}
      (blank : Blank gap)
      (nodup : (fields.map Prod.fst).Nodup) :
      Spells (.fields fields) text →
      Spells (.value (.object fields)) ('\x7b' :: (gap ++ text))
  | lastItem
      {gap text : List Char}
      {item : Value}
      (blank : Blank gap) :
      Spells (.value item) text →
      Spells (.items [item]) (text ++ (gap ++ ['\x5d']))
  | item
      {before after text rest : List Char}
      {item : Value}
      {items : List Value}
      (blankBefore : Blank before)
      (blankAfter : Blank after) :
      Spells (.value item) text →
      Spells (.items items) rest →
      Spells (.items (item :: items))
        (text ++ (before ++ ',' :: (after ++ rest)))
  | lastField
      {before after gap text : List Char}
      {name : String}
      {value : Value}
      (blankBefore : Blank before)
      (blankAfter : Blank after)
      (blank : Blank gap) :
      Spells (.value value) text →
      Spells (.fields [(name, value)])
        (quoted name ++ (before ++ ':' ::
          (after ++ (text ++ (gap ++ ['\x7d'])))))
  | field
      {before after gap behind text rest : List Char}
      {name : String}
      {value : Value}
      {fields : Fields}
      (blankBefore : Blank before)
      (blankAfter : Blank after)
      (blank : Blank gap)
      (blankBehind : Blank behind) :
      Spells (.value value) text →
      Spells (.fields fields) rest →
      Spells (.fields ((name, value) :: fields))
        (quoted name ++ (before ++ ':' ::
          (after ++ (text ++ (gap ++ ',' :: (behind ++ rest))))))

section Reading

variable {gap text rest : List Char} {part : Part} {value : Value} {fuel : Nat}

/--
A text that starts with a character that is no white space and closes nothing.
-/
def StartsPart (text : List Char) : Prop :=
  ∃ first rest, text = first :: rest ∧ isSpace first = false ∧ first ≠ '\x5d' ∧
    first ≠ '\x7d'

theorem StartsPart.append
    (starts : StartsPart text)
    (rest : List Char) :
    StartsPart (text ++ rest) := by
  obtain ⟨first, tail, rfl, firm⟩ := starts
  exact ⟨first, tail ++ rest, rfl, firm⟩

theorem startsPart_toString_int
    (number : Int) :
    StartsPart (toString number).toList := by
  rw [toList_toString_int]
  split
  · exact ⟨'-', _, rfl, by decide⟩
  · obtain ⟨digit, digits, digitsAre, differs⟩ :=
      exists_toDigits_eq number.natAbs
    refine ⟨digit, digits, digitsAre, ?_, differs _ rfl, differs _ rfl⟩
    simp [isSpace, differs ' ' rfl, differs '\t' rfl, differs '\n' rfl,
      differs '\r' rfl]

/-- Every part starts firmly. -/
theorem Spells.startsPart
    (spells : Spells part text) :
    StartsPart text := by
  induction spells with
  | word isWord =>
      simp only [wordValues, List.mem_cons, List.not_mem_nil, or_false,
        Prod.mk.injEq] at isWord
      rcases isWord with ⟨rfl, _⟩ | ⟨rfl, _⟩ | ⟨rfl, _⟩ | ⟨rfl, _⟩ | ⟨rfl,
        _⟩ | ⟨rfl, _⟩
      all_goals exact ⟨_, _, rfl, by decide⟩
  | int _ =>
      exact startsPart_toString_int _
  | text content =>
      exact ⟨_, _, rfl, by decide⟩
  | emptyList _ | list _ _ _ | emptyObject _ | object _ _ _ _ =>
      exact ⟨_, _, rfl, by decide⟩
  | lastItem _ _ inductionHypothesis | item _ _ _ _ inductionHypothesis _ =>
      exact inductionHypothesis.append _
  | lastField _ _ _ _ _ | field _ _ _ _ _ _ _ _ =>
      exact ⟨_, _, rfl, by decide⟩

theorem skipSpace_append
    (blank : Blank gap)
    (firm : ∀ character, rest.head? = some character →
      isSpace character = false) :
    skipSpace (gap ++ rest) = rest := by
  rw [skipSpace, List.dropWhile_append_of_pos blank]
  cases rest with
  | nil =>
      rfl
  | cons character rest =>
      exact List.dropWhile_cons_of_neg (by simp [firm character rfl])

theorem skipSpace_append_startsPart
    (blank : Blank gap)
    (starts : StartsPart text) :
    skipSpace (gap ++ text) = text := by
  obtain ⟨first, tail, rfl, notSpace, _⟩ := starts
  refine skipSpace_append blank fun character isHead => ?_
  cases isHead
  exact notSpace

theorem skipSpace_append_cons
    {mark : Char}
    (blank : Blank gap)
    (isMark : isSpace mark = false)
    (rest : List Char) :
    skipSpace (gap ++ mark :: rest) = mark :: rest := by
  refine skipSpace_append blank fun character isHead => ?_
  cases isHead
  exact isMark

theorem endsNumber_append_cons
    (mark : Char)
    (isMark : mark ∈ [',', '\x5d', '\x7d'])
    (blank : Blank gap)
    (rest : List Char) :
    EndsNumber (gap ++ mark :: rest) := by
  have spaces : ∀ character, isSpace character = true →
      character.isDigit = false ∧ character ∉ ['.', 'e', 'E'] := by
    intro character space
    simp only [isSpace, Bool.or_eq_true, beq_iff_eq] at space
    rcases space with ((rfl | rfl) | rfl) | rfl <;> decide
  have marks : ∀ mark ∈ [',', '\x5d', '\x7d'],
      Char.isDigit mark = false ∧ mark ∉ ['.', 'e', 'E'] := by
    decide
  intro character isHead
  cases gap with
  | nil =>
      cases isHead
      exact marks mark isMark
  | cons first gap =>
      obtain rfl : first = character := Option.some.inj isHead
      exact spaces first (blank first List.mem_cons_self)

theorem value_succ_of_scalar
    (notList : text.head? ≠ some '\x5b')
    (notObject : text.head? ≠ some '\x7b') :
    Json.value (fuel + 1) text = scalar text := by
  rw [Json.value]
  · rintro tail rfl
    exact notList rfl
  · rintro tail rfl
    exact notObject rfl

theorem value_succ_list
    (blank : Blank gap)
    (starts : StartsPart text) :
    Json.value (fuel + 1) ('\x5b' :: (gap ++ text)) =
      (Json.items fuel text).map fun result => (.list result.1, result.2) := by
  rw [Json.value, skipSpace_append_startsPart blank starts]
  obtain ⟨first, tail, rfl, _, notClosed, _⟩ := starts
  split
  · rename_i same
    exact absurd (List.cons.inj same).1 notClosed
  · rfl

theorem value_succ_object
    (blank : Blank gap)
    (starts : StartsPart text) :
    Json.value (fuel + 1) ('\x7b' :: (gap ++ text)) =
      (Json.fields fuel [] text).map fun result =>
      (.object result.1, result.2) := by
  rw [Json.value, skipSpace_append_startsPart blank starts]
  obtain ⟨first, tail, rfl, _, _, notClosed⟩ := starts
  split
  · rename_i same
    exact absurd (List.cons.inj same).1 notClosed
  · rfl

section Items

variable {before after inner : List Char} {item : Value} {items : List Value}

theorem items_succ_of_closed
    (blank : Blank gap)
    (read : Json.value fuel text = .ok (item, gap ++ '\x5d' :: rest)) :
    Json.items (fuel + 1) text = .ok ([item], rest) := by
  rw [Json.items, read]
  simp only
  rw [skipSpace_append_cons blank (by decide)]
  rfl

theorem items_succ_of_more
    (blankBefore : Blank before)
    (blankAfter : Blank after)
    (starts : StartsPart inner)
    (read : Json.value fuel text =
      .ok (item, before ++ ',' :: (after ++ inner)))
    (restRead : Json.items fuel inner = .ok (items, rest)) :
    Json.items (fuel + 1) text = .ok (item :: items, rest) := by
  rw [Json.items, read]
  simp only
  rw [skipSpace_append_cons blankBefore (by decide)]
  simp only
  rw [skipSpace_append_startsPart blankAfter starts, restRead]
  rfl

end Items

section Fields

variable {before after behind inner : List Char} {name : String}
  {known fields : Fields}

theorem fields_succ_of_closed
    (blankBefore : Blank before)
    (blankAfter : Blank after)
    (starts : StartsPart text)
    (blank : Blank gap)
    (read : Json.value fuel text = .ok (value, gap ++ '\x7d' :: rest)) :
    Json.fields (fuel + 1) known
      (quoted name ++ (before ++ ':' :: (after ++ text))) =
      .ok (Fields.set name value known, rest) := by
  rw [quoted_append, Json.fields, text?_flatMap_escape]
  simp only
  rw [skipSpace_append_cons blankBefore (by decide)]
  simp only
  rw [skipSpace_append_startsPart blankAfter starts, read]
  simp only
  rw [skipSpace_append_cons blank (by decide)]
  rfl

theorem fields_succ_of_more
    (blankBefore : Blank before)
    (blankAfter : Blank after)
    (starts : StartsPart text)
    (blank : Blank gap)
    (blankBehind : Blank behind)
    (innerStarts : StartsPart inner)
    (read : Json.value fuel text = .ok (value, gap ++ ',' :: (behind ++ inner)))
    (restRead : Json.fields fuel (Fields.set name value known) inner =
      .ok (fields, rest)) :
    Json.fields (fuel + 1) known
      (quoted name ++ (before ++ ':' :: (after ++ text))) =
      .ok (fields, rest) := by
  rw [quoted_append, Json.fields, text?_flatMap_escape]
  simp only
  rw [skipSpace_append_cons blankBefore (by decide)]
  simp only
  rw [skipSpace_append_startsPart blankAfter starts, read]
  simp only
  rw [skipSpace_append_cons blank (by decide)]
  simp only
  rw [skipSpace_append_startsPart blankBehind innerStarts, restRead]

theorem set_append_of_nodup
    (nodup : ((known ++ (name, value) :: fields).map Prod.fst).Nodup) :
    Fields.set name value known ++ fields =
      known ++ (name, value) :: fields := by
  rw [List.map_append] at nodup
  have isNew : name ∉ known.map Prod.fst := fun old =>
    List.disjoint_of_nodup_append nodup old List.mem_cons_self
  rw [Fields.set_of_not_mem isNew, List.append_assoc, List.singleton_append]

end Fields

/--
A part is read back from its document in front of anything that cannot extend
it.
-/
def ReadBack : Part → List Char → Prop
  | .value value, text => ∀ fuel rest, 2 * text.length ≤ fuel →
      EndsNumber rest → Json.value fuel (text ++ rest) = .ok (value, rest)
  | .items items, text => ∀ fuel rest, 2 * text.length ≤ fuel →
      Json.items fuel (text ++ rest) = .ok (items, rest)
  | .fields fields, text => ∀ fuel rest known, 2 * text.length ≤ fuel →
      ((known ++ fields).map Prod.fst).Nodup →
      Json.fields fuel known (text ++ rest) = .ok (known ++ fields, rest)

theorem readBack_of_scalar
    (notNil : text ≠ [])
    (notList : text.head? ≠ some '\x5b')
    (notObject : text.head? ≠ some '\x7b')
    (read : ∀ rest, EndsNumber rest →
      scalar (text ++ rest) = .ok (value, rest)) :
    ReadBack (.value value) text := by
  intro fuel rest enough ends
  have notEmpty := List.length_pos_iff.mpr notNil
  obtain ⟨fuel, rfl⟩ : ∃ less, fuel = less + 1 := ⟨fuel - 1, by omega⟩
  rw [← List.head?_append_of_ne_nil _ notNil] at notList notObject
  rw [value_succ_of_scalar notList notObject, read rest ends]

/-- The reader gives back what a document spells. -/
theorem Spells.readBack
    (spells : Spells part text) :
    ReadBack part text := by
  induction spells with
  | word isWord =>
      have marks :
          ∀ entry ∈ wordValues, entry.1 ≠ [] ∧ entry.1.head? ≠ some '\x5b' ∧
          entry.1.head? ≠ some '\x7b' := by
        decide
      obtain ⟨notNil, notList, notObject⟩ := marks _ isWord
      exact readBack_of_scalar notNil notList notObject fun rest _ =>
        scalar_word isWord rest
  | @int number short =>
      obtain ⟨digit, digits, digitsAre, differs⟩ :=
        exists_toDigits_eq number.natAbs
      have marks : (toString number).toList ≠ [] ∧
          (toString number).toList.head? ≠ some '\x5b' ∧
          (toString number).toList.head? ≠ some '\x7b' := by
        rw [toList_toString_int, digitsAre]
        split
        · simp
        · simp [differs '\x5b' rfl, differs '\x7b' rfl]
      exact readBack_of_scalar marks.1 marks.2.1 marks.2.2 fun rest ends =>
        scalar_toString_int ends short
  | text content =>
      exact readBack_of_scalar (by simp [quoted]) (by simp [quoted])
        (by simp [quoted]) fun rest _ => scalar_quoted content rest
  | emptyList blank =>
      intro fuel rest enough _
      rw [List.length_cons] at enough
      obtain ⟨fuel, rfl⟩ : ∃ less, fuel = less + 1 := ⟨fuel - 1, by omega⟩
      rw [List.cons_append, List.append_assoc, List.singleton_append,
        Json.value, skipSpace_append_cons blank (by decide)]
      rfl
  | list blank spelled inductionHypothesis =>
      intro fuel rest enough _
      rw [List.length_cons, List.length_append] at enough
      obtain ⟨fuel, rfl⟩ : ∃ less, fuel = less + 1 := ⟨fuel - 1, by omega⟩
      rw [List.cons_append, List.append_assoc,
        value_succ_list blank (spelled.startsPart.append _),
        inductionHypothesis fuel rest (by omega)]
      rfl
  | emptyObject blank =>
      intro fuel rest enough _
      rw [List.length_cons] at enough
      obtain ⟨fuel, rfl⟩ : ∃ less, fuel = less + 1 := ⟨fuel - 1, by omega⟩
      rw [List.cons_append, List.append_assoc, List.singleton_append,
        Json.value, skipSpace_append_cons blank (by decide)]
      rfl
  | object blank nodup spelled inductionHypothesis =>
      intro fuel rest enough _
      rw [List.length_cons, List.length_append] at enough
      obtain ⟨fuel, rfl⟩ : ∃ less, fuel = less + 1 := ⟨fuel - 1, by omega⟩
      rw [List.cons_append, List.append_assoc,
        value_succ_object blank (spelled.startsPart.append _),
        inductionHypothesis fuel rest [] (by omega) nodup]
      rfl
  | lastItem blank _ inductionHypothesis =>
      intro fuel rest enough
      simp only [List.length_append, List.length_singleton] at enough
      obtain ⟨fuel, rfl⟩ : ∃ less, fuel = less + 1 := ⟨fuel - 1, by omega⟩
      simp only [List.append_assoc, List.singleton_append]
      refine items_succ_of_closed blank
        (inductionHypothesis fuel _ (by omega) ?_)
      exact endsNumber_append_cons '\x5d' (by decide) blank rest
  | item blankBefore blankAfter _ restSpelled itemHypothesis restHypothesis =>
      intro fuel rest enough
      simp only [List.length_append, List.length_cons] at enough
      obtain ⟨fuel, rfl⟩ : ∃ less, fuel = less + 1 := ⟨fuel - 1, by omega⟩
      simp only [List.append_assoc, List.cons_append]
      refine items_succ_of_more blankBefore blankAfter
        (restSpelled.startsPart.append rest)
        (itemHypothesis fuel _ (by omega) ?_)
          (restHypothesis fuel rest (by omega))
      exact endsNumber_append_cons ',' (by decide) blankBefore _
  | @lastField _ _ _ _ name value blankBefore blankAfter blank spelled
      inductionHypothesis =>
      intro fuel rest known enough nodup
      simp only [List.length_append, List.length_cons, List.length_nil]
        at enough
      obtain ⟨fuel, rfl⟩ : ∃ less, fuel = less + 1 := ⟨fuel - 1, by omega⟩
      rw [← set_append_of_nodup nodup, List.append_nil]
      simp only [List.append_assoc, List.cons_append, List.nil_append]
      refine fields_succ_of_closed blankBefore blankAfter
        (spelled.startsPart.append _) blank
        (inductionHypothesis fuel _ (by omega) ?_)
      exact endsNumber_append_cons '\x7d' (by decide) blank rest
  | @field _ _ _ _ _ _ name value fields blankBefore blankAfter blank
      blankBehind spelled restSpelled valueHypothesis restHypothesis =>
      intro fuel rest known enough nodup
      simp only [List.length_append, List.length_cons] at enough
      obtain ⟨fuel, rfl⟩ : ∃ less, fuel = less + 1 := ⟨fuel - 1, by omega⟩
      have isAdded := set_append_of_nodup nodup
      rw [← isAdded] at nodup ⊢
      simp only [List.append_assoc, List.cons_append]
      refine fields_succ_of_more blankBefore blankAfter
        (spelled.startsPart.append _) blank
        blankBehind (restSpelled.startsPart.append rest)
          (valueHypothesis fuel _ (by omega) ?_)
        (restHypothesis fuel rest _ (by omega) nodup)
      exact endsNumber_append_cons ',' (by decide) blank _

theorem parse_of_spells
    {document : String}
    (spells : Spells (.value value) document.toList) :
    parse document = .ok value := by
  have started : skipSpace document.toList = document.toList :=
    @skipSpace_append_startsPart [] _ (by simp [Blank]) spells.startsPart
  have read := spells.readBack (2 * document.toList.length + 2) [] (by omega)
    (by simp [EndsNumber])
  rw [List.append_nil] at read
  simp only [parse, started, read]
  rfl

end Reading

section Writing

variable {gap behind : List Char}

theorem blank_lineBreak
    (indent : Option Nat)
    (depth : Nat) :
    Blank (lineBreak indent depth) := by
  cases indent with
  | none =>
      simp [Blank, lineBreak]
  | some width =>
      intro character member
      rcases List.mem_cons.mp member with rfl | inSpaces
      · rfl
      · rw [List.eq_of_mem_replicate inSpaces]
        rfl

theorem spells_items
    {items : List Value}
    {parts : List (List Char)}
    (blankBehind : Blank behind)
    (blank : Blank gap)
    (notNil : items ≠ [])
    (spelled : List.Forall₂ (fun item part => Spells (.value item) part) items
      parts) :
    Spells (.items items) (List.intercalate (',' :: behind) parts ++
      (gap ++ ['\x5d'])) := by
  have nothing : Blank [] := by simp [Blank]
  induction spelled with
  | nil =>
      exact absurd rfl notNil
  | @cons item part items parts itemSpelled restSpelled inductionHypothesis =>
      cases restSpelled with
      | nil =>
          rw [List.intercalate_singleton]
          exact .lastItem blank itemSpelled
      | cons _ _ =>
          rw [List.intercalate_cons_cons]
          have spells := Spells.item nothing blankBehind itemSpelled
            (inductionHypothesis (List.cons_ne_nil _ _))
          simpa using spells

theorem spells_fields
    {fields : Fields}
    {parts : List (List Char)}
    (blankBehind : Blank behind)
    (blank : Blank gap)
    (notNil : fields ≠ [])
    (spelled : List.Forall₂ (fun field part => ∃ text,
      Spells (.value field.2) text ∧
      part = quoted field.1 ++ ':' :: ' ' :: text) fields parts) :
    Spells (.fields fields) (List.intercalate (',' :: behind) parts ++
      (gap ++ ['\x7d'])) := by
  have nothing : Blank [] := by simp [Blank]
  have single : Blank [' '] := by simp [Blank, isSpace]
  induction spelled with
  | nil =>
      exact absurd rfl notNil
  | @cons field part fields parts fieldSpelled restSpelled
      inductionHypothesis =>
      obtain ⟨text, valueSpelled, rfl⟩ := fieldSpelled
      cases restSpelled with
      | nil =>
          have spells := @Spells.lastField _ _ _ _ field.1 _ nothing single
            blank valueSpelled
          simpa using spells
      | cons _ _ =>
          rw [List.intercalate_cons_cons]
          have spells := @Spells.field _ _ _ _ _ _ field.1 _ _ nothing single
            nothing blankBehind
            valueSpelled (inductionHypothesis (List.cons_ne_nil _ _))
          simpa using spells

mutual

/-- What is written for a regular value without doubles spells it. -/
theorem spells_written
    (indent : Option Nat) :
    ∀ (depth : Nat) (value : Value), value.Regular → value.reals = [] →
      Spells (.value value) (written indent depth value)
  | _, .null, _, _ => .word (.head _)
  | _, .bool true, _, _ => .word (.tail _ (.head _))
  | _, .bool false, _, _ => .word (.tail _ (.tail _ (.head _)))
  | _, .int _, .int short, _ => .int short
  | _, .text content, _, _ => .text content
  | _, .list [], _, _ => @Spells.emptyList [] (by simp [Blank])
  | depth, .list (item :: items), .list regular, noReals => by
      have spells := Spells.list (blank_lineBreak indent (depth + 1))
        (spells_items (blank_lineBreak indent (depth + 1))
          (blank_lineBreak indent depth) (List.cons_ne_nil item items)
          (spells_writtenItems indent (depth + 1) (item :: items) regular
            noReals))
      simpa [written, writtenItems, bracketed] using spells
  | _, .object [], _, _ => @Spells.emptyObject [] (by simp [Blank])
  | depth, .object (field :: fields), .object nodup regular, noReals => by
      have spells := Spells.object (blank_lineBreak indent (depth + 1)) nodup
        (spells_fields (blank_lineBreak indent (depth + 1))
          (blank_lineBreak indent depth) (List.cons_ne_nil field fields)
          (spells_writtenFields indent (depth + 1) (field :: fields) regular
            noReals))
      simpa [written, writtenFields, bracketed] using spells

theorem spells_writtenItems
    (indent : Option Nat) :
    ∀ (depth : Nat) (items : List Value), (∀ item ∈ items, item.Regular) →
      Value.itemReals items = [] →
      List.Forall₂ (fun item part => Spells (.value item) part) items
        (writtenItems indent depth items)
  | _, [], _, _ => .nil
  | depth, item :: items, regular, noReals => by
      obtain ⟨itemRegular, restRegular⟩ := List.forall_mem_cons.mp regular
      obtain ⟨itemReals, restReals⟩ := List.append_eq_nil_iff.mp noReals
      exact .cons (spells_written indent depth item itemRegular itemReals)
        (spells_writtenItems indent depth items restRegular restReals)

theorem spells_writtenFields
    (indent : Option Nat) :
    ∀ (depth : Nat) (fields : Fields), (∀ field ∈ fields, field.2.Regular) →
      Value.fieldReals fields = [] →
      List.Forall₂ (fun field part => ∃ text, Spells (.value field.2) text ∧
        part = quoted field.1 ++ ':' :: ' ' ::
        text) fields (writtenFields indent depth fields)
  | _, [], _, _ => .nil
  | depth, (name, value) :: fields, regular, noReals => by
      obtain ⟨valueRegular, restRegular⟩ := List.forall_mem_cons.mp regular
      obtain ⟨valueReals, restReals⟩ := List.append_eq_nil_iff.mp noReals
      exact .cons ⟨_, spells_written indent depth value valueRegular valueReals,
        rfl⟩ (spells_writtenFields indent depth fields restRegular restReals)

end

end Writing

section Breaking

variable {part : Part} {replacement text : List Char}

/-- A text with other white space in place of its line breaks. -/
def rebroken (replacement text : List Char) : List Char :=
  text.flatMap fun character =>
    if character = '\n' then replacement else [character]

theorem rebroken_append
    (first second : List Char) :
    rebroken replacement (first ++ second) =
      rebroken replacement first ++ rebroken replacement second :=
  List.flatMap_append

theorem rebroken_cons
    {character : Char}
    (notBreak : character ≠ '\n')
    (text : List Char) :
    rebroken replacement (character :: text) =
      character :: rebroken replacement text := by
  rw [rebroken, List.flatMap_cons, if_neg notBreak]
  rfl

theorem rebroken_eq_self
    (noBreak : '\n' ∉ text) :
    rebroken replacement text = text := by
  induction text with
  | nil =>
      rfl
  | cons character text inductionHypothesis =>
      rw [List.mem_cons, not_or] at noBreak
      rw [rebroken_cons (Ne.symm noBreak.1), inductionHypothesis noBreak.2]

theorem blank_rebroken
    {gap : List Char}
    (blankReplacement : Blank replacement)
    (blank : Blank gap) :
    Blank (rebroken replacement gap) := by
  intro character member
  obtain ⟨origin, inGap, found⟩ := List.mem_flatMap.mp member
  split at found
  · exact blankReplacement character found
  · rw [List.mem_singleton.mp found]
    exact blank origin inGap

theorem newline_not_mem_quoted
    (content : String) :
    '\n' ∉ quoted content := by
  have digits : ∀ unit < 32, '\n' ∉ Text.hexadecimal 4 unit := by
    decide +kernel
  have escapes : ∀ character, '\n' ∉ escape character := by
    intro character
    unfold escape
    split_ifs with isMark isBreak isReturn isTab isBackspace isFeed isControl
    · rcases isMark with rfl | rfl <;> decide
    · decide
    · decide
    · decide
    · decide
    · decide
    · simpa using digits _ isControl
    · simpa using Ne.symm isBreak
  simp [quoted, escapes]

theorem newline_not_mem_toString_int
    (number : Int) :
    '\n' ∉ (toString number).toList := by
  have noDigit : '\n' ∉ Nat.toDigits 10 number.natAbs := by
    intro member
    have isDigit := Nat.isDigit_of_mem_toDigits (by decide) (by decide) member
    exact absurd isDigit (by decide)
  rw [toList_toString_int]
  split <;> simpa using noDigit

/--
A document whose line breaks are replaced by white space spells what it did.
-/
theorem Spells.rebroken
    (blankReplacement : Blank replacement)
    (spells : Spells part text) :
    Spells part (rebroken replacement text) := by
  have gaps : ∀ {gap}, Blank gap → Blank (Json.rebroken replacement gap) :=
    blank_rebroken blankReplacement
  induction spells with
  | word isWord =>
      have words : ∀ entry ∈ wordValues, '\n' ∉ entry.1 := by decide
      rw [rebroken_eq_self (words _ isWord)]
      exact .word isWord
  | int short =>
      rw [rebroken_eq_self (newline_not_mem_toString_int _)]
      exact .int short
  | text content =>
      rw [rebroken_eq_self (newline_not_mem_quoted content)]
      exact .text content
  | emptyList blank =>
      rw [rebroken_cons (by decide), rebroken_append]
      exact .emptyList (gaps blank)
  | list blank _ inductionHypothesis =>
      rw [rebroken_cons (by decide), rebroken_append]
      exact .list (gaps blank) inductionHypothesis
  | emptyObject blank =>
      rw [rebroken_cons (by decide), rebroken_append]
      exact .emptyObject (gaps blank)
  | object blank nodup _ inductionHypothesis =>
      rw [rebroken_cons (by decide), rebroken_append]
      exact .object (gaps blank) nodup inductionHypothesis
  | lastItem blank _ inductionHypothesis =>
      rw [rebroken_append, rebroken_append]
      exact .lastItem (gaps blank) inductionHypothesis
  | item blankBefore blankAfter _ _ itemHypothesis restHypothesis =>
      rw [rebroken_append, rebroken_append, rebroken_cons (by decide),
        rebroken_append]
      exact .item (gaps blankBefore) (gaps blankAfter) itemHypothesis
        restHypothesis
  | lastField blankBefore blankAfter blank _ inductionHypothesis =>
      rw [rebroken_append, rebroken_eq_self (newline_not_mem_quoted _),
        rebroken_append,
        rebroken_cons (by decide), rebroken_append, rebroken_append,
        rebroken_append]
      exact .lastField (gaps blankBefore) (gaps blankAfter) (gaps blank)
        inductionHypothesis
  | field blankBefore blankAfter blank blankBehind _ _ valueHypothesis
      restHypothesis =>
      rw [rebroken_append, rebroken_eq_self (newline_not_mem_quoted _),
        rebroken_append,
        rebroken_cons (by decide), rebroken_append, rebroken_append,
        rebroken_append,
        rebroken_cons (by decide), rebroken_append]
      exact .field (gaps blankBefore) (gaps blankAfter) (gaps blank)
        (gaps blankBehind) valueHypothesis restHypothesis

end Breaking

end Flowgen.Json
