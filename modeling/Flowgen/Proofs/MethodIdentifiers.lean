import Flowgen.Proofs.DeclaredMethods
import Flowgen.Proofs.SupportedExpressions

namespace Flowgen

/-!
# Method names are identifiers

Whatever a node is called, its method has a name that a class can declare.
The words of the text that the node goes by are written in camel case, behind
a small letter and with an ending if they spell a reserved word; no reserved
word has that ending itself.
-/

namespace Text

theorem lowerAfter_eq_map
    {text : List Char}
    (isAscii : ∀ character ∈ text, character.toNat < 128)
    (before : List Char) :
    lowerAfter before text = text.map Char.toLower := by
  induction text generalizing before with
  | nil =>
      rfl
  | cons character text inductionHypothesis =>
      obtain ⟨firstAscii, restAscii⟩ := List.forall_mem_cons.mp isAscii
      have notSigma : character ≠ 'Σ' := by
        rintro rfl
        exact absurd firstAscii (by decide)
      rw [lowerAfter, inductionHypothesis restAscii, if_neg notSigma,
        lowerCharacter, if_pos firstAscii]
      rfl

theorem lowered_eq_map
    {text : List Char}
    (isAscii : ∀ character ∈ text, character.toNat < 128) :
    lowered text = text.map Char.toLower :=
  lowerAfter_eq_map isAscii []

theorem split_dot
    (text : String) :
    split text "." = (text.toList.splitOn '.').map String.ofList := by
  rw [split, show ".".toList = ['.'] from rfl, splitOn_singleton]

theorem split_of_not_mem
    {text : String}
    (noDot : '.' ∉ text.toList) :
    split text "." = [text] := by
  rw [split_dot, List.splitOn_eq_singleton noDot, List.map_singleton,
    String.ofList_toList]

theorem getLast?_split
    {last : String}
    (noDot : '.' ∉ last.toList)
    (front : String) :
    (split (front ++ "." ++ last) ".").getLast? = some last := by
  have textIs : (front ++ "." ++ last).toList =
      front.toList ++ '.' :: last.toList := by simp
  have lastPiece := split_of_not_mem noDot
  rw [split_dot] at lastPiece
  rw [split_dot, textIs, List.splitOn_append_cons_self, List.map_append,
    lastPiece, List.getLast?_concat]

end Text

namespace Naming

variable {fields : Fields} {text : String}

section Source

/-- The part of a text behind its last dot, or all of it if it has none. -/
def LastSegment (text segment : String) : Prop :=
  '.' ∉ segment.toList ∧ (text = segment ∨
    ∃ front : String, text = front ++ "." ++ segment)

/--
The text that a node goes by: its name, or the last part of its type if that
is blank.
-/
inductive GoesBy (fields : Fields) : String → Prop where
  | nameless :
      Fields.get? "name" fields = none →
      GoesBy fields "node"
  | named (name : String) :
      Fields.get? "name" fields = some (.text name) →
      Text.trim name ≠ "" →
      GoesBy fields name
  | typed (type segment : String) :
      Fields.get? "name" fields = some .null ∨
        (∃ blank, Fields.get? "name" fields = some (.text blank) ∧
          Text.trim blank = "") →
      Fields.get? "type" fields = some (.text type) ∨
        Fields.get? "type" fields = none ∧ type = "unknown" →
      LastSegment type segment →
      GoesBy fields segment

theorem lastSegment_split
    (text : String) :
    LastSegment text ((Text.split text ".").getLast?.getD "node") := by
  by_cases member : '.' ∈ text.toList
  · obtain ⟨front, last, listIs, noDot⟩ := Text.exists_last member
    have textIs : text = String.ofList front ++ "." ++ String.ofList last := by
      rw [← String.toList_inj, listIs]
      simp
    have noDotBehind : '.' ∉ (String.ofList last).toList := by simpa using noDot
    rw [textIs, Text.getLast?_split noDotBehind, Option.getD_some]
    exact ⟨noDotBehind, .inr ⟨_, rfl⟩⟩
  · rw [Text.split_of_not_mem member]
    exact ⟨member, .inl rfl⟩

/-- A node without a name, or with a blank one, is called by its type. -/
theorem sourceName_of_type
    {node : Value}
    (unnamed : node.get "name" (.text "node") = .ok .null ∨
      ∃ blank, node.get "name" (.text "node") = .ok (.text blank) ∧
      Text.trim blank = "")
    (typed : node.get "type" (.text "unknown") = .ok (.text text)) :
    sourceName node = .ok (.text
      ((Text.split text ".").getLast?.getD "node")) := by
  rcases unnamed with isNull | ⟨blank, isBlank, noText⟩
  · simp [sourceName, isNull, typed, Value.isTruthy, Value.textFor, bind,
      Except.bind, pure, Except.pure]
  · by_cases isTruthy : (Value.text blank).isTruthy = true
    · simp [sourceName, isBlank, typed, isTruthy, Value.textFor, noText, bind,
        Except.bind, pure, Except.pure, Except.map]
    · simp [sourceName, isBlank, typed, isTruthy, Value.textFor, bind,
        Except.bind, pure, Except.pure]

/--
Every node goes by a text, if only its name is a text or nothing and its type
a text.
-/
theorem exists_goesBy
    (nameIs : ∀ name, Fields.get? "name" fields = some name →
      name = .null ∨ ∃ content, name = .text content)
    (typeIs : ∀ type, Fields.get? "type" fields = some type →
      ∃ content, type = .text content) :
    ∃ text, GoesBy fields text ∧
    sourceName (.object fields) = .ok (.text text) := by
  have typeText : ∃ type, (Fields.get? "type" fields = some (.text type) ∨
      Fields.get? "type" fields = none ∧ type = "unknown") ∧
        (Value.object fields).get "type" (.text "unknown") =
          .ok (.text type) := by
    cases found : Fields.get? "type" fields with
    | none =>
        exact ⟨"unknown", .inr ⟨rfl, rfl⟩, by rw [Value.get, found]; rfl⟩
    | some type =>
        obtain ⟨content, rfl⟩ := typeIs type found
        exact ⟨content, .inl rfl, by rw [Value.get, found]; rfl⟩
  obtain ⟨type, isType, typed⟩ := typeText
  have called : ∀ name, Fields.get? "name" fields = some name →
      (Value.object fields).get "name" (.text "node") = .ok name := by
    intro name found
    rw [Value.get, found]
    rfl
  cases found : Fields.get? "name" fields with
  | none =>
      refine ⟨"node", .nameless found, sourceName_of_name ?_ (by decide)⟩
      rw [Value.get, found]
      rfl
  | some name =>
      rcases nameIs name found with rfl | ⟨content, rfl⟩
      · exact ⟨_, .typed type _ (.inl found) isType (lastSegment_split type),
          sourceName_of_type (.inl (called _ found)) typed⟩
      · by_cases isBlank : Text.trim content = ""
        · exact ⟨_, .typed type _ (.inr ⟨content, found, isBlank⟩) isType
            (lastSegment_split type),
            sourceName_of_type (.inr ⟨content, called _ found, isBlank⟩) typed⟩
        · exact ⟨content, .named content found isBlank,
            sourceName_of_name (called _ found) isBlank⟩

end Source

section Identifiers

/-- A small ASCII letter and then ASCII letters and digits. -/
def IsIdentifier (name : List Char) : Prop :=
  ∃ first rest, name = first :: rest ∧ ('a' ≤ first ∧ first ≤ 'z') ∧
    ∀ character ∈ rest, ('a' ≤ character ∧ character ≤ 'z') ∨
      ('A' ≤ character ∧ character ≤ 'Z') ∨ ('0' ≤ character ∧ character ≤ '9')

/-- The method for a text starts with a small letter. -/
theorem exists_methodFor_eq
    (text : String) :
    ∃ first rest, (methodFor text).toList = first :: rest ∧
    first.isLower = true := by
  have notNil : nameParts text.toList ≠ [] := by
    rw [nameParts]
    split
    · simp
    · exact startedParts_ne_nil _
  obtain ⟨part, parts, partsAre⟩ := List.exists_cons_of_ne_nil notNil
  obtain ⟨first, rest, rfl, isLower, _⟩ :=
    isPart_of_mem_nameParts text.toList part
      (by rw [partsAre]; exact List.mem_cons_self)
  refine ⟨first, rest.map Char.toLower ++ parts.flatMap capitalizedWord, ?_,
    isLower⟩
  rw [methodFor, methodNameOf_camelCase, partsAre, camelWords, List.map_cons,
    List.cons_append,
    Char.toLower_eq_of_not_isUpper (Char.not_isUpper_of_isLower isLower)]

/-- The parts of a name spell no reserved word. -/
theorem flatten_nameParts_not_mem
    (text : List Char) :
    String.ofList (nameParts text).flatten ∉ reservedWords := by
  have notSuffix : ∀ word ∈ reservedWords, ¬ fallbackName <:+ word.toList := by
    decide
  rw [nameParts]
  split
  · intro isReserved
    apply notSuffix _ isReserved
    rw [String.toList_ofList, List.flatten_append, List.flatten_singleton]
    exact List.suffix_append _ _
  · rename_i notReserved
    simpa using notReserved

theorem isIdentifier_of_isAlphanum
    {first : Char}
    {rest : List Char}
    (isLower : first.isLower = true)
    (alphanumeric : ∀ character ∈ rest, character.isAlphanum = true) :
    IsIdentifier (first :: rest) := by
  refine ⟨first, rest, rfl, ?_, fun character member => ?_⟩
  · simpa [Char.isLower, Char.le_def] using isLower
  · have isAlphanumeric := alphanumeric character member
    simp only [Char.isAlphanum, Char.isAlpha, Char.isUpper, Char.isLower,
      Char.isDigit,
      Bool.or_eq_true, Bool.and_eq_true, decide_eq_true_eq,
      ge_iff_le] at isAlphanumeric
    simp only [Char.le_def]
    tauto

/--
A node whose name is a text or nothing and whose type is a text has a method.
Its name is an identifier and, in lower case, no reserved word; it is made of
the parts of the text that the node goes by.
-/
theorem methodName_isIdentifier
    (nameIs : ∀ name, Fields.get? "name" fields = some name →
      name = .null ∨ ∃ content, name = .text content)
    (typeIs : ∀ type, Fields.get? "type" fields = some type →
      ∃ content, type = .text content) :
    ∃ name text, methodName (.object fields) = .ok name ∧
      IsIdentifier name.toList ∧ Text.lower name ∉ reservedWords ∧
      GoesBy fields text ∧ name.toList =
        camelWords (nameParts text.toList) := by
  obtain ⟨text, goesBy, source⟩ := exists_goesBy nameIs typeIs
  have named := methodName_of_source source
  have alphanumeric := isAlphanum_of_mem_methodName named
  refine ⟨methodFor text, text, named, ?_, ?_, goesBy,
    methodNameOf_camelCase text.toList⟩
  · obtain ⟨first, rest, nameIs, isLower⟩ := exists_methodFor_eq text
    rw [nameIs] at alphanumeric ⊢
    exact isIdentifier_of_isAlphanum isLower
      (List.forall_mem_cons.mp alphanumeric).2
  · have isAscii :
        ∀ character ∈ (methodFor text).toList, character.toNat < 128 := by
      intro character member
      have range := range_of_isAlphanum (alphanumeric character member)
      omega
    rw [Text.lower, Text.lowered_eq_map isAscii, ← lowerWord,
      lowerWord_methodFor]
    exact flatten_nameParts_not_mem text.toList

/-- A node with a blank name and the type of a reserved word. -/
def blankNode : Fields :=
  [("name", .text " \t"), ("type", .text "n8n-nodes-base.if")]

/-- The blank node goes by its type, and its method has an ending. -/
theorem methodName_isIdentifier_blankNode :
    (∃ name text, methodName (.object blankNode) = .ok name ∧
      IsIdentifier name.toList ∧ Text.lower name ∉ reservedWords ∧
      GoesBy blankNode text ∧ name.toList =
        camelWords (nameParts text.toList)) ∧
    methodName (.object blankNode) = .ok "ifNode" := by
  refine ⟨methodName_isIdentifier ?_ ?_, by decide +kernel⟩
  · rintro name ⟨⟩
    exact .inr ⟨_, rfl⟩
  · rintro type ⟨⟩
    exact ⟨_, rfl⟩

end Identifiers

end Naming

end Flowgen
