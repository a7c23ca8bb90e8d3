import Flowgen.Proofs.ExpressionMeanings

namespace Flowgen

/-!
# Expressions between plain texts

A text with expressions in it is searched for them once, and then they are
replaced one after the other wherever they stand.  An expression starts with
an equals sign, and no access has one.  So in a text that is rewritten in part
an expression is found only where one was written, and the accesses come to
stand in the places of the expressions.
-/

namespace Expression

variable {plain rest pattern replacement : List Char}
variable {expression other inside code : List Char}

section Passing

/--
A text with no place at which an expression starts, also together with what
follows it.
-/
def Unmarked (plain rest : List Char) : Prop :=
  ∀ suffix, suffix <:+ plain → suffix ≠ [] → ¬ opening <+: suffix ++ rest

theorem Unmarked.of_cons
    {character : Char}
    (unmarked : Unmarked (character :: plain) rest) :
    ¬ opening <+: character :: (plain ++ rest) ∧ Unmarked plain rest :=
  ⟨unmarked _ (List.suffix_refl _) (List.cons_ne_nil _ _),
    fun suffix isSuffix =>
      unmarked suffix (isSuffix.trans (List.suffix_cons _ _))⟩

theorem unmarked_of_no_equals
    (absent : '=' ∉ plain) :
    Unmarked plain rest := by
  intro suffix isSuffix notNil starts
  obtain ⟨first, more, rfl⟩ := List.exists_cons_of_ne_nil notNil
  have isFirst : '=' = first := (List.cons_prefix_cons.mp starts).1
  exact absent (isSuffix.subset (isFirst ▸ List.mem_cons_self))

/-- A marker is not completed by a text that does not start with a brace. -/
theorem unmarked_of_absent
    (absent : ¬ opening <:+: plain)
    (goesOn : rest.head? ≠ some '\x7b') :
    Unmarked plain rest := by
  intro suffix isSuffix notNil starts
  rcases Text.prefix_append_cases starts with
    within | ⟨more, across, moreNotNil, isPrefix⟩
  · exact absent (within.isInfix.trans isSuffix.isInfix)
  · -- A part of the marker behind its first character starts with a brace.
    obtain ⟨first, others, rfl⟩ := List.exists_cons_of_ne_nil notNil
    obtain ⟨next, later, rfl⟩ := List.exists_cons_of_ne_nil moreNotNil
    have inBraces : next ∈ ['\x7b', '\x7b'] := by
      rw [(List.cons.inj across).2]
      exact List.mem_append_right _ List.mem_cons_self
    obtain ⟨_, rfl⟩ := isPrefix
    simp at inBraces
    exact goesOn (by simp [inBraces])

/-- Replacing an expression passes over a text in which none starts. -/
theorem replaceAll_append_of_unmarked
    (opened : opening <+: pattern)
    (unmarked : Unmarked plain rest) :
    Text.replaceAll pattern replacement (plain ++ rest) =
      plain ++ Text.replaceAll pattern replacement rest := by
  induction plain with
  | nil =>
      rfl
  | cons character plain inductionHypothesis =>
      obtain ⟨notHere, later⟩ := unmarked.of_cons
      rw [List.cons_append, Text.replaceAll_cons fun starts =>
        notHere (opened.trans starts),
        inductionHypothesis later, List.cons_append]

/-- The search for expressions passes over a text in which none starts. -/
theorem expressionsIn_append_of_unmarked
    (unmarked : Unmarked plain rest) :
    expressionsIn (plain ++ rest) = expressionsIn rest := by
  induction plain with
  | nil =>
      rfl
  | cons character plain inductionHypothesis =>
      obtain ⟨notHere, later⟩ := unmarked.of_cons
      have nothing : expressionAt? (character :: (plain ++ rest)) = none := by
        rw [expressionAt?, Text.after?_eq_none.mpr notHere]
      rw [List.cons_append, expressionsIn, expressionsAfter, nothing]
      exact inductionHypothesis later

theorem expressionsAfter_length
    (passed : List Char) :
    expressionsAfter passed.length (passed ++ rest) = expressionsIn rest := by
  induction passed with
  | nil =>
      rfl
  | cons character passed inductionHypothesis =>
      rw [List.length_cons, List.cons_append, expressionsAfter,
        inductionHypothesis]

theorem takeWhile_closing
    (noBrace : '\x7d' ∉ inside) :
    (inside ++ (closing ++ rest)).takeWhile
      (fun character => character != '\x7d') = inside := by
  rw [List.takeWhile_append_of_pos,
    show (closing ++ rest).takeWhile _ = [] from rfl, List.append_nil]
  intro character member
  have notBrace : character ≠ '\x7d' := by
    rintro rfl
    exact noBrace member
  simpa using notBrace

/-- An expression at the start of a text is found first. -/
theorem expressionsIn_expression_append
    (notNil : inside ≠ [])
    (noBrace : '\x7d' ∉ inside)
    (rest : List Char) :
    expressionsIn (opening ++ inside ++ closing ++ rest) =
      (opening ++ inside ++ closing) :: expressionsIn rest := by
  have behind : Text.after? opening (opening ++ inside ++ closing ++ rest) =
      some (inside ++ (closing ++ rest)) := by
    rw [Text.after?_eq_some]
    simp only [List.append_assoc]
  have found : expressionAt? (opening ++ inside ++ closing ++ rest) =
      some (opening ++ inside ++ closing) := by
    rw [expressionAt?, behind]
    dsimp only
    rw [takeWhile_closing noBrace, List.drop_left, if_pos]
    rw [Bool.and_eq_true, List.isPrefixOf_iff_prefix]
    exact ⟨by simpa using notNil, List.prefix_append _ _⟩
  obtain ⟨first, more, expressionIs⟩ := List.exists_cons_of_ne_nil
    (show opening ++ inside ++ closing ≠ [] by simp [opening])
  rw [expressionIs] at found ⊢
  rw [List.cons_append, expressionsIn, expressionsAfter, ← List.cons_append,
    found]
  exact congrArg _ (expressionsAfter_length more)

end Passing

section Rewriting

/-- Texts with something in front of each, one after the other. -/
def joined (pieces : List (List Char × List Char)) : List Char :=
  pieces.flatMap fun piece => piece.1 ++ piece.2

/--
What stands between plain texts while they are rewritten: an expression, or an
access.
-/
def IsFilling (filling : List Char) : Prop :=
  (∃ inside, '\x7d' ∉ inside ∧ '=' ∉ inside ∧
    filling = opening ++ inside ++ closing) ∨
    ∃ more, '=' ∉ more ∧ filling = '$' :: more

/-- A piece of a text that is being rewritten. -/
def IsPiece (piece : List Char × List Char) : Prop :=
  IsFilling piece.1 ∧ ¬ opening <:+: piece.2

/-- Pieces with other fillings between the same texts. -/
def refilled
    (change : List Char → List Char)
    (pieces : List (List Char × List Char)) :
    List (List Char × List Char) :=
  pieces.map fun piece => (change piece.1, piece.2)

/--
The filling in the place of a filling, when code is put in the place of an
expression.
-/
def exchange (expression code filling : List Char) : List Char :=
  if filling = expression then code else filling

variable {pieces : List (List Char × List Char)}

theorem head?_joined
    (arePieces : ∀ piece ∈ pieces, IsPiece piece) :
    (joined pieces).head? ≠ some '\x7b' := by
  cases pieces with
  | nil =>
      simp [joined]
  | cons piece pieces =>
      obtain ⟨isFilling, _⟩ := arePieces piece List.mem_cons_self
      rw [joined, List.flatMap_cons]
      rcases isFilling with ⟨inside, _, _, isExpression⟩ | ⟨more, _, isAccess⟩
      · simp [isExpression, opening]
      · simp [isAccess]

theorem joined_cons
    (piece : List Char × List Char)
    (pieces : List (List Char × List Char)) :
    joined (piece :: pieces) = piece.1 ++ (piece.2 ++ joined pieces) := by
  rw [joined, List.flatMap_cons, List.append_assoc, ← joined]

theorem IsExpression.opens
    (isExpression : IsExpression expression) :
    opening <+: expression := by
  obtain ⟨inside, _, rfl⟩ := isExpression
  rw [List.append_assoc]
  exact List.prefix_append _ _

/-- An expression does not go on behind the end of another one. -/
theorem IsExpression.eq_of_starts
    (isExpression : IsExpression expression)
    (isOther : IsExpression other)
    (starts : expression <+: other ++ rest) :
    other = expression := by
  obtain ⟨inside, noBrace, rfl⟩ := isExpression
  obtain ⟨otherInside, noOther, rfl⟩ := isOther
  obtain ⟨more, whole⟩ := starts
  have same :
      inside ++ (closing ++ more) = otherInside ++ (closing ++ rest) := by
    simpa only [List.append_assoc, List.append_right_inj] using whole
  rw [← takeWhile_closing noOther, ← same, takeWhile_closing noBrace]

/-- Replacing an expression passes over every filling but itself. -/
theorem replaceAll_append_of_isFilling
    {filling : List Char}
    (isExpression : IsExpression expression)
    (isFilling : IsFilling filling)
    (different : filling ≠ expression) :
    Text.replaceAll expression code (filling ++ rest) =
      filling ++ Text.replaceAll expression code rest := by
  rcases isFilling with ⟨inside, noBrace, noEquals, isOther⟩ | ⟨more, noEquals,
    isAccess⟩
  · have notHere : ¬ expression <+: filling ++ rest := fun starts =>
      different (isExpression.eq_of_starts ⟨inside, noBrace, isOther⟩ starts)
    have spelled :
        filling = '=' :: (['\x7b', '\x7b'] ++ (inside ++ closing)) := by
      rw [isOther, List.append_assoc]
      rfl
    -- Behind its start the filling has no equals sign, so nothing else in it
    -- can be a start.
    have plainRest : '=' ∉ ['\x7b', '\x7b'] ++ (inside ++ closing) := by
      simp [closing, noEquals]
    rw [spelled, List.cons_append] at notHere ⊢
    rw [Text.replaceAll_cons notHere,
      replaceAll_append_of_unmarked isExpression.opens
      (unmarked_of_no_equals plainRest)]
    rfl
  · refine replaceAll_append_of_unmarked isExpression.opens
      (unmarked_of_no_equals ?_)
    simp [isAccess, noEquals]

/-- Replacing an expression rewrites it in its own places and nothing else. -/
theorem replaceAll_joined
    (isExpression : IsExpression expression)
    (arePieces : ∀ piece ∈ pieces, IsPiece piece) :
    Text.replaceAll expression code (joined pieces) =
      joined (refilled (exchange expression code) pieces) := by
  induction pieces with
  | nil =>
      rfl
  | cons piece pieces inductionHypothesis =>
      obtain ⟨⟨isFilling, plain⟩, areOthers⟩ :=
        List.forall_mem_cons.mp arePieces
      have later : Text.replaceAll expression code (piece.2 ++ joined pieces) =
          piece.2 ++ joined (refilled (exchange expression code) pieces) := by
        rw [replaceAll_append_of_unmarked isExpression.opens
          (unmarked_of_absent plain (head?_joined areOthers)),
          inductionHypothesis areOthers]
      rw [joined_cons, refilled, List.map_cons, joined_cons, ← refilled,
        ← later, exchange]
      by_cases same : piece.1 = expression
      · rw [if_pos same, same, Text.replaceAll_append_self isExpression.ne_nil]
      · rw [if_neg same, replaceAll_append_of_isFilling isExpression isFilling
          same]

/-- The code for an expression, which is the same in every scope. -/
def codeOf (expression : List Char) : List Char :=
  ((renderText (.ofParameters []) (String.ofList expression)).1.toOption.map
    String.toList).getD []

/-- An expression with an access for its code, whatever the scope. -/
structure IsAccessed (expression : List Char) : Prop where
  isExpression : IsExpression expression
  code : ∃ more, '=' ∉ more ∧ codeOf expression = '$' :: more
  rendered : ∀ scope, (renderText scope (String.ofList expression)).1 =
    .ok (String.ofList (codeOf expression))

namespace IsAccessed

variable {start : List Char} {expressions : List (List Char)}

theorem arePieces_refilled
    (isAccessed : IsAccessed expression)
    (arePieces : ∀ piece ∈ pieces, IsPiece piece) :
    ∀ piece ∈ refilled (exchange expression (codeOf expression)) pieces,
    IsPiece piece := by
  refine List.forall_mem_map.mpr fun piece member => ?_
  obtain ⟨isFilling, plain⟩ := arePieces piece member
  refine ⟨?_, plain⟩
  dsimp only [exchange]
  split
  · exact .inr isAccessed.code
  · exact isFilling

/-- An access is no expression, so it is not replaced again. -/
theorem codeOf_not_mem
    (isAccessed : IsAccessed expression)
    (areAccessed : ∀ expression ∈ expressions, IsAccessed expression) :
    codeOf expression ∉ expressions := by
  intro member
  obtain ⟨more, _, codeIs⟩ := isAccessed.code
  obtain ⟨inside, _, isOther⟩ := (areAccessed _ member).isExpression
  rw [codeIs] at isOther
  cases isOther

/-- The first of several expressions makes room for its access. -/
theorem substitute_cons
    (isAccessed : IsAccessed expression)
    (scope : Scope)
    (plainStart : ¬ opening <:+: start)
    (arePieces : ∀ piece ∈ pieces, IsPiece piece) :
    (substitute scope (start ++ joined pieces) (expression :: expressions)).1 =
      (substitute (renderText scope (String.ofList expression)).2
        (start ++ joined (refilled (exchange expression (codeOf expression))
          pieces))
        expressions).1 := by
  have isCode := isAccessed.rendered scope
  rw [substitute]
  split
  · rename_i fault after made
    rw [made] at isCode
    cases isCode
  · rename_i code after made
    rw [made] at isCode
    obtain rfl := Except.ok.inj isCode
    rw [made, String.toList_ofList,
      replaceAll_append_of_unmarked isAccessed.isExpression.opens
      (unmarked_of_absent plainStart (head?_joined arePieces)),
      replaceAll_joined isAccessed.isExpression arePieces]

end IsAccessed

/-- Expressions are replaced by their accesses, each in its own places. -/
theorem substitute_joined
    {start : List Char}
    {expressions : List (List Char)}
    (scope : Scope)
    (plainStart : ¬ opening <:+: start)
    (arePieces : ∀ piece ∈ pieces, IsPiece piece)
    (areAccessed : ∀ expression ∈ expressions, IsAccessed expression) :
    (substitute scope (start ++ joined pieces) expressions).1 =
      .ok (start ++ joined (refilled
        (fun filling => if filling ∈
          expressions then codeOf filling else filling) pieces)) := by
  induction expressions generalizing scope pieces with
  | nil =>
      simp [substitute, refilled]
  | cons expression expressions inductionHypothesis =>
      obtain ⟨isAccessed, areOthers⟩ := List.forall_mem_cons.mp areAccessed
      have notLater := isAccessed.codeOf_not_mem areOthers
      rw [isAccessed.substitute_cons scope plainStart arePieces,
        inductionHypothesis _ (isAccessed.arePieces_refilled arePieces)
          areOthers]
      -- Both ways a filling comes to the same, whether it is the first
      -- expression or not.
      rw [refilled, refilled, List.map_map]
      refine congrArg (fun pieces => Except.ok (start ++ joined pieces))
        (List.map_congr_left ?_)
      intro piece _
      by_cases same : piece.1 = expression
      · simp [exchange, same, notLater]
      · simp [exchange, same]

end Rewriting

theorem shown_toList
    (text : String) :
    shown text.toList =
      if Text.startsWith text "$" then text else "\x22" ++ text ++ "\x22" := by
  have starts :
      Text.startsWith text "$" = true ↔ text.toList.head? = some '$' := by
    rw [Text.startsWith_iff, show "$".toList = ['$'] from rfl]
    cases text.toList <;> simp [eq_comm]
  rw [shown, String.ofList_toList]
  simp only [starts]
  split
  · rfl
  · rw [← String.toList_inj]
    simp [literal]

section Supported

variable {names : List String} {text : String}

theorem accessCode_eq
    (names : List String) :
    ∃ more, (accessCode names).toList = '$' :: more := by
  rw [accessCode, String.toList_append]
  exact ⟨_, rfl⟩

theorem Supported.codeOf_eq
    (supported : Supported names text) :
    codeOf text.toList = (accessCode names).toList := by
  rw [codeOf, String.ofList_toList, supported.renderText]
  rfl

theorem Supported.isFilling
    (supported : Supported names text) :
    IsFilling text.toList := by
  obtain ⟨first, rest, written, _, absent⟩ := supported.exists_middle
  exact .inl ⟨first :: rest, absent '\x7d' (by decide) (by decide),
    absent '=' (by decide) (by decide), written⟩

/-- A supported expression is replaced by the access along its names. -/
theorem Supported.isAccessed
    (supported : Supported names text) :
    IsAccessed text.toList where
  isExpression := by
    obtain ⟨first, rest, written, _, absent⟩ := supported.exists_middle
    exact ⟨first :: rest, absent '\x7d' (by decide) (by decide), written⟩
  code := by
    have noEquals : '=' ∉ (accessCode names).toList :=
      not_mem_accessCode (by decide) fun name member isEquals =>
        absurd (continuesIdentifier_of_isName (supported.isName name member) '='
          isEquals) (by decide)
    obtain ⟨more, codeIs⟩ := accessCode_eq names
    rw [codeIs, List.mem_cons, not_or] at noEquals
    exact ⟨more, noEquals.2, supported.codeOf_eq.trans codeIs⟩
  rendered scope := by
    rw [String.ofList_toList, supported.renderText, supported.codeOf_eq,
      String.ofList_toList]

theorem Supported.registers
    (supported : Supported names text) :
    registered? text.toList = some (names.headD "") ∧
    isUnsupported text.toList = false := by
  obtain ⟨inside, isInside, isAccess⟩ := supported.exists_meaning
  obtain ⟨name, rest, rfl⟩ := List.exists_cons_of_ne_nil supported.notNil
  simp [registered?, isUnsupported, isInside, isAccess]

end Supported

/-- An expression along a path, and the plain text behind it. -/
structure Segment where
  names : List String
  expression : String
  text : String
  supported : Supported names expression
  plain : ¬ opening <:+: text.toList

namespace Segment

variable {start : String} {segments : List Segment}

/-- The first name on the path of a segment. -/
def first (segment : Segment) : String :=
  segment.names.headD ""

/-- The text of segments behind a plain text. -/
def written (start : String) (segments : List Segment) : String :=
  start ++ String.join (segments.map fun segment =>
    segment.expression ++ segment.text)

/--
The text of segments behind a plain text, with an access in the place of each
expression.
-/
def translated (start : String) (segments : List Segment) : String :=
  start ++ String.join (segments.map fun segment =>
    accessCode segment.names ++ segment.text)

theorem toList_append_join
    (start : String)
    (filling : Segment → String)
    (segments : List Segment) :
    (start ++ String.join (segments.map fun segment =>
      filling segment ++ segment.text)).toList =
      start.toList ++ joined (segments.map fun segment =>
        ((filling segment).toList, segment.text.toList)) := by
  rw [String.toList_append, List.append_right_inj]
  induction segments with
  | nil =>
      rfl
  | cons segment segments inductionHypothesis =>
      rw [List.map_cons, String.join_cons, String.toList_append,
        inductionHypothesis, List.map_cons,
        joined_cons, String.toList_append, List.append_assoc]

theorem arePieces
    (segments : List Segment) :
    ∀ piece ∈ segments.map fun segment =>
      (segment.expression.toList, segment.text.toList), IsPiece piece :=
  List.forall_mem_map.mpr fun segment _ =>
    ⟨segment.supported.isFilling, segment.plain⟩

/--
The expressions that are found between plain texts are the ones written there.
-/
theorem expressionsIn_written
    (plainStart : ¬ opening <:+: start.toList)
    (segments : List Segment) :
    expressionsIn (written start segments).toList =
      segments.map fun segment => segment.expression.toList := by
  rw [written, toList_append_join, expressionsIn_append_of_unmarked
    (unmarked_of_absent plainStart (head?_joined (arePieces segments)))]
  induction segments with
  | nil =>
      rfl
  | cons segment segments inductionHypothesis =>
      obtain ⟨first, rest, expressionIs, _, absent⟩ :=
        segment.supported.exists_middle
      rw [List.map_cons, List.map_cons, joined_cons, expressionIs,
        expressionsIn_expression_append (List.cons_ne_nil first rest)
          (absent '\x7d' (by decide) (by decide)),
        expressionsIn_append_of_unmarked
          (unmarked_of_absent segment.plain
            (head?_joined (arePieces segments))),
        inductionHypothesis]

/-- Replacing the expressions of segments gives their translation. -/
theorem substitute_written
    (scope : Scope)
    (plainStart : ¬ opening <:+: start.toList)
    (segments : List Segment) :
    (substitute scope (written start segments).toList
        (segments.map fun segment => segment.expression.toList)).1 =
      .ok (translated start segments).toList := by
  have areAccessed : ∀ expression ∈ segments.map fun segment =>
      segment.expression.toList, IsAccessed expression :=
    List.forall_mem_map.mpr fun segment _ => segment.supported.isAccessed
  rw [written, toList_append_join,
    substitute_joined scope plainStart (arePieces segments) areAccessed,
    translated,
    toList_append_join, refilled, List.map_map]
  refine congrArg (fun pieces => Except.ok (start.toList ++ joined pieces))
    (List.map_congr_left fun segment member => ?_)
  have isListed : segment.expression.toList ∈ segments.map fun segment =>
      segment.expression.toList :=
    List.mem_map_of_mem member
  rw [Function.comp_apply, if_pos isListed, segment.supported.codeOf_eq]

theorem registeredIn_written
    (plainStart : ¬ opening <:+: start.toList)
    (notNil : segments ≠ []) :
    registeredIn (written start segments).toList = segments.map first := by
  rw [registeredIn, expressionsIn_written plainStart,
    if_neg (by simpa using notNil)]
  clear notNil
  induction segments with
  | nil =>
      rfl
  | cons segment segments inductionHypothesis =>
      obtain ⟨registers, isSupported⟩ := segment.supported.registers
      rw [List.map_cons, List.takeWhile_cons_of_pos (by simp [isSupported]),
        List.filterMap_cons, registers, inductionHypothesis]
      rfl

/--
Each expression by itself is turned into the access along its path.
Expressions between plain texts are turned into the same accesses between the
same texts, as they are if that starts with a dollar sign and in quotes if
not.  The scope gains the first names of the paths that it has not, and
nothing else.
-/
theorem renderMixed_written
    (plainStart : ¬ opening <:+: start.toList)
    (notNil : segments ≠ [])
    (scope : Scope) :
    (∀ segment ∈ segments, ∀ scope : Scope,
      onText renderText scope (.text segment.expression) =
        (.ok (.text (accessCode segment.names)),
          scope.register segment.first)) ∧
    ∃ after : Scope,
      onText renderMixed scope (.text (written start segments)) =
        (.ok (.text (if Text.startsWith (translated start segments) "$" then
            translated start segments
          else
            "\x22" ++ translated start segments ++ "\x22")), after) ∧
      after.used = scope.used ++ Scope.unseen scope.used (segments.map first) ∧
      after.parameters = scope.parameters ++
        (Scope.unseen (scope.parameters.map Prod.fst) (segments.map first)).map
          fun name => (name, .text "mixed") := by
  refine ⟨fun segment _ scope => ?_,
    (renderMixed scope (written start segments)).2, ?_, ?_⟩
  · rw [onText, segment.supported.renderText_eq]
    rfl
  · have found : expressionsIn (written start segments).toList ≠ [] := by
      rw [expressionsIn_written plainStart]
      simpa using notNil
    have made : (renderMixed scope (written start segments)).1 =
        .ok (shown (translated start segments).toList) := by
      rw [renderMixed_eq scope found, expressionsIn_written plainStart,
        substitute_written scope plainStart]
      rfl
    rw [onText, made, shown_toList]
    rfl
  · rw [renderMixed_registers, registeredIn_written plainStart notNil,
      Scope.foldl_register_eq]
    exact ⟨rfl, rfl⟩

/--
Two expressions next to each other and one that comes again, all close to
marker characters.
-/
def greeting : List Segment :=
  [{ names := ["msg"]
     expression := "=\x7b\x7b $json.body.msg \x7d\x7d"
     text := ", ="
     supported :=
      ⟨by decide, by decide, "body".toList, by decide, [' '], [' '], by decide,
        by decide, by decide⟩
     plain := by decide },
   { names := ["data", "id"]
     expression := "=\x7b\x7b$json.query.data.id\t\x7d\x7d"
     text := ""
     supported :=
      ⟨by decide, by decide, "query".toList, by decide, [], ['\t'], by decide,
        by decide, by decide⟩
     plain := by decide },
   { names := ["msg"]
     expression := "=\x7b\x7b $json.body.msg \x7d\x7d"
     text := " \x7d\x7d"
     supported :=
      ⟨by decide, by decide, "body".toList, by decide, [' '], [' '], by decide,
        by decide, by decide⟩
     plain := by decide }]

/--
The greeting is put in quotes, and registers two names where one parameter is
known.
-/
theorem renderMixed_written_greeting :
    ¬ opening <:+: "Oi ".toList ∧ greeting ≠ [] ∧
    ∃ after : Scope,
      onText renderMixed (.ofParameters [("id", .text "string")])
          (.text
            ("Oi =\x7b\x7b $json.body.msg \x7d\x7d, " ++
            "==\x7b\x7b$json.query.data.id\t\x7d\x7d" ++
            "=\x7b\x7b $json.body.msg \x7d\x7d \x7d\x7d")) =
        (.ok (.text
          ("\x22" ++ "Oi $this->params['msg'], =$this->params['data']['id']" ++
          "$this->params['msg'] \x7d\x7d" ++ "\x22")), after) ∧
      after.used = ["msg", "data"] ∧
      after.parameters.map Prod.fst = ["id", "msg", "data"] := by
  have plainStart : ¬ opening <:+: "Oi ".toList := by decide
  have notNil : greeting ≠ [] := List.cons_ne_nil _ _
  have writtenIs : written "Oi " greeting =
      "Oi =\x7b\x7b $json.body.msg \x7d\x7d, " ++
        "==\x7b\x7b$json.query.data.id\t\x7d\x7d" ++
        "=\x7b\x7b $json.body.msg \x7d\x7d \x7d\x7d" := by
    decide +kernel
  have translatedIs : translated "Oi " greeting =
      "Oi $this->params['msg'], =$this->params['data']['id']" ++
        "$this->params['msg'] \x7d\x7d" := by
    decide +kernel
  obtain ⟨_, after, made, used, parameters⟩ :=
    renderMixed_written plainStart notNil
      (.ofParameters [("id", .text "string")])
  rw [writtenIs, translatedIs, if_neg (by decide +kernel)] at made
  refine ⟨plainStart, notNil, after, made, ?_, ?_⟩
  · rw [used]
    decide +kernel
  · rw [parameters]
    decide +kernel

end Segment

section Whole

variable {content : String}

/--
A text that is one expression is turned into code as a whole, and the code is
then shown.
-/
theorem renderMixed_of_whole
    (scope : Scope)
    (notNil : inside ≠ [])
    (noBrace : '\x7d' ∉ inside)
    (contentIs : content.toList = opening ++ inside ++ closing) :
    renderMixed scope content =
      ((renderText scope content).1.map fun code => shown code.toList,
        (renderText scope content).2) := by
  have found : expressionsIn content.toList = [content.toList] := by
    have alone := expressionsIn_expression_append notNil noBrace []
    rwa [List.append_nil, ← contentIs] at alone
  have replaced : ∀ code : List Char,
      Text.replaceAll content.toList code content.toList = code := by
    intro code
    have whole := @Text.replaceAll_append_self content.toList code []
      (by simp [contentIs, opening])
    simpa [Text.replaceAll, Text.replaceAfter] using whole
  rw [renderMixed_eq scope (by simp [found]), found, substitute,
    String.ofList_toList]
  cases renderText scope content with
  | mk result after =>
      cases result with
      | ok code =>
          simp [substitute, replaced, Except.map]
      | error fault =>
          rfl

/--
What a text that is one expression is turned into, by the meaning of its
inside.
-/
theorem renderText_of_whole
    (scope : Scope)
    (noBrace : '\x7d' ∉ inside)
    (contentIs : content.toList = opening ++ inside ++ closing) :
    renderText scope content =
      match meaning (Text.trimmed inside) with
      | .access names =>
          (.ok (accessCode names), scope.register (names.headD ""))
      | .unsupported => (.error .unsupportedSource, scope)
      | .plain => (.ok (literal content.toList), scope) := by
  have whole : Text.trimmed content.toList = content.toList :=
    IsExpression.trimmed_eq ⟨inside, noBrace, contentIs⟩
  have isInside : inside? content.toList = some (Text.trimmed inside) :=
    inside?_eq_some_iff.mpr ⟨inside, contentIs, rfl⟩
  cases isMeant : meaning (Text.trimmed inside) <;>
    simp [renderText, whole, isInside, isMeant]

theorem shown_accessCode
    (names : List String) :
    shown (accessCode names).toList = accessCode names := by
  obtain ⟨more, codeIs⟩ := accessCode_eq names
  rw [shown, if_pos (by rw [codeIs]; rfl), String.ofList_toList]

theorem shown_literal
    (content : String) :
    literal content.toList = "\x22" ++ content ++ "\x22" ∧
      shown (literal content.toList).toList =
        "\x22\x22" ++ content ++ "\x22\x22" := by
  have quoted :
      ∀ text : List Char, (literal text).toList = '\x22' :: text ++ ['\x22'] :=
    fun text => String.toList_ofList
  refine ⟨?_, ?_⟩
  · rw [← String.toList_inj, quoted]
    simp
  · rw [shown, if_neg (by simp [quoted]), ← String.toList_inj, quoted, quoted]
    simp

/--
A text that is one expression leaves the same scope whether it is looked at as
a whole or for the expressions in it.  The outcome is the same too, an access
or a fault, if and only if the inside names a source between dots or goes to
the data directly.  Any other text is quoted as a whole, and quoted twice if
it is looked at for the expressions in it.
-/
theorem renderMixed_eq_renderText_iff
    (scope : Scope)
    (notNil : inside ≠ [])
    (noBrace : '\x7d' ∉ inside)
    (contentIs : content.toList = opening ++ inside ++ closing) :
    (onText renderMixed scope (.text content)).2 =
      (onText renderText scope (.text content)).2 ∧
    ((onText renderMixed scope (.text content)).1 =
      (onText renderText scope (.text content)).1 ↔
      NamesSource (Text.trimmed inside) ∨ GoesDirect (Text.trimmed inside)) ∧
    (¬ (NamesSource (Text.trimmed inside) ∨ GoesDirect (Text.trimmed inside)) →
      onText renderText scope (.text content) =
          (.ok (.text ("\x22" ++ content ++ "\x22")), scope) ∧
        onText renderMixed scope (.text content) =
          (.ok (.text ("\x22\x22" ++ content ++ "\x22\x22")), scope)) := by
  have rendered := renderText_of_whole scope noBrace contentIs
  have mixed := renderMixed_of_whole scope notNil noBrace contentIs
  by_cases isPlain : meaning (Text.trimmed inside) = .plain
  · simp only [isPlain] at rendered
    -- A literal does not start with a dollar sign, so it is put in quotes
    -- again.
    obtain ⟨once, twice⟩ := shown_literal content
    have direct : onText renderText scope (.text content) =
        (.ok (.text ("\x22" ++ content ++ "\x22")), scope) := by
      rw [onText, rendered, once]
      rfl
    have quoted : onText renderMixed scope (.text content) =
        (.ok (.text ("\x22\x22" ++ content ++ "\x22\x22")), scope) := by
      rw [onText, mixed, rendered, ← twice]
      rfl
    have different :
        "\x22\x22" ++ content ++ "\x22\x22" ≠ "\x22" ++ content ++ "\x22" := by
      intro same
      simpa using congrArg (fun code => code.toList.length) same
    rw [direct, quoted]
    refine ⟨rfl, iff_of_false (fun same => different ?_)
      (meaning_eq_plain_iff.mp isPlain), fun _ => ⟨rfl, rfl⟩⟩
    exact Value.text.inj (Except.ok.inj same)
  · have same : renderMixed scope content = renderText scope content := by
      rw [mixed, rendered]
      cases isMeant : meaning (Text.trimmed inside) with
      | access names =>
          simp only [Except.map, shown_accessCode]
      | unsupported =>
          rfl
      | plain =>
          exact absurd isMeant isPlain
    have isUnderstood := not_not.mp (mt meaning_eq_plain_iff.mpr isPlain)
    have agree : onText renderMixed scope (.text content) =
        onText renderText scope (.text content) := by
      rw [onText, same, onText]
    rw [agree]
    exact ⟨rfl, iff_of_true rfl isUnderstood, absurd isUnderstood⟩

/--
An expression that is not understood comes out with one pair of quotes, or
with two.
-/
theorem renderMixed_ne_renderText_now :
    " $now ".toList ≠ [] ∧ '\x7d' ∉ " $now ".toList ∧
    onText renderText (.ofParameters []) (.text "=\x7b\x7b $now \x7d\x7d") =
      (.ok (.text ("\x22" ++ "=\x7b\x7b $now \x7d\x7d" ++ "\x22")),
        .ofParameters []) ∧
    onText renderMixed (.ofParameters []) (.text "=\x7b\x7b $now \x7d\x7d") =
      (.ok (.text ("\x22\x22" ++ "=\x7b\x7b $now \x7d\x7d" ++ "\x22\x22")),
        .ofParameters []) := by
  have notNil : " $now ".toList ≠ [] := by decide
  have noBrace : '\x7d' ∉ " $now ".toList := by decide
  have isPlain : meaning (Text.trimmed " $now ".toList) = .plain := by
    decide +kernel
  exact ⟨notNil, noBrace, (renderMixed_eq_renderText_iff (.ofParameters [])
    notNil noBrace rfl).2.2 (meaning_eq_plain_iff.mp isPlain)⟩

end Whole

end Expression

end Flowgen
