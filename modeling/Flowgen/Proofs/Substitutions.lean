import Flowgen.Proofs.SupportedExpressions

namespace Flowgen

/-!
# Putting code in the place of expressions

The expressions in a text are replaced one after the other, each wherever it
stands.  An access has no closing braces, and a literal has two quotes more
than its expression.  So the text that comes out is never the one that went
in, unless there was no expression in it.
-/

namespace Text

variable {pattern replacement text : List Char}

/--
Replacing a pattern a number of times exchanges its characters for those of
the replacement.
-/
theorem exists_count_replaceAll
    (notNil : pattern ≠ []) :
    ∃ times : Nat, (pattern <:+: text → 0 < times) ∧
      ∀ character, (replaceAll pattern replacement text).count character +
        times * pattern.count character =
          text.count character + times * replacement.count character := by
  induction size :
    text.length using Nat.strong_induction_on generalizing text with
  | _ length inductionHypothesis =>
      cases text with
      | nil =>
          refine ⟨0, fun found => absurd (List.infix_nil.mp found) notNil,
            fun character => ?_⟩
          simp [replaceAll, replaceAfter]
      | cons first rest =>
          by_cases starts : pattern <+: first :: rest
          · obtain ⟨more, whole⟩ := starts
            have shorter : more.length < length := by
              rw [← size, ← whole, List.length_append]
              have := List.length_pos_of_ne_nil notNil
              omega
            obtain ⟨times, _, counts⟩ := inductionHypothesis _ shorter rfl
            refine ⟨times + 1, fun _ => times.succ_pos, fun character => ?_⟩
            have counted := counts character
            rw [← whole, replaceAll_append_self notNil, List.count_append,
              List.count_append, Nat.succ_mul, Nat.succ_mul]
            omega
          · obtain ⟨times, found, counts⟩ :=
              inductionHypothesis rest.length (by simp [← size]) rfl
            refine ⟨times, fun inText => ?_, fun character => ?_⟩
            · rcases List.infix_cons_iff.mp inText with atStart | behind
              · exact absurd atStart starts
              · exact found behind
            · have counted := counts character
              rw [replaceAll_cons starts, List.count_cons, List.count_cons]
              omega

theorem replaceAll_eq_self
    (absent : ¬ pattern <:+: text) :
    replaceAll pattern replacement text = text := by
  induction text with
  | nil =>
      rfl
  | cons character text inductionHypothesis =>
      rw [replaceAll_cons fun starts => absent starts.isInfix,
        inductionHypothesis fun found => absent (List.infix_cons found)]

end Text

namespace Expression

variable {text inside expression : List Char} {names : List String}

/-- A text between the markers of an expression, without closing braces. -/
def IsExpression (expression : List Char) : Prop :=
  ∃ inside, '\x7d' ∉ inside ∧ expression = opening ++ inside ++ closing

theorem isExpression_of_expressionAt?
    (found : expressionAt? text = some expression) :
    IsExpression expression ∧ expression <+: text := by
  unfold expressionAt? at found
  split at found
  · cases found
  · rename_i rest starts
    dsimp only at found
    split at found
    · rename_i isClosed
      rw [Bool.and_eq_true, List.isPrefixOf_iff_prefix] at isClosed
      obtain ⟨more, closed⟩ := isClosed.2
      cases found
      refine ⟨⟨_, fun member => ?_, rfl⟩, more, ?_⟩
      · have notClosing := List.mem_takeWhile_imp member
        simp at notClosing
      · have restIs :
            rest = rest.takeWhile (fun character => character != '\x7d') ++
            (closing ++ more) := by
          rw [closed]
          exact (List.take_append_drop _ rest).symm.trans
            (congrArg (· ++ _) (List.prefix_iff_eq_take.mp
              (List.takeWhile_prefix _)).symm)
        rw [Text.after?_eq_some.mp starts]
        conv_rhs => rw [restIs]
        simp only [List.append_assoc]
    · cases found

/--
The expressions that are found in a text are expressions, and stand in it.
-/
theorem isExpression_of_mem_expressionsAfter
    {skip : Nat}
    (member : expression ∈ expressionsAfter skip text) :
    IsExpression expression ∧ expression <:+: text := by
  induction text generalizing skip with
  | nil =>
      simp [expressionsAfter] at member
  | cons character text inductionHypothesis =>
      cases skip with
      | succ skip =>
          rw [expressionsAfter] at member
          obtain ⟨isExpression, found⟩ := inductionHypothesis member
          exact ⟨isExpression, List.infix_cons found⟩
      | zero =>
          rw [expressionsAfter] at member
          split at member
          · rename_i first isFirst
            rcases List.mem_cons.mp member with rfl | isLater
            · obtain ⟨isExpression, starts⟩ :=
                isExpression_of_expressionAt? isFirst
              exact ⟨isExpression, starts.isInfix⟩
            · obtain ⟨isExpression, found⟩ := inductionHypothesis isLater
              exact ⟨isExpression, List.infix_cons found⟩
          · obtain ⟨isExpression, found⟩ := inductionHypothesis member
            exact ⟨isExpression, List.infix_cons found⟩

section Paths

variable {path marker : List Char}

theorem infix_of_restOfLine?
    (found : restOfLine? text = some path) :
    path <:+: text := by
  simp only [restOfLine?] at found
  split at found
  · cases found
  · cases found
    exact (List.takeWhile_prefix _).isInfix

theorem infix_of_pathAt?
    (found : pathAt? marker text = some path) :
    path <:+: text := by
  simp only [pathAt?, Option.bind_eq_some_iff] at found
  obtain ⟨below, ⟨behind, isMarked, isSource⟩, isLine⟩ := found
  obtain ⟨source, _, behindIs⟩ := Parameters.afterSource?_eq_some.mp isSource
  rw [Text.after?_eq_some.mp isMarked, behindIs]
  refine (infix_of_restOfLine? isLine).trans (List.IsSuffix.isInfix ?_)
  exact ⟨marker ++ (source ++ ['.']), by simp⟩

theorem infix_of_findPath?
    (found : findPath? marker text = some path) :
    path <:+: text := by
  induction text with
  | nil =>
      cases found
  | cons character text inductionHypothesis =>
      rw [findPath?] at found
      split at found
      · rename_i isHere
        cases found
        exact infix_of_pathAt? isHere
      · exact List.infix_cons (inductionHypothesis found)

/-- The names on a path are parts of it, and there is one at least. -/
theorem pathNames_infix
    (path : List Char) :
    pathNames path ≠ [] ∧ ∀ name ∈ pathNames path, name.toList <:+: path := by
  rw [pathNames, Text.splitOn_singleton]
  refine ⟨by simp [List.splitOn_ne_nil], ?_⟩
  simp only [List.forall_mem_map, String.toList_ofList]
  intro piece isPiece
  have found : piece <:+: List.intercalate ['.'] (path.splitOn '.') :=
    Template.infix_intercalate isPiece
  rwa [List.intercalate_splitOn] at found

/-- The names of an access are parts of the inside that it is made for. -/
theorem names_of_meaning
    (isAccess : meaning inside = .access names) :
    names ≠ [] ∧ ∀ name ∈ names, name.toList <:+: inside := by
  have onPath : ∃ path, path <:+: inside ∧ names = pathNames path := by
    unfold meaning at isAccess
    split at isAccess
    · rename_i path isPath
      refine ⟨path, ?_, (Meaning.access.inj isAccess).symm⟩
      unfold sourcePath? at isPath
      split at isPath
      · rename_i found
        cases isPath
        exact infix_of_findPath? found
      · exact infix_of_findPath? isPath
    · split at isAccess
      · cases isAccess
      · split at isAccess
        · rename_i path isPath
          refine ⟨path, ?_, (Meaning.access.inj isAccess).symm⟩
          obtain ⟨behind, isMarked, isLine⟩ := Option.bind_eq_some_iff.mp isPath
          rw [Text.after?_eq_some.mp isMarked]
          exact List.infix_append_of_infix_right (infix_of_restOfLine? isLine)
        · cases isAccess
  obtain ⟨path, inInside, rfl⟩ := onPath
  obtain ⟨notNil, inPath⟩ := pathNames_infix path
  exact ⟨notNil, fun name member => (inPath name member).trans inInside⟩

end Paths

/--
The characters of an access are those of its names, and those around them.
-/
theorem not_mem_accessCode
    {character : Char}
    (outside : character ∉ "$this->params['']".toList)
    (notInNames : ∀ name ∈ names, character ∉ name.toList) :
    character ∉ (accessCode names).toList := by
  have around : character ∉ "$this->params".toList ∧ character ∉ "['".toList ∧
      character ∉ "']".toList := by
    rw [show "$this->params['']".toList =
      "$this->params".toList ++ ("['".toList ++ "']".toList)
      from rfl] at outside
    simpa only [List.mem_append, not_or] using outside
  rw [accessCode, String.toList_append, List.mem_append, not_or]
  refine ⟨around.1, ?_⟩
  induction names with
  | nil =>
      simp
  | cons name names inductionHypothesis =>
      obtain ⟨notFirst, notRest⟩ := List.forall_mem_cons.mp notInNames
      rw [List.map_cons, String.join_cons]
      simp only [String.toList_append, List.mem_append, not_or]
      exact ⟨⟨⟨around.2.1, notFirst⟩, around.2.2⟩, inductionHypothesis notRest⟩

namespace IsExpression

theorem trimmed_eq
    (isExpression : IsExpression expression) :
    Text.trimmed expression = expression := by
  obtain ⟨inside, _, rfl⟩ := isExpression
  refine Text.trimmed_eq_self (fun character isFirst => ?_) fun character
    isLast => ?_
  · cases isFirst
    decide
  · rw [List.getLast?_append, show closing.getLast? = some '\x7d' from rfl]
      at isLast
    cases isLast
    decide

theorem brace_not_mem_inside
    (isExpression : IsExpression expression)
    (isInside : inside? expression = some inside) :
    '\x7d' ∉ inside := by
  obtain ⟨middle, noBrace, rfl⟩ := isExpression
  obtain ⟨same, sameIs, rfl⟩ := inside?_eq_some_iff.mp isInside
  rw [List.append_left_inj, List.append_right_inj] at sameIs
  subst sameIs
  intro member
  apply noBrace
  rw [Text.trimmed, Text.dropStart, Text.dropEnd, List.mem_reverse] at member
  exact (List.dropWhile_sublist _).subset
    (List.mem_reverse.mp ((List.dropWhile_sublist _).subset member))

/--
The code for an expression is an access without closing braces, or the
expression in quotes.
-/
theorem renderText_cases
    {scope after : Scope}
    {code : String}
    (isExpression : IsExpression expression)
    (rendered : renderText scope (String.ofList expression) =
      (.ok code, after)) :
    '\x7d' ∉ code.toList ∨ code.toList = '\x22' :: expression ++ ['\x22'] := by
  rw [renderText, String.toList_ofList, isExpression.trimmed_eq] at rendered
  split at rendered
  · cases rendered
    exact .inr String.toList_ofList
  · rename_i inside isInside
    split at rendered
    · rename_i names isAccess
      cases rendered
      refine .inl (not_mem_accessCode (by decide) fun name member inName => ?_)
      exact isExpression.brace_not_mem_inside isInside
        (((names_of_meaning isAccess).2 name member).subset inName)
    · cases rendered
    · cases rendered
      exact .inr String.toList_ofList

theorem count_brace
    (isExpression : IsExpression expression) :
    expression.count '\x7d' = 2 := by
  obtain ⟨inside, noBrace, rfl⟩ := isExpression
  simp [opening, closing, List.count_eq_zero_of_not_mem noBrace]

theorem ne_nil
    (isExpression : IsExpression expression) :
    expression ≠ [] := by
  rintro rfl
  cases isExpression.count_brace

end IsExpression

variable {scope after : Scope}

/--
A text that has lost closing braces, or has as many as before and has gained
quotes.
-/
def Marked (before after : List Char) : Prop :=
  after.count '\x7d' < before.count '\x7d' ∨
    after.count '\x7d' = before.count '\x7d' ∧
    before.count '\x22' < after.count '\x22'

theorem Marked.trans
    {first second third : List Char}
    (one : Marked first second)
    (two : Marked second third) :
    Marked first third := by
  unfold Marked at one two ⊢
  omega

theorem Marked.ne
    (marked : Marked text expression) :
    expression ≠ text := by
  rintro rfl
  unfold Marked at marked
  omega

/--
Putting its code in the place of an expression marks a text that the
expression stands in.
-/
theorem marked_replaceAll
    {code : String}
    (isExpression : IsExpression expression)
    (rendered : renderText scope (String.ofList expression) = (.ok code, after))
    (found : expression <:+: text) :
    Marked text (Text.replaceAll expression code.toList text) := by
  obtain ⟨times, replaced, counts⟩ :=
    @Text.exists_count_replaceAll expression code.toList text
      isExpression.ne_nil
  have isReplaced := replaced found
  have braces := counts '\x7d'
  have quotes := counts '\x22'
  rw [isExpression.count_brace] at braces
  rcases isExpression.renderText_cases rendered with isAccess | isLiteral
  · rw [List.count_eq_zero_of_not_mem isAccess] at braces
    exact .inl (by omega)
  · have literalBraces : code.toList.count '\x7d' = 2 := by
      simp [isLiteral, isExpression.count_brace]
    have literalQuotes :
        code.toList.count '\x22' = expression.count '\x22' + 2 := by
      simp [isLiteral]
    rw [literalBraces] at braces
    rw [literalQuotes, Nat.mul_add] at quotes
    exact .inr ⟨by omega, by omega⟩

/--
Putting code in the place of expressions leaves a text as it is, or marks it.
-/
theorem substitute_cases
    {expressions : List (List Char)}
    {result : List Char}
    (areExpressions : ∀ expression ∈ expressions, IsExpression expression)
    (made : substitute scope text expressions = (.ok result, after)) :
    result = text ∨ Marked text result := by
  induction expressions generalizing scope text with
  | nil =>
      cases made
      exact .inl rfl
  | cons expression expressions inductionHypothesis =>
      obtain ⟨isExpression, areOthers⟩ := List.forall_mem_cons.mp areExpressions
      rw [substitute] at made
      split at made
      · cases made
      · rename_i code between rendered
        have rest := inductionHypothesis areOthers made
        by_cases found : expression <:+: text
        · have marked := marked_replaceAll isExpression rendered found
          rcases rest with rfl | later
          · exact .inr marked
          · exact .inr (marked.trans later)
        · rwa [Text.replaceAll_eq_self found] at rest

/-- A text with an expression in it does not come out as it went in. -/
theorem substitute_ne_self
    {result : List Char}
    (notNil : expressionsIn text ≠ [])
    (made : substitute scope text (expressionsIn text) = (.ok result, after)) :
    result ≠ text := by
  have areExpressions : ∀ expression ∈ expressionsIn text,
      IsExpression expression ∧ expression <:+: text :=
    fun expression member => isExpression_of_mem_expressionsAfter member
  obtain ⟨expression, expressions, whole⟩ := List.exists_cons_of_ne_nil notNil
  rw [whole] at made areExpressions
  obtain ⟨⟨isExpression, found⟩, areOthers⟩ :=
    List.forall_mem_cons.mp areExpressions
  rw [substitute] at made
  split at made
  · cases made
  · rename_i code between rendered
    have marked := marked_replaceAll isExpression rendered found
    rcases substitute_cases (fun other member => (areOthers other member).1)
      made with rfl | later
    · exact marked.ne
    · exact (marked.trans later).ne

/--
The code that a text with code in it is shown as: an access as it is, all else
in quotes.
-/
def shown (result : List Char) : String :=
  if result.head? = some '$' then String.ofList result else literal result

/-- A text with expressions in it has their code put in their places. -/
theorem renderMixed_eq
    {content : String}
    (scope : Scope)
    (notNil : expressionsIn content.toList ≠ []) :
    renderMixed scope content =
      ((substitute scope content.toList (expressionsIn content.toList)).1.map
        shown,
        (substitute scope content.toList
          (expressionsIn content.toList)).2) := by
  obtain ⟨expression, member⟩ := List.exists_mem_of_ne_nil _ notNil
  obtain ⟨⟨inside, _, expressionIs⟩, found⟩ :=
    isExpression_of_mem_expressionsAfter member
  have opened : opening <:+: content.toList := by
    refine List.IsInfix.trans ?_ found
    exact ⟨[], inside ++ closing, by simp [expressionIs]⟩
  have closed : closing <:+: content.toList := by
    refine List.IsInfix.trans ?_ found
    rw [expressionIs]
    exact List.infix_append_right
  unfold renderMixed
  dsimp only
  rw [if_pos (by
    rw [Bool.and_eq_true, Text.occurs_iff, Text.occurs_iff]
    exact ⟨opened, closed⟩)]
  split
  · rename_i fault after made
    rw [made]
    rfl
  · rename_i result after made
    rw [made, if_neg (substitute_ne_self notNil made), Except.map, shown]
    split <;> rfl

end Expression

end Flowgen
