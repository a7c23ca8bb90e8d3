import Flowgen.Proofs.DecisiveAnswers
import Flowgen.Proofs.SupportedExpressions

namespace Flowgen

/-!
# Choosing workflows by their numbers

An answer chooses workflows if it lists numbers of workflows between commas
and nothing else.  The first answer that does so, or that cancels, decides;
the workflows come in the order of their numbers in it, as often as they are
listed.
-/

namespace Text

section Pieces

variable {separator : Char} {blank : List Char}

theorem map_trimmed_splitOn_append_left
    (firm : isBlank separator = false)
    (isBlank : ∀ character ∈ blank, isBlank character = true)
    (text : List Char) :
    (splitOn [separator] (blank ++ text)).map trimmed =
      (splitOn [separator] text).map trimmed := by
  have noSeparator : separator ∉ blank :=
    fun member => by simp [isBlank _ member] at firm
  have trimmedLead : ∀ piece, trimmed (blank ++ piece) = trimmed piece := by
    intro piece
    simpa using Template.trimmed_append isBlank (by simp : ∀ character ∈ [], _)
  rw [splitOn_singleton, splitOn_singleton]
  by_cases member : separator ∈ text
  · obtain ⟨first, rest, rfl, notInFirst⟩ := List.eq_append_cons_of_mem member
    rw [← List.append_assoc, List.splitOn_append_cons_self_of_not_mem
      (by simp [*]),
      List.splitOn_append_cons_self_of_not_mem notInFirst, List.map_cons,
      List.map_cons, trimmedLead]
  · rw [List.splitOn_eq_singleton (by simp [*]),
      List.splitOn_eq_singleton member,
      List.map_singleton, List.map_singleton, trimmedLead]

theorem map_trimmed_splitOn_append_right
    (firm : isBlank separator = false)
    (isBlank : ∀ character ∈ blank, isBlank character = true)
    (text : List Char) :
    (splitOn [separator] (text ++ blank)).map trimmed =
      (splitOn [separator] text).map trimmed := by
  have noSeparator : separator ∉ blank :=
    fun member => by simp [isBlank _ member] at firm
  have trimmedTrail : ∀ piece, trimmed (piece ++ blank) = trimmed piece := by
    intro piece
    simpa using Template.trimmed_append (by simp : ∀ character ∈ [], _) isBlank
  rw [splitOn_singleton, splitOn_singleton]
  by_cases member : separator ∈ text
  · obtain ⟨front, last, rfl, noneInLast⟩ := exists_last member
    have noneBehind : separator ∉ last ++ blank := by
      simp [noneInLast, noSeparator]
    rw [List.append_assoc, List.cons_append, List.splitOn_append_cons_self,
      List.splitOn_append_cons_self, List.splitOn_eq_singleton noneInLast,
      List.splitOn_eq_singleton noneBehind, List.map_append, List.map_append,
      List.map_singleton,
      List.map_singleton, trimmedTrail]
  · rw [List.splitOn_eq_singleton (by simp [*]),
      List.splitOn_eq_singleton member,
      List.map_singleton, List.map_singleton, trimmedTrail]

end Pieces

end Text

theorem mapM_eq_ok_iff
    {action : α → Except ε β}
    {items : List α}
    {results : List β} :
    items.mapM action = .ok results ↔
      List.Forall₂ (fun item result => action item = .ok result) items
        results := by
  induction items generalizing results with
  | nil =>
      rw [List.mapM_nil, pure_eq_ok, List.forall₂_nil_left_iff, eq_comm]
  | cons item items inductionHypothesis =>
      rw [List.mapM_cons, bind_eq_ok, List.forall₂_cons_left_iff]
      simp only [bind_eq_ok, pure_eq_ok, inductionHypothesis]
      constructor
      · rintro ⟨result, isResult, others, areOthers, rfl⟩
        exact ⟨result, others, isResult, areOthers, rfl⟩
      · rintro ⟨result, others, isResult, areOthers, rfl⟩
        exact ⟨result, isResult, others, areOthers, rfl⟩

theorem forall₂_eq_some_iff
    {result? : α → Option β}
    {items : List α}
    {results : List β} :
    List.Forall₂ (fun item result => result? item = some result) items results ↔
      (items.filter fun item => (result? item).isNone).isEmpty = true ∧
        items.filterMap result? = results := by
  induction items generalizing results with
  | nil =>
      simp [List.forall₂_nil_left_iff, eq_comm]
  | cons item items inductionHypothesis =>
      rw [List.forall₂_cons_left_iff, List.filterMap_cons, List.filter_cons]
      cases isResult : result? item with
      | none =>
          simp
      | some result =>
          simp only [inductionHypothesis, Option.isNone_some,
            Bool.false_eq_true, if_false, Option.some.injEq]
          constructor
          · rintro ⟨_, _, rfl, ⟨noneOut, rfl⟩, rfl⟩
            exact ⟨noneOut, rfl⟩
          · rintro ⟨noneOut, rfl⟩
            exact ⟨result, _, rfl, ⟨noneOut, rfl⟩, rfl⟩

namespace Selection

open Session

/--
The pieces of an answer between commas, without the white space around them.
-/
def typedPieces (text : String) : List String :=
  (Text.split text ",").map Text.trim

/-- White space around an answer is white space around one of its pieces. -/
theorem typedPieces_trim
    (text : String) :
    typedPieces (Text.trim text) = typedPieces text := by
  have pieces : ∀ text : String, typedPieces text =
      ((Text.splitOn [','] text.toList).map Text.trimmed).map
        String.ofList := by
    intro text
    rw [typedPieces, Text.split, List.map_map, List.map_map]
    exact List.map_congr_left fun piece _ => by simp [Text.trim]
  obtain ⟨lead, trail, textIs, blankLead, blankTrail⟩ :=
    Text.exists_blank_around text.toList
  have firm : Text.isBlank ',' = false := by decide
  rw [pieces, pieces, Text.trim, String.toList_ofList]
  conv_rhs => rw [textIs, Text.map_trimmed_splitOn_append_left firm blankLead,
    Text.map_trimmed_splitOn_append_right firm blankTrail]

/--
A text that spells the number of a workflow, where the workflows are counted
from one.
-/
def Numbers (items : List Value) (piece : String) (item : Value) : Prop :=
  ∃ number : Int, Numeral.integer piece = .ok number ∧ 1 ≤ number ∧
    number ≤ items.length ∧ items[(number - 1).toNat]? = some item

/-- An answer that decides which workflows are chosen. -/
inductive WorkflowChoice (items : List Value) : Answer → List Value → Prop where
  | listed
      {text : String}
      {chosen : List Value}
      (notBlank : Text.trim text ≠ "")
      (numbered : List.Forall₂ (Numbers items) (typedPieces text) chosen) :
      WorkflowChoice items (.typed text) chosen
  | cancelled
      (message : String) :
      WorkflowChoice items (.interrupt message) []

section Judging

variable {items chosen : List Value} {numbers : List Int}

/-- There is a workflow with each number from one to the number of workflows. -/
theorem numbered?_eq_some_iff
    {number : Int}
    {item : Value} :
    numbered? items number = some item ↔
      1 ≤ number ∧ number ≤ items.length ∧
      items[(number - 1).toNat]? = some item := by
  rw [numbered?]
  split
  · rename_i isPositive
    refine ⟨fun isItem => ⟨isPositive, ?_, isItem⟩, fun facts => facts.2.2⟩
    have inside := (List.getElem?_eq_some_iff.mp isItem).1
    omega
  · rename_i notPositive
    simp [notPositive]

theorem typedNumbers_eq_ok_iff
    {answer : String} :
    typedNumbers answer = .ok numbers ↔
      List.Forall₂ (fun piece number => Numeral.integer piece = .ok number)
        (typedPieces answer) numbers := by
  rw [typedNumbers, mapM_eq_ok_iff, typedPieces, List.forall₂_map_left_iff]

/-- Numbers choose workflows if there is a workflow with each of them. -/
theorem judgeNumbers_eq_some_iff :
    (judgeNumbers items numbers).result? = some chosen ↔
      List.Forall₂ (fun number item => numbered? items number = some item)
        numbers chosen := by
  rw [forall₂_eq_some_iff, judgeNumbers]
  split
  · rename_i noneInvalid
    simp [noneInvalid, Verdict.result?]
  · rename_i someInvalid
    simp [someInvalid, Verdict.result?]

/-- The pieces of an answer number workflows if they spell numbers that do. -/
theorem forall₂_numbers_iff
    {pieces : List String} :
    List.Forall₂ (Numbers items) pieces chosen ↔
      ∃ numbers, List.Forall₂ (fun piece number =>
          Numeral.integer piece = .ok number) pieces numbers ∧
        List.Forall₂ (fun number item => numbered? items number = some item)
          numbers chosen := by
  induction pieces generalizing chosen with
  | nil =>
      simp [List.forall₂_nil_left_iff]
  | cons piece pieces inductionHypothesis =>
      simp only [List.forall₂_cons_left_iff, inductionHypothesis]
      constructor
      · rintro ⟨item, others, ⟨number, isNumber, isItem⟩,
          ⟨numbers, areNumbers, areOthers⟩, rfl⟩
        exact ⟨number :: numbers, ⟨number, numbers, isNumber, areNumbers, rfl⟩,
          .cons (numbered?_eq_some_iff.mpr isItem) areOthers⟩
      · rintro ⟨_, ⟨number, numbers, isNumber, areNumbers, rfl⟩, areItems⟩
        obtain ⟨item, others, isItem, areOthers, rfl⟩ :=
          List.forall₂_cons_left_iff.mp areItems
        exact ⟨item, others, ⟨number, isNumber,
          numbered?_eq_some_iff.mp isItem⟩,
          ⟨numbers, areNumbers, areOthers⟩, rfl⟩

/-- The answers that settle the question are those that choose. -/
theorem judgeWorkflows_eq_some_iff
    (items : List Value)
    (answer : Answer)
    (chosen : List Value) :
    (judgeWorkflows items answer).result? = some chosen ↔
    WorkflowChoice items answer chosen := by
  cases answer with
  | typed text =>
      have choice : WorkflowChoice items (.typed text) chosen ↔
          Text.trim text ≠ "" ∧ List.Forall₂ (Numbers items) (typedPieces text)
            chosen := by
        constructor
        · rintro ⟨notBlank, numbered⟩
          exact ⟨notBlank, numbered⟩
        · exact fun facts => .listed facts.1 facts.2
      rw [choice, judgeWorkflows, ← typedPieces_trim, forall₂_numbers_iff]
      simp only [← typedNumbers_eq_ok_iff, ← judgeNumbers_eq_some_iff]
      by_cases isBlank : Text.trim text = ""
      · simp [isBlank, Verdict.result?]
      · rw [if_neg isBlank]
        cases spelled : typedNumbers (Text.trim text) with
        | error fault =>
            simp [Verdict.result?]
        | ok numbers =>
            simp [isBlank]
  | interrupt message =>
      constructor
      · rintro ⟨⟩
        exact .cancelled message
      · rintro ⟨⟩
        rfl
  | endOfInput message =>
      constructor
      · rintro ⟨⟩
      · rintro ⟨⟩

end Judging

section Choosing

variable {items : List Value}

/-- Objects can be shown, whatever their fields are. -/
theorem announces_showNumbered
    (areObjects : ∀ item ∈ items, item.kind = .object)
    (number : Nat) :
    Announces () (showNumbered number items) := by
  induction items generalizing number with
  | nil =>
      exact .pure ()
  | cons item items inductionHypothesis =>
      obtain ⟨isObject, areRest⟩ := List.forall_mem_cons.mp areObjects
      exact .bind (.lift (Value.get_eq_ok.mpr ⟨isObject, rfl⟩))
        (.bind (.lift (Value.get_eq_ok.mpr ⟨isObject, rfl⟩))
          (.bind (.print _) (inductionHypothesis areRest (number + 1))))

theorem announces_showWorkflows
    (notNil : items ≠ [])
    (areObjects : ∀ item ∈ items, item.kind = .object) :
    Announces () (showWorkflows (.list items)) := by
  have isTruthy : (Value.list items).isTruthy = true := by
    simpa [Value.isTruthy] using notNil
  rw [showWorkflows, if_pos isTruthy]
  exact .bind (.print _) (.bind (.print _) (.bind (.print _) (.bind (.lift rfl)
    (.bind (announces_showNumbered areObjects 1) (.print _)))))

/-- The question for workflows is decided by the first answer that chooses. -/
theorem decidedBy_chooseWorkflows
    (notNil : items ≠ [])
    (areObjects : ∀ item ∈ items, item.kind = .object) :
    DecidedBy (WorkflowChoice items) (chooseWorkflows (.list items)) := by
  have isTruthy : (Value.list items).isTruthy = true := by
    simpa [Value.isTruthy] using notNil
  rw [chooseWorkflows, if_pos isTruthy]
  exact .after_announces (announces_showWorkflows notNil areObjects)
    (.after_announces (.lift rfl)
      (decidedBy_askUntil _ (judgeWorkflows_eq_some_iff items)))

/--
Among workflows, the first answer that lists numbers of them, or that cancels,
is the last one taken and gives the result: the workflows with these numbers
in their order, or none.  Without such an answer all answers are taken, and a
further one is asked for.
-/
theorem chooseWorkflows_takes_first_choice
    (notNil : items ≠ [])
    (areObjects : ∀ item ∈ items, item.kind = .object)
    (host : Host) :
    (∀ before decisive rest chosen, host.answers = before ++ decisive :: rest →
      Undecided (WorkflowChoice items) before →
      WorkflowChoice items decisive chosen →
      ∃ printed, (chooseWorkflows (.list items)).start host =
        (.ok chosen, { host with
          answers := rest, output := host.output ++ printed })) ∧
    (Undecided (WorkflowChoice items) host.answers →
      ∃ printed, (chooseWorkflows (.list items)).start host =
        (.error .answersExhausted,
          { host with answers := [], output := host.output ++ printed })) := by
  have decided := decidedBy_chooseWorkflows notNil areObjects
  exact ⟨fun _ _ _ _ => decided.settled, decided.unsettled⟩

/-- Surroundings in which there is nothing but the answers of a user. -/
def answeringHost (answers : List Answer) : Host :=
  ⟨.empty "", [], answers, ⟨[]⟩, [], "", .asAdded⟩

/-- Two workflows, the second with a number as its id. -/
def twoWorkflows : List Value :=
  [.object [("name", .text "A")], .object [("id", .int 7)]]

/--
Answers that are blank, spell no numbers, or list numbers without a workflow.
-/
def rejectedAnswers : List Answer :=
  [.typed " ", .typed "1,x", .typed "1,,2", .typed "2,3", .typed "0",
    .typed "-1", .endOfInput ""]

theorem undecided_rejectedAnswers :
    Undecided (WorkflowChoice twoWorkflows) rejectedAnswers :=
  undecided_of_judge (judgeWorkflows_eq_some_iff _) (by decide +kernel)

/--
After rejected answers, two workflows are chosen in another order and one of
them twice.
-/
theorem chooseWorkflows_takes_first_choice_twoWorkflows :
    ∃ printed, (chooseWorkflows (.list twoWorkflows)).start
        (answeringHost (rejectedAnswers ++ .typed " 2 ,+1,０2 " ::
          [.typed "1"])) =
      (.ok [.object [("id", .int 7)], .object [("name", .text "A")],
        .object [("id", .int 7)]],
        { answeringHost [.typed "1"] with output := printed }) := by
  have areObjects : ∀ item ∈ twoWorkflows, item.kind = .object := by
    simp [twoWorkflows, Value.kind]
  have spelled :
      ∀ {piece number}, (Numeral.integer piece).toOption = some number →
      Numeral.integer piece = .ok number := eq_ok_of_toOption
  have choice : WorkflowChoice twoWorkflows (.typed " 2 ,+1,０2 ")
      [.object [("id", .int 7)], .object [("name", .text "A")],
        .object [("id", .int 7)]] := by
    have pieces : typedPieces " 2 ,+1,０2 " = ["2", "+1", "０2"] := by
      decide +kernel
    refine .listed (by decide +kernel) ?_
    rw [pieces]
    exact .cons ⟨2, spelled (by decide +kernel), by decide, by decide, rfl⟩
      (.cons ⟨1, spelled (by decide +kernel), by decide, by decide, rfl⟩
        (.cons ⟨2, spelled (by decide +kernel), by decide, by decide, rfl⟩
          .nil))
  obtain ⟨printed, started⟩ :=
    (chooseWorkflows_takes_first_choice (by simp [twoWorkflows])
    areObjects (answeringHost _)).1 _ _ _ _ rfl undecided_rejectedAnswers choice
  exact ⟨_, started⟩

end Choosing

end Selection

end Flowgen
