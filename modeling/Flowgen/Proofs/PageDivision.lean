import Flowgen.Docs.FrontMatter
import Flowgen.Proofs.SupportedExpressions

namespace Flowgen

/-!
# How pages are divided

The first two rules of a page enclose its front matter, wherever they stand,
and a rule behind them belongs to no part.  So front matter is kept when a
page gets a new text, but a page with rules of its own is not whole without
its front matter.
-/

namespace Text

theorem lines_eq_map
    (text : String) :
    lines text = (text.toList.splitOn '\n').map String.ofList := by
  rw [lines, split, show "\n".toList = ['\n'] by decide, splitOn_singleton]

theorem ofLines_lines
    (text : String) :
    ofLines (lines text) = text := by
  apply String.toList_injective
  rw [ofLines, join_toList, lines_eq_map, List.map_map,
    show "\n".toList = ['\n'] by decide]
  simp [Function.comp_def, List.intercalate_splitOn]

theorem break_not_mem_of_mem_lines
    {text line : String}
    (isLine : line ∈ lines text) :
    '\n' ∉ line.toList := by
  rw [lines_eq_map, List.splitOn_eq_splitOnP, ← splitWhere_eq_splitOnP]
    at isLine
  obtain ⟨piece, isPiece, rfl⟩ := List.mem_map.mp isLine
  intro member
  rw [String.toList_ofList] at member
  exact absurd (not_isSeparator_of_mem_splitWhere isPiece _ member) (by decide)

theorem lines_append
    (first second : String) :
    lines (first ++ "\n" ++ second) = lines first ++ lines second := by
  have textIs : (first ++ "\n" ++ second).toList =
      first.toList ++ '\n' :: second.toList := by simp
  rw [lines_eq_map, textIs, List.splitOn_append_cons_self, List.map_append,
    ← lines_eq_map, ← lines_eq_map]

theorem lines_ofLines
    {parts : List String}
    (notNil : parts ≠ [])
    (noBreak : ∀ part ∈ parts, '\n' ∉ part.toList) :
    lines (ofLines parts) = parts := by
  rw [lines_eq_map, ofLines, join_toList, show "\n".toList = ['\n'] by decide,
    List.splitOn_intercalate _ (by simpa using noBreak) (by simpa using notNil),
    List.map_map]
  simp [Function.comp_def]

theorem count_trimmed
    {character : Char}
    (notBlank : isBlank character = false)
    (text : List Char) :
    (trimmed text).count character = text.count character := by
  obtain ⟨lead, trail, textIs, leadBlank, trailBlank⟩ :=
    exists_blank_around text
  have absent : ∀ blank : List Char, (∀ other ∈ blank, isBlank other = true) →
      blank.count character = 0 :=
    fun blank areBlank => List.count_eq_zero.mpr fun member => by
      simp [areBlank _ member] at notBlank
  have counted := congrArg (List.count character) textIs
  rw [List.count_append, List.count_append, absent lead leadBlank,
    absent trail trailBlank] at counted
  omega

theorem count_intercalate_break
    (pieces : List (List Char)) :
    (List.intercalate ['\n'] pieces).count '-' =
      (pieces.map (List.count '-')).sum := by
  induction pieces with
  | nil =>
      rfl
  | cons piece pieces inductionHypothesis =>
      cases pieces with
      | nil =>
          simp
      | cons next pieces =>
          rw [List.intercalate_cons_cons, List.count_append, List.count_append,
            inductionHypothesis, List.map_cons, List.sum_cons]
          simp

end Text

namespace Docs

variable {lines kept block frame : List String}

/-- Lines without rules. -/
def ArePlain (lines : List String) : Prop :=
  ∀ line ∈ lines, isRule line = false

/-- Front matter: two rules, and lines without rules between them. -/
inductive IsFrame : List String → Prop where
  | intro
      {opening closing : String}
      {block : List String}
      (opens : isRule opening = true)
      (arePlain : ArePlain block)
      (closes : isRule closing = true) :
      IsFrame (opening :: (block ++ [closing]))

/-- The region of a line behind the given number of rules. -/
def regionBehind : Nat → Region
  | 0 => .before
  | 1 => .inside
  | _ + 2 => .after

/-- The body of a page is what stands outside its front matter. -/
theorem body_divide
    (rules : Nat)
    (lines : List String) :
    (Page.divide (regionBehind rules) lines).body =
      linesOutside rules lines := by
  induction lines generalizing rules with
  | nil =>
      rw [Page.divide, linesOutside]
  | cons line lines inductionHypothesis =>
      cases ruled : isRule line with
      | true =>
          rw [linesOutside, if_pos ruled, ← inductionHypothesis]
          rcases rules with _ | _ | rules <;>
            simp [regionBehind, Page.divide, ruled, Page.addFrontMatter]
      | false =>
          rw [linesOutside, if_neg (by simp [ruled]), ← inductionHypothesis]
          rcases rules with _ | _ | rules <;>
            simp [regionBehind, Page.divide, ruled, Page.addFrontMatter,
              Page.addBody]

/-- Behind the second rule only rules are dropped. -/
theorem divide_after
    (lines : List String) :
    Page.divide .after lines = ⟨[], lines.filter fun line => !isRule line⟩ := by
  induction lines with
  | nil =>
      rfl
  | cons line lines inductionHypothesis =>
      rw [Page.divide, inductionHypothesis, List.filter_cons]
      cases isRule line <;> rfl

theorem divide_before_append
    (arePlain : ArePlain block)
    (rest : List String) :
    Page.divide .before (block ++ rest) =
      ⟨(Page.divide .before rest).frontMatter,
        block ++ (Page.divide .before rest).body⟩ := by
  induction block with
  | nil =>
      rfl
  | cons line block inductionHypothesis =>
      obtain ⟨linePlain, restPlain⟩ := List.forall_mem_cons.mp arePlain
      rw [List.cons_append, Page.divide, if_neg (by simp [linePlain]),
        inductionHypothesis restPlain]
      rfl

theorem divide_inside_append
    (arePlain : ArePlain block)
    (rest : List String) :
    Page.divide .inside (block ++ rest) =
      ⟨block ++ (Page.divide .inside rest).frontMatter,
        (Page.divide .inside rest).body⟩ := by
  induction block with
  | nil =>
      rfl
  | cons line block inductionHypothesis =>
      obtain ⟨linePlain, restPlain⟩ := List.forall_mem_cons.mp arePlain
      rw [List.cons_append, Page.divide, if_neg (by simp [linePlain]),
        inductionHypothesis restPlain]
      rfl

/-- Front matter at the start of a page is its front matter. -/
theorem divide_frame_append
    (isFrame : IsFrame frame)
    (rest : List String) :
    Page.divide .before (frame ++ rest) =
      ⟨frame, rest.filter fun line => !isRule line⟩ := by
  obtain @⟨opening, closing, block, opens, arePlain, closes⟩ := isFrame
  rw [List.cons_append, Page.divide, if_pos opens, List.append_assoc,
    List.singleton_append,
    divide_inside_append arePlain, Page.divide, if_pos closes, divide_after]
  rfl

theorem exists_first_rule
    (hasRule : lines.countP isRule ≠ 0) :
    ∃ before rule rest, lines = before ++ rule :: rest ∧ ArePlain before ∧
      isRule rule = true ∧ lines.countP isRule = rest.countP isRule + 1 := by
  obtain ⟨rule, found⟩ : ∃ rule, lines.find? isRule = some rule := by
    rw [← Option.isSome_iff_exists, List.find?_isSome]
    exact List.countP_pos_iff.mp (Nat.pos_of_ne_zero hasRule)
  obtain ⟨ruled, before, rest, rfl, noRule⟩ :=
    List.find?_eq_some_iff_append.mp found
  have arePlain : ArePlain before :=
    fun line member => by simpa using noRule line member
  refine ⟨before, rule, rest, rfl, arePlain, ruled, ?_⟩
  rw [List.countP_append, List.countP_cons_of_pos ruled,
    List.countP_eq_zero.mpr fun line member => by simp [arePlain line member],
    Nat.zero_add]

theorem exists_frame
    (twoRules : 2 ≤ lines.countP isRule) :
    ∃ before frame rest, lines = before ++ (frame ++ rest) ∧ ArePlain before ∧
      IsFrame frame ∧ lines.countP isRule = rest.countP isRule + 2 := by
  obtain ⟨before, opening, others, rfl, beforePlain, opens, count⟩ :=
    @exists_first_rule lines (by omega)
  obtain ⟨block, closing, rest, rfl, blockPlain, closes, othersCount⟩ :=
    @exists_first_rule others (by omega)
  exact ⟨before, opening :: (block ++ [closing]), rest, by simp, beforePlain,
    .intro opens blockPlain closes, by omega⟩

theorem lines_ofLines_frame
    {text : String}
    {before rest : List String}
    (linesAre : Text.lines text = before ++ (frame ++ rest))
    (isFrame : IsFrame frame) :
    Text.lines (Text.ofLines frame) = frame := by
  refine Text.lines_ofLines ?_ fun line member => ?_
  · rintro rfl
    cases isFrame
  · exact Text.break_not_mem_of_mem_lines (by rw [linesAre]; simp [member])

/--
A page with two rules has front matter from the first to the second one.  It
is kept as it is when the page gets a new text, whatever rules that has, and
giving the page the same text again changes nothing.
-/
theorem underFrontMatter_twice
    (source former : String)
    (twoRules : 2 ≤ (Text.lines former).countP isRule) :
    (∃ before rest, Text.lines former =
      before ++ ((Page.ofText former).frontMatter ++ rest) ∧
      ArePlain before ∧ IsFrame (Page.ofText former).frontMatter) ∧
    underFrontMatter (.ofText former) source =
      (Page.ofText former).frontMatterText ++ "\n\n" ++ source ∧
    (Page.ofText (underFrontMatter (.ofText former) source)).frontMatterText =
      (Page.ofText former).frontMatterText ∧
    underFrontMatter (.ofText (underFrontMatter (.ofText former) source))
      source = underFrontMatter (.ofText former) source := by
  obtain ⟨before, frame, rest, linesAre, arePlain, isFrame, _⟩ :=
    exists_frame twoRules
  have frameLines := lines_ofLines_frame linesAre isFrame
  have formerFrame : (Page.ofText former).frontMatter = frame := by
    rw [Page.ofText, linesAre, divide_before_append arePlain,
      divide_frame_append isFrame]
  have notEmpty : Text.ofLines frame ≠ "" := by
    intro isEmpty
    rw [isEmpty] at frameLines
    obtain @⟨opening, closing, block, _, _, _⟩ := isFrame
    exact absurd (congrArg List.length frameLines) (by simp [Text.lines_eq_map])
  have updated : ∀ page : Page, page.frontMatter = frame →
      underFrontMatter page source =
        Text.ofLines frame ++ "\n\n" ++ source := by
    intro page frameIs
    rw [underFrontMatter, Page.frontMatterText, frameIs, if_neg notEmpty]
  have updatedFrame :
      (Page.ofText (Text.ofLines frame ++ "\n\n" ++ source)).frontMatter =
        frame := by
    have textIs : Text.ofLines frame ++ "\n\n" ++ source =
        Text.ofLines frame ++ "\n" ++ ("\n" ++ source) :=
      String.toList_injective (by simp)
    rw [Page.ofText, textIs, Text.lines_append, frameLines,
      divide_frame_append isFrame]
  rw [updated _ formerFrame, updated _ updatedFrame, Page.frontMatterText,
    Page.frontMatterText, updatedFrame, formerFrame]
  exact ⟨⟨before, rest, linesAre, arePlain, isFrame⟩, rfl, rfl, rfl⟩

/--
A page with a remark before padded rules gets a text that has a rule itself.
-/
theorem underFrontMatter_twice_remark :
    2 ≤ (Text.lines "Note\n --- \ntitle: A\n---\nOld").countP isRule ∧
      underFrontMatter (.ofText "Note\n --- \ntitle: A\n---\nOld")
        "New\n---\nEnd" = " --- \ntitle: A\n---\n\nNew\n---\nEnd" ∧
      underFrontMatter (.ofText " --- \ntitle: A\n---\n\nNew\n---\nEnd")
        "New\n---\nEnd" = " --- \ntitle: A\n---\n\nNew\n---\nEnd" := by
  have twoRules : 2 ≤ (Text.lines "Note\n --- \ntitle: A\n---\nOld").countP
      isRule := by decide
  have updated : underFrontMatter (.ofText "Note\n --- \ntitle: A\n---\nOld")
      "New\n---\nEnd" = " --- \ntitle: A\n---\n\nNew\n---\nEnd" := by decide
  have again := (underFrontMatter_twice "New\n---\nEnd" _ twoRules).2.2.2
  rw [updated] at again
  exact ⟨twoRules, updated, again⟩

section Losses

/-- The lines behind the first rule. -/
def behindRule (lines : List String) : List String :=
  (lines.dropWhile fun line => !isRule line).drop 1

/--
What a page holds besides front matter, which opens it and ends with the next
rule.
-/
def besidesFrontMatter (text : String) : String :=
  let lines := Text.lines text
  if lines.head?.any isRule && lines.tail.any isRule then
    Text.trim (Text.ofLines (behindRule lines.tail))
  else
    Text.trim text

theorem behindRule_cons
    (line : String)
    (lines : List String) :
    behindRule (line :: lines) =
      if isRule line then lines else behindRule lines := by
  rw [behindRule, List.dropWhile_cons]
  cases isRule line <;> rfl

theorem linesOutside_one
    (lines : List String) :
    linesOutside 1 lines = (behindRule lines).filter fun line =>
    !isRule line := by
  induction lines with
  | nil =>
      rfl
  | cons line lines inductionHypothesis =>
      rw [linesOutside, behindRule_cons]
      cases isRule line with
      | true =>
          rw [if_pos rfl, if_pos rfl, ← body_divide, regionBehind, divide_after]
      | false =>
          simpa using inductionHypothesis

/--
The lines before the first rule, and those behind the second one that are no
rules.
-/
theorem linesOutside_zero
    (lines : List String) :
    linesOutside 0 lines = (lines.takeWhile fun line => !isRule line) ++
      (behindRule (behindRule lines)).filter fun line => !isRule line := by
  induction lines with
  | nil =>
      rfl
  | cons line lines inductionHypothesis =>
      rw [linesOutside, behindRule_cons, List.takeWhile_cons]
      cases isRule line with
      | true =>
          simpa using linesOutside_one lines
      | false =>
          simpa using inductionHypothesis

theorem linesOutside_sublist
    (rules : Nat)
    (lines : List String) :
    (linesOutside rules lines).Sublist
      (lines.filter fun line => !isRule line) := by
  induction lines generalizing rules with
  | nil =>
      exact .slnil
  | cons line lines inductionHypothesis =>
      rw [linesOutside, List.filter_cons]
      cases isRule line with
      | true =>
          exact inductionHypothesis (rules + 1)
      | false =>
          rw [if_neg Bool.false_ne_true]
          split
          · exact (inductionHypothesis rules).cons line
          · exact (inductionHypothesis rules).cons_cons line

theorem countP_behindRule
    (hasRule : lines.any isRule = true) :
    lines.countP isRule = (behindRule lines).countP isRule + 1 := by
  induction lines with
  | nil =>
      cases hasRule
  | cons line lines inductionHypothesis =>
      rw [behindRule_cons, List.countP_cons]
      cases ruled : isRule line with
      | true =>
          rfl
      | false =>
          simpa using inductionHypothesis (by simpa [ruled] using hasRule)

theorem count_dashes
    (lines : List String) :
    (Text.trim (Text.ofLines lines)).toList.count '-' =
      (lines.map fun line => line.toList.count '-').sum := by
  rw [Text.trim, String.toList_ofList, Text.count_trimmed (by decide),
    Text.ofLines,
    Text.join_toList, show "\n".toList = ['\n'] by decide,
    Text.count_intercalate_break, List.map_map]
  rfl

/-- Rules cannot be left out unnoticed: every one takes dashes with it. -/
theorem trim_ofLines_eq_iff
    (sublist : kept.Sublist (lines.filter fun line => !isRule line))
    (same : lines.countP isRule = 0 → kept = lines) :
    Text.trim (Text.ofLines kept) = Text.trim (Text.ofLines lines) ↔
    lines.countP isRule = 0 := by
  refine ⟨fun sameText => ?_, fun noRule => by rw [same noRule]⟩
  by_contra hasRule
  obtain ⟨before, rule, rest, rfl, _, ruled, _⟩ := exists_first_rule hasRule
  have inOthers : kept.Sublist (before ++ rest) := by
    rw [List.filter_append, List.filter_cons_of_neg (by simp [ruled])]
      at sublist
    exact sublist.trans (List.filter_sublist.append List.filter_sublist)
  have fewer :=
    (inOthers.map fun line => line.toList.count '-').sum_le_sum (by simp)
  have dashes : rule.toList.count '-' = 3 := by
    rw [← Text.count_trimmed (by decide),
      ← @String.toList_ofList (Text.trimmed _), ← Text.trim,
      beq_iff_eq.mp ruled]
    rfl
  have sameCount :=
    congrArg (fun text : String => text.toList.count '-') sameText
  simp only [count_dashes, List.map_append, List.map_cons, List.sum_append,
    List.sum_cons, dashes] at sameCount fewer
  omega

theorem linesOutside_of_plain
    (noRule : lines.countP isRule = 0) :
    linesOutside 0 lines = lines := by
  have arePlain : ArePlain lines := fun line member => by
    simpa using List.countP_eq_zero.mp noRule line member
  have divided := divide_before_append arePlain []
  rw [List.append_nil] at divided
  rw [← body_divide, regionBehind, divided, Page.divide, List.append_nil]

theorem countP_tail
    (opens : lines.head?.any isRule = true) :
    lines.countP isRule = lines.tail.countP isRule + 1 := by
  cases lines with
  | nil =>
      cases opens
  | cons first others =>
      exact List.countP_cons_of_pos opens

/--
If a rule opens the page, then only rules are left out behind the next one.
-/
theorem linesOutside_of_opens
    (opens : lines.head?.any isRule = true) :
    linesOutside 0 lines = (behindRule lines.tail).filter fun line =>
    !isRule line := by
  cases lines with
  | nil =>
      cases opens
  | cons first others =>
      have ruled : isRule first = true := opens
      rw [linesOutside, if_pos ruled, linesOutside_one, List.tail_cons]

/--
All behind front matter that opens a page is left exactly if there is no third
rule.
-/
theorem trim_linesOutside_eq_iff
    (opens : lines.head?.any isRule = true)
    (closes : lines.tail.any isRule = true) :
    Text.trim (Text.ofLines (linesOutside 0 lines)) =
      Text.trim (Text.ofLines (behindRule lines.tail)) ↔
      lines.countP isRule = 2 := by
  have same : (behindRule lines.tail).countP isRule = 0 →
      ((behindRule lines.tail).filter fun line => !isRule line) =
        behindRule lines.tail :=
    fun noRule => List.filter_eq_self.mpr fun line member => by
      simpa using List.countP_eq_zero.mp noRule line member
  rw [linesOutside_of_opens opens, trim_ofLines_eq_iff (.refl _) same,
    countP_tail opens, countP_behindRule closes]
  omega

/--
What is left of a page, by either task, are the lines before the first rule
and those behind the second one that are no rules.  That is what the page
holds besides its front matter exactly if it has no rules at all, or two and
the first one opens it.
-/
theorem withoutFrontMatter_eq_iff
    (text : String) :
    (Page.ofText text).bodyText = withoutFrontMatter text ∧
    withoutFrontMatter text = Text.trim (Text.ofLines
      (((Text.lines text).takeWhile fun line => !isRule line) ++
        (behindRule (behindRule (Text.lines text))).filter fun line =>
        !isRule line)) ∧
    (withoutFrontMatter text = besidesFrontMatter text ↔
      (Text.lines text).countP isRule = 0 ∨
        (Text.lines text).countP isRule = 2 ∧
        (Text.lines text).head?.any isRule = true) := by
  refine ⟨?_, ?_, ?_⟩
  · rw [Page.bodyText, Page.ofText, withoutFrontMatter, ← body_divide,
      regionBehind]
  · rw [withoutFrontMatter, linesOutside_zero]
  · have whole :
        Text.trim text = Text.trim (Text.ofLines (Text.lines text)) := by
      rw [Text.ofLines_lines]
    rw [withoutFrontMatter, besidesFrontMatter, whole]
    generalize Text.lines text = lines
    by_cases isFramed : (lines.head?.any isRule && lines.tail.any isRule) = true
    · obtain ⟨opens, closes⟩ := Bool.and_eq_true_iff.mp isFramed
      have counted := countP_tail opens
      rw [if_pos isFramed, trim_linesOutside_eq_iff opens closes]
      simp only [opens, and_true]
      omega
    · rw [if_neg isFramed,
        trim_ofLines_eq_iff (linesOutside_sublist 0 lines)
          linesOutside_of_plain]
      refine ⟨.inl, fun either => either.resolve_right fun ⟨two, opens⟩ =>
        isFramed ?_⟩
      have counted := countP_tail opens
      rw [opens, Bool.true_and, List.any_eq_true, ← List.countP_pos_iff]
      omega

/-- A rule between two parts of the body is lost. -/
example :
    withoutFrontMatter "---\ntitle: A\n---\nFirst\n---\nSecond" =
      "First\nSecond" := by
  decide

end Losses

/-- Every line that is no rule stands in one of the two parts of a page. -/
theorem divide_perm
    (region : Region)
    (lines : List String) :
    ((Page.divide region lines).frontMatter.filter (fun line => !isRule line) ++
      (Page.divide region lines).body).Perm
        (lines.filter fun line => !isRule line) := by
  induction lines generalizing region with
  | nil =>
      cases region <;> exact .nil
  | cons line lines inductionHypothesis =>
      rw [List.filter_cons]
      cases ruled : isRule line with
      | true =>
          cases region <;> simpa [Page.divide, Page.addFrontMatter, ruled]
            using inductionHypothesis _
      | false =>
          cases region with
          | inside =>
              simpa [Page.divide, Page.addFrontMatter, ruled]
                using inductionHypothesis .inside
          | before | after =>
              simpa [Page.divide, Page.addBody, ruled] using
                List.perm_middle.trans ((inductionHypothesis _).cons line)

/--
Both tasks come to the same body of a page, line by line, and it lacks nothing
but rules and what the front matter holds.
-/
theorem bodyText_eq_withoutFrontMatter
    (text : String) :
    (Page.ofText text).bodyText = withoutFrontMatter text ∧
    (Page.ofText text).body = linesOutside 0 (Text.lines text) ∧
    ((Page.ofText text).frontMatter.filter (fun line => !isRule line) ++
      linesOutside 0 (Text.lines text)).Perm
        ((Text.lines text).filter fun line => !isRule line) := by
  have sameLines : (Page.ofText text).body = linesOutside 0 (Text.lines text) :=
    body_divide 0 (Text.lines text)
  refine ⟨?_, sameLines, ?_⟩
  · rw [Page.bodyText, sameLines, withoutFrontMatter]
  · rw [← sameLines]
    exact divide_perm .before (Text.lines text)

end Docs

end Flowgen
