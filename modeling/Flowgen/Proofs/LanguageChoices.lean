import Flowgen.Proofs.WorkflowChoices

namespace Flowgen

/-!
# Choosing languages by their options

An answer chooses languages if every piece of it is an option that was
offered.  A valid default is chosen by a blank answer and by cancelling, and
PHP by cancelling without one.  The first answer that chooses decides, and it
never chooses nothing or a language twice.
-/

namespace Language

theorem ofOption?_eq_some_iff
    {option : String}
    {language : Language} :
    ofOption? option = some language ↔ language.option = option := by
  constructor
  · intro found
    simpa using List.find?_some found
  · rintro rfl
    cases language <;> decide

theorem ofValue?_eq_some_iff
    {value : Value}
    {language : Language} :
    ofValue? value = some language ↔ value = .text language.code := by
  constructor
  · intro found
    cases value with
    | text content =>
        have isCode : language.code = content := by
          simpa using List.find?_some found
        rw [isCode]
    | _ =>
        cases found
  · rintro rfl
    cases language <;> decide

theorem option_injective :
    Function.Injective option := by
  intro first second same
  cases first <;> cases second <;> first | rfl | exact absurd same (by decide)

theorem code_injective :
    Function.Injective code := by
  intro first second same
  cases first <;> cases second <;> first | rfl | exact absurd same (by decide)

end Language

namespace Selection

open Session

/--
The languages whose options are among some pieces, in the order of their first
mention.
-/
structure Mentions (pieces : List String) (languages : List Language) :
  Prop where
  mem_iff : ∀ language, language ∈ languages ↔ language.option ∈ pieces
  ordered : languages.Pairwise fun first second =>
    pieces.idxOf first.option < pieces.idxOf second.option

/-- An answer that decides which languages are chosen. -/
inductive LanguageChoice (default : Value) : Answer → List Language → Prop where
  | listed
      {text : String}
      {chosen : List Language}
      (areOptions : ∀ piece ∈ typedPieces text, ∃ language : Language,
        language.option = piece)
      (mentioned : Mentions (typedPieces text) chosen) :
      LanguageChoice default (.typed text) chosen
  | accepted
      {text : String}
      {language : Language}
      (isBlank : Text.trim text = "")
      (isDefault : default = .text language.code) :
      LanguageChoice default (.typed text) [language]
  | cancelled
      {language : Language}
      (message : String)
      (isDefault : default = .text language.code) :
      LanguageChoice default (.interrupt message) [language]
  | cancelledWithoutDefault
      (message : String)
      (noDefault : ∀ language : Language, default ≠ .text language.code) :
      LanguageChoice default (.interrupt message) [.php]

section Mentioning

variable {pieces : List String} {languages others chosen : List Language}

theorem Mentions.nodup
    (mentioned : Mentions pieces languages) :
    languages.Nodup := by
  refine mentioned.ordered.imp ?_
  rintro first _ before rfl
  exact lt_irrefl _ before

/-- What is mentioned, and in which order, is fixed by the pieces. -/
theorem Mentions.unique
    (mentioned : Mentions pieces languages)
    (alsoMentioned : Mentions pieces others) :
    languages = others := by
  have sameMembers : languages.Perm others :=
    (List.perm_ext_iff_of_nodup mentioned.nodup alsoMentioned.nodup).mpr
      fun language =>
        (mentioned.mem_iff language).trans (alsoMentioned.mem_iff language).symm
  refine List.Perm.eq_of_pairwise ?_ mentioned.ordered alsoMentioned.ordered
    sameMembers
  intro first second _ _ before behind
  exact absurd before (lt_asymm behind)

/-- Dropping repetitions keeps each language at its first mention. -/
theorem mentions_distinctLanguages
    (languages : List Language) :
    Mentions (languages.map Language.option) (distinctLanguages languages) := by
  induction languages with
  | nil =>
      exact ⟨by simp [distinctLanguages], by simp [distinctLanguages]⟩
  | cons language languages inductionHypothesis =>
      have later : ∀ other ∈ (distinctLanguages languages).filter fun other =>
          other != language,
          ((language :: languages).map Language.option).idxOf other.option =
            (languages.map Language.option).idxOf other.option + 1 := by
        intro other member
        have isOther : other ≠ language := by
          simpa using (List.mem_filter.mp member).2
        rw [List.map_cons, List.idxOf_cons_ne _
          (Language.option_injective.ne isOther).symm]
      constructor
      · intro other
        rw [distinctLanguages, List.mem_cons, List.mem_filter,
          inductionHypothesis.mem_iff,
          List.map_cons, List.mem_cons, Language.option_injective.eq_iff]
        by_cases same : other = language
        · simp [same]
        · simp [same]
      · rw [distinctLanguages, List.pairwise_cons]
        refine ⟨fun other member => ?_, ?_⟩
        · rw [later other member, List.map_cons, List.idxOf_cons_self]
          exact Nat.succ_pos _
        · refine List.Pairwise.imp_of_mem ?_
            (inductionHypothesis.ordered.filter _)
          intro first second isFirst isSecond before
          rw [later first isFirst, later second isSecond]
          exact Nat.succ_lt_succ before

theorem judgePieces_eq_some_iff :
    (judgePieces pieces).result? = some chosen ↔
      (∀ piece ∈ pieces, ∃ language : Language, language.option = piece) ∧
        Mentions pieces chosen := by
  have areOptions_iff :
      ((pieces.filter fun piece => (Language.ofOption? piece).isNone).isEmpty =
      true) ↔ ∀ piece ∈ pieces, ∃ language : Language,
      language.option = piece := by
    simp [List.filter_eq_nil_iff, Option.ne_none_iff_exists',
      Language.ofOption?_eq_some_iff]
  rw [judgePieces]
  split
  · rename_i noneInvalid
    have piecesAre :
        pieces = (pieces.filterMap Language.ofOption?).map Language.option := by
      have named := forall₂_eq_some_iff.mpr ⟨noneInvalid, rfl⟩
      simp only [Language.ofOption?_eq_some_iff] at named
      rw [← List.forall₂_eq_eq_eq, List.forall₂_map_right_iff]
      exact named.imp fun _ _ isOption => isOption.symm
    have mentioned :=
      mentions_distinctLanguages (pieces.filterMap Language.ofOption?)
    rw [← piecesAre] at mentioned
    simp only [Verdict.result?, Option.some.injEq]
    constructor
    · rintro rfl
      exact ⟨areOptions_iff.mp noneInvalid, mentioned⟩
    · rintro ⟨_, alsoMentioned⟩
      exact mentioned.unique alsoMentioned
  · rename_i someInvalid
    simp only [Verdict.result?, reduceCtorEq, false_iff, not_and]
    intro areOptions
    exact absurd (areOptions_iff.mpr areOptions) someInvalid

end Mentioning

section Choosing

variable {default : Value} {answer : Answer} {chosen : List Language}

theorem typedPieces_ne_nil
    (text : String) :
    typedPieces text ≠ [] := by
  rw [typedPieces, Text.split, show ",".toList = [','] by decide,
    Text.splitOn_singleton]
  simp [List.splitOn_ne_nil]

theorem trim_ne_empty
    {text : String}
    (areOptions : ∀ piece ∈ typedPieces text, ∃ language : Language,
      language.option = piece) :
    Text.trim text ≠ "" := by
  intro isBlank
  have pieces : typedPieces text = [""] := by
    rw [← typedPieces_trim, isBlank]
    decide
  rw [pieces] at areOptions
  obtain ⟨language, isEmpty⟩ := areOptions "" (by simp)
  cases language <;> exact absurd isEmpty (by decide)

/-- The answers that settle the question are those that choose. -/
theorem judgeLanguages_eq_some_iff
    (default : Value)
    (answer : Answer)
    (chosen : List Language) :
    (judgeLanguages (Language.ofValue? default) answer).result? = some chosen ↔
      LanguageChoice default answer chosen := by
  have isDefault : ∀ {language}, Language.ofValue? default = some language →
      default = .text language.code := Language.ofValue?_eq_some_iff.mp
  cases answer with
  | typed text =>
      have pieces :
          (Text.split (Text.trim text) ",").map Text.trim = typedPieces text :=
        typedPieces_trim text
      unfold judgeLanguages
      dsimp only
      rw [pieces]
      constructor
      · intro settled
        by_cases isBlank : Text.trim text = ""
        · rw [if_pos isBlank] at settled
          cases found : Language.ofValue? default with
          | none =>
              rw [found] at settled
              cases settled
          | some language =>
              rw [found] at settled
              cases settled
              exact .accepted isBlank (isDefault found)
        · rw [if_neg isBlank, judgePieces_eq_some_iff] at settled
          exact .listed settled.1 settled.2
      · intro choice
        cases choice with
        | listed areOptions mentioned =>
            rw [if_neg (trim_ne_empty areOptions), judgePieces_eq_some_iff]
            exact ⟨areOptions, mentioned⟩
        | accepted isBlank isDefault =>
            rw [if_pos isBlank, Language.ofValue?_eq_some_iff.mpr isDefault]
            rfl
  | interrupt message =>
      constructor
      · intro settled
        cases found : Language.ofValue? default with
        | none =>
            rw [found] at settled
            cases settled
            refine .cancelledWithoutDefault message fun language isCode => ?_
            rw [Language.ofValue?_eq_some_iff.mpr isCode] at found
            cases found
        | some language =>
            rw [found] at settled
            cases settled
            exact .cancelled message (isDefault found)
      · intro choice
        cases choice with
        | cancelled _ isDefault =>
            rw [Language.ofValue?_eq_some_iff.mpr isDefault]
            rfl
        | cancelledWithoutDefault _ noDefault =>
            have found : Language.ofValue? default = none := by
              rw [Option.eq_none_iff_forall_ne_some]
              exact fun language isCode => noDefault language (isDefault isCode)
            rw [found]
            rfl
  | endOfInput message =>
      constructor
      · rintro ⟨⟩
      · rintro ⟨⟩

/-- What is chosen is never nothing, and no language twice. -/
theorem LanguageChoice.facts
    (choice : LanguageChoice default answer chosen) :
    chosen ≠ [] ∧ chosen.Nodup := by
  cases choice with
  | @listed text _ areOptions mentioned =>
      obtain ⟨piece, rest, piecesAre⟩ :=
        List.exists_cons_of_ne_nil (typedPieces_ne_nil text)
      have isPiece : piece ∈ typedPieces text := by simp [piecesAre]
      obtain ⟨language, rfl⟩ := areOptions piece isPiece
      exact ⟨List.ne_nil_of_mem ((mentioned.mem_iff language).mpr isPiece),
        mentioned.nodup⟩
  | accepted =>
      simp
  | cancelled =>
      simp
  | cancelledWithoutDefault =>
      simp

/-- The question for languages is decided by the first answer that chooses. -/
theorem decidedBy_chooseLanguages
    (default : Value) :
    DecidedBy (LanguageChoice default) (chooseLanguages default) := by
  have shown : Announces () showLanguages :=
    .bind (.print _) (.bind (.print _) (.bind (.print _)
      (.bind (.forM fun _ _ => .print _) (.print _))))
  have asked :=
    fun prompt => decidedBy_askUntil prompt (judgeLanguages_eq_some_iff default)
  unfold chooseLanguages
  refine .after_announces shown ?_
  cases found : Language.ofValue? default with
  | none =>
      rw [found] at asked
      exact asked _
  | some language =>
      rw [found] at asked
      exact .after_announces (.print _) (.after_announces (.print _) (asked _))

/--
If languages are chosen at all, they are some of those on offer, none of them
twice, and the first answer that chooses has decided: the answers before it
are taken and those behind it are left.  Wherever there is such an answer,
what it chooses is chosen, whatever stands before and behind it.
-/
theorem chooseLanguages_takes_first_choice
    (default : Value)
    (host : Host) :
    (∀ chosen after, (chooseLanguages default).start host =
      (.ok chosen, after) → (chosen ≠ [] ∧ (chosen.map Language.code).Nodup ∧
        ∀ code ∈ chosen.map Language.code,
        code ∈ Language.all.map Language.code) ∧
      ∃ before decisive, host.answers = before ++ decisive :: after.answers ∧
        Undecided (LanguageChoice default) before ∧
        LanguageChoice default decisive chosen) ∧
    ∀ before decisive rest chosen, host.answers = before ++ decisive :: rest →
      Undecided (LanguageChoice default) before →
      LanguageChoice default decisive chosen →
      ∃ printed, (chooseLanguages default).start host =
        (.ok chosen, { host with
          answers := rest, output := host.output ++ printed }) := by
  have decided := decidedBy_chooseLanguages default
  refine ⟨fun chosen after ended => ?_, fun _ _ _ _ => decided.settled⟩
  obtain ⟨before, decisive, answersAre, undecided, choice⟩ :=
    decided.exists_of_ok ended
  obtain ⟨notNil, nodup⟩ := choice.facts
  have known : ∀ language : Language, language ∈ Language.all := by
    intro language
    cases language <;> decide
  exact ⟨⟨by simpa using notNil, nodup.map Language.code_injective,
      fun _ member =>
        List.map_subset _ (fun language _ => known language) member⟩,
    before, decisive, answersAre, undecided, choice⟩

/--
After rejected answers the three languages are chosen, one of which is listed
twice.
-/
theorem chooseLanguages_takes_first_choice_repeated :
    ∃ printed, (chooseLanguages (.text "python")).start
        (answeringHost ([.typed "1,4", .typed "1,,2", .endOfInput ""] ++
          .typed " 3, 1 ,3,2" :: [.typed "1"])) =
      (.ok [.javascript, .php, .python],
        { answeringHost [.typed "1"] with output := printed }) := by
  have undecided : Undecided (LanguageChoice (.text "python"))
      [.typed "1,4", .typed "1,,2", .endOfInput ""] :=
    undecided_of_judge (judgeLanguages_eq_some_iff _) (by decide +kernel)
  have choice : LanguageChoice (.text "python") (.typed " 3, 1 ,3,2")
      [.javascript, .php, .python] :=
    (judgeLanguages_eq_some_iff _ _ _).mp (by decide +kernel)
  obtain ⟨printed, started⟩ :=
    (chooseLanguages_takes_first_choice (.text "python")
    (answeringHost _)).2 _ _ _ _ rfl undecided choice
  exact ⟨_, started⟩

end Choosing

end Selection

end Flowgen
