import Flowgen.Proofs.ConversionOrder
import Flowgen.Proofs.SavedCredentials

namespace Flowgen

/-!
# Runs that stop at a fault

A fault in a conversion ends the whole run.  A workflow that can be converted
alone is therefore saved by a run exactly if the run gets through that
conversion, and else its file stays as it was.
-/

open Session

namespace Program

open FileTree Flowgen.Class

variable {text : String} {code : String} {name : Value}

variable {client : Client} {start host : Host} {order : SetOrder}
  {chosen workflow : Value} {language : Language}
    {done : Value → Language → Prop}

/-- Conversions that save their code at other places. -/
def Spares (done : Value → Language → Prop) (place : List String) : Prop :=
  ∀ workflow language text, done workflow language →
    workflow.get "name" (.text "workflow") = .ok (.text text) →
    Output.codePlace language text ≠ place

/--
What belongs to code is kept by conversions that save their code at other
places.
-/
theorem entry?_eq_of_spares
    {small large : FileTree}
    (grown : Grown done small.prepared large.prepared)
    (spares : Spares done (Output.codePlace language text)) :
    large.entry? (Output.codePlace language text) =
      small.entry? (Output.codePlace language text) := by
  have notShared : Output.codePlace language text ∉ sharedPlaces :=
    Output.IsPlaceOf.not_shared (.inr (.inr ⟨text, rfl⟩))
  have growth := grown.entries (Output.codePlace language text)
  rw [entry?_prepared_of_not_shared notShared] at growth
  cases growth with
  | same isSame =>
      rwa [entry?_prepared_of_not_shared notShared] at isSame
  | directory _ isOther _ _ =>
      simp [Output.codePlace, Output.languagePlace] at isOther
  | code isDone named isOther _ _ =>
      exact absurd isOther.symm (spares _ _ _ isDone named)
  | credentials _ isOther _ _ _ _ =>
      exact absurd isOther (Output.codePlace_ne_credentialsPlace _ _ _)

theorem adds_printBanner
    (lead text : String) :
    Adds start order done (printBanner lead text) :=
  .reports (.bind (.print _) fun _ => .bind (.print _) fun _ => .print _)

/-- Saving what was generated never ends in a fault. -/
theorem among_saved_ne_error
    (workflow : Value)
    (language : Language)
    (generated : Option String)
    (order : SetOrder)
    (tree : FileTree)
    (fault : Fault) :
    ((saved (generatorFor language) workflow generated).among order tree).1 ≠
      .error fault := by
  unfold saved
  split
  · simp
  · simp
  · rename_i code _
    obtain ⟨isSaved, _, after, ended, _⟩ :=
      Generator.save_cases .standard language workflow (.text code)
        ⟨tree, [], [], ⟨[]⟩, [], "", order⟩
    have isOk : (((generatorFor language).save workflow (.text code)).among
        order tree) = (.ok isSaved, after.files) := by
      rw [among, show generatorFor language =
        ⟨.standard, language.code, .standard⟩ from rfl, ended]
    rw [map_eq_pure_bind, among_bind (Generator.local_save _ _ _) fun _ =>
      .pure _, isOk]
    simp

/--
A conversion that ends in a fault makes no more than the directories that all
make.
-/
theorem prepared_eq_of_fault
    {tree after : FileTree}
    {fault : Fault}
    (ended : (converted workflow language).among order tree =
      (.error fault, after)) :
    after.prepared = tree.prepared := by
  obtain ⟨ready, isEnded⟩ | ⟨_, _, isEnded, _, same⟩ :=
    converted_cases workflow language order tree
  · rw [ended] at isEnded
    cases isGenerated : (((generatorFor language).generate workflow).among order
        tree.prepared).1 with
    | error other =>
        rw [isGenerated, Prod.mk.injEq] at isEnded
        rw [isEnded.2, ready.prepared_eq]
    | ok generated =>
        rw [isGenerated] at isEnded
        exact (among_saved_ne_error workflow language generated order
          tree.prepared fault (congrArg Prod.fst isEnded).symm).elim
  · rw [ended, Prod.mk.injEq] at isEnded
    rw [isEnded.2, same]

theorem start_convertChosen_append
    (serves : Serves start order host)
    (named : chosen.get "name" (.text "Workflow sem nome") = .ok name)
    (fetches : Fetches client start chosen workflow)
    (isTruthy : workflow.isTruthy = true)
    (first second : List Language) :
    (convertChosen client (first ++ second) chosen).start host =
      (convertChosen client first chosen >>= fun _ =>
        second.forM (convert name workflow)).start host := by
  obtain ⟨started, _, _, cases⟩ := convertChosen_cases client chosen serves
  obtain ⟨fault, notFetched, _⟩ | ⟨other, alsoFetches, isFalsy, _⟩ |
    ⟨other, another, alsoNamed, alsoFetches, _, ended⟩ := cases
  · exact (notFetched workflow fetches).elim
  · rw [← fetches.unique alsoFetches, isTruthy] at isFalsy
    cases isFalsy
  · obtain rfl := fetches.unique alsoFetches
    obtain rfl := Except.ok.inj (named.symm.trans alsoNamed)
    have split : (first ++ second).forM (convert name workflow) =
        (first.forM (convert name workflow) >>= fun _ =>
          second.forM (convert name workflow)) :=
      List.forM_append
    rw [start_bind, ended, ended, split, start_bind]

/-- The part of a run up to some of the languages for a chosen workflow. -/
def convertUpTo
    (client : Client)
    (languages : List Language)
    (before : List Value)
    (reached : List Language)
    (chosen : Value) :
    Session Unit := do
  printBanner "\n" "Gerando código..."
  before.forM (convertChosen client languages)
  convertChosen client reached chosen

/-- A part of a run goes on with more languages for its chosen workflow. -/
theorem start_convertUpTo_append
    {languages : List Language}
    {before : List Value}
    (serves : Serves start order host)
    (named : chosen.get "name" (.text "Workflow sem nome") = .ok name)
    (fetches : Fetches client start chosen workflow)
    (isTruthy : workflow.isTruthy = true)
    (first second : List Language) :
    (convertUpTo client languages before (first ++ second) chosen).start host =
      (convertUpTo client languages before first chosen >>= fun _ =>
        second.forM (convert name workflow)).start host := by
  obtain ⟨prior, adds, parted⟩ : ∃ prior : Session Unit,
      Adds start order (IsPlanned client start languages before) prior ∧
        ∀ reached, convertUpTo client languages before reached chosen =
          (prior >>= fun _ => convertChosen client reached chosen) :=
    ⟨_, .bind (adds_printBanner _ _) fun _ =>
      adds_chosen client languages before, fun _ => (bind_assoc _ _ _).symm⟩
  have servesNext := (adds host serves).1
  rw [parted, parted, bind_assoc, start_bind, start_bind]
  rcases ended : prior.start host with ⟨fault | _, between⟩
  · rfl
  · rw [ended] at servesNext
    exact start_convertChosen_append servesNext named fetches isTruthy first
      second

/--
A whole run goes on after the part up to some of the languages for a chosen
workflow.
-/
theorem start_convertAll_eq
    {languages first second : List Language}
    {before after : List Value}
    (serves : Serves start order host)
    (named : chosen.get "name" (.text "Workflow sem nome") = .ok name)
    (fetches : Fetches client start chosen workflow)
    (isTruthy : workflow.isTruthy = true)
    (parted : languages = first ++ second) :
    (convertAll client languages (before ++ chosen :: after)).start host =
      (convertUpTo client languages before first chosen >>= fun _ =>
        second.forM (convert name workflow) >>= fun _ =>
          after.forM (convertChosen client languages) >>= fun _ =>
            printBanner "\n" "Conversão concluída!").start host := by
  have whole : convertAll client languages (before ++ chosen :: after) =
      (convertUpTo client languages before (first ++ second) chosen >>= fun _ =>
        after.forM (convertChosen client languages) >>= fun _ =>
          printBanner "\n" "Conversão concluída!") := by
    have split :
        (before ++ chosen :: after).forM (convertChosen client languages) =
        (before.forM (convertChosen client languages) >>= fun _ =>
          convertChosen client languages chosen >>= fun _ =>
            after.forM (convertChosen client languages)) :=
      List.forM_append
    unfold convertAll convertUpTo
    rw [split, ← parted]
    simp only [bind_assoc]
  rw [whole, start_bind, start_convertUpTo_append serves named fetches isTruthy,
    ← start_bind, bind_assoc]

theorem isTruthy_of_generate
    {generator : Generator}
    {after : Host}
    (generated : (generator.generate workflow).start host =
      (.ok (some code), after)) :
    workflow.isTruthy = true := by
  obtain ⟨_, _, parts, _, madeOf, _⟩ := Generator.generate_eq_some generated
  obtain ⟨nodes, _, _, areNodes, isTruthy, _⟩ := madeOf.methods
  cases workflow with
  | object fields =>
      cases fields with
      | nil =>
          cases areNodes
          cases isTruthy
      | cons field fields =>
          rfl
  | _ =>
      cases areNodes

/-- A workflow is converted alone if its code is generated and saved. -/
theorem converted_eq_true_iff
    {left : FileTree} :
    (converted workflow language).among host.setOrder host.files =
        (.ok (some true), left) ↔
      ∃ generator code first second third,
        (Generator.make .standard language.code).start host =
          (.ok generator, first) ∧
        (generator.generate workflow).start first = (.ok (some code), second) ∧
        code ≠ "" ∧
        (generator.save workflow (.text code)).start second =
          (.ok true, third) ∧
        third.files = left := by
  obtain ⟨outcome, filesAre, _⟩ :=
    (local_converted workflow language).start_facts host
  constructor
  · intro alone
    rw [alone] at outcome filesAre
    have ended :
        (converted workflow language).start host = (.ok (some true), _) :=
      Prod.ext outcome rfl
    obtain ⟨generator, first, made, ended⟩ := bind_start_eq_ok.mp ended
    obtain ⟨generated, second, isGenerated, ended⟩ := bind_start_eq_ok.mp ended
    unfold saved at ended
    split at ended
    · cases ended
    · cases ended
    · rename_i code notEmpty
      rw [map_eq_pure_bind] at ended
      obtain ⟨isSaved, third, saves, ended⟩ := bind_start_eq_ok.mp ended
      rw [start_pure, Prod.mk.injEq, Except.ok.injEq, Option.some.injEq]
        at ended
      obtain ⟨rfl, isThird⟩ := ended
      exact ⟨generator, code, first, second, third, made, isGenerated, notEmpty,
        saves, isThird ▸ filesAre⟩
  · rintro ⟨generator, code, first, second, third, made, generated, hasCode,
      isSaved, rfl⟩
    have ended : (converted workflow language).start host =
        (.ok (some true), third) := by
      rw [converted, start_bind, made]
      dsimp only
      rw [start_bind, generated]
      dsimp only
      rw [saved_some hasCode, map_eq_pure_bind, start_bind, isSaved]
      rfl
    rw [ended] at outcome filesAre
    exact Prod.ext outcome.symm filesAre.symm

theorem entry?_of_save
    {third : Host}
    (isSaved : ((generatorFor language).save workflow (.text code)).start host =
      (.ok true, third)) :
    ∃ text, workflow.get "name" (.text "workflow") = .ok (.text text) ∧
      third.files.entry? (Output.codePlace language text) =
        some (.file (.text code)) := by
  obtain ⟨_, prepared, after, ended, _,
    ⟨rfl, _⟩ | ⟨_, text, content, named, isText, _, filesAre⟩⟩ :=
    Generator.save_cases .standard language workflow (.text code) host
  · cases (congrArg Prod.fst isSaved).symm.trans (congrArg Prod.fst ended)
  · have isAfter : third = after := congrArg Prod.snd (isSaved.symm.trans ended)
    cases isText
    refine ⟨text, named, ?_⟩
    rw [isAfter, filesAre, entry?_set (by simp [Output.codePlace]), if_pos rfl]

/-- The credentials for code that is saved were there, or arrived whole. -/
theorem copiesWhole_of_converted
    {tree left : FileTree}
    (alone : (converted workflow language).among order tree =
      (.ok (some true), left)) :
    tree.prepared.CopiesWhole language := by
  obtain ⟨ready, generated, _, isSaved⟩ := converted_eq_ok.mp alone
  unfold saved at isSaved
  split at isSaved
  · cases isSaved
  · cases isSaved
  · rename_i code _ _
    rw [map_eq_pure_bind] at isSaved
    obtain ⟨_, started, _⟩ := among_eq_ok.mp isSaved
    obtain ⟨isTrue, _, saves, ended⟩ := bind_start_eq_ok.mp started
    cases ended
    obtain ⟨isEnsured, _, _, _, _, ensured, _⟩ :=
      Generator.storing_eq_ok.mp (Generator.save_eq_ok.mp saves)
    have ensured : (Output.standard.ensureCredentials language.code).among order
        tree.prepared = (.ok isEnsured, _) :=
      among_eq_ok.mpr ⟨_, ensured, rfl⟩
    intro source missing isSource unlocked
    rw [Output.among_ensureCredentials ready, missing, isSource, unlocked]
      at ensured
    cases isFailing : tree.prepared.setback?
        (tree.prepared.below (Output.credentialsPlace language)) with
    | none =>
        rfl
    | some setback =>
        rw [isFailing] at ensured
        cases ensured

/-- The conversions of a run that are not for one language of one workflow. -/
def IsAside
    (client : Client)
    (host : Host)
    (languages : List Language)
    (choices : List Value)
    (workflow : Value)
    (others : List Language)
    (other : Value)
    (its : Language) : Prop :=
  other = workflow ∧ its ∈ others ∨
    IsPlanned client host languages choices other its

theorem spares_isAside
    {languages others : List Language}
    {choices : List Value}
    (named : workflow.get "name" (.text "workflow") = .ok (.text text))
    (fetches : Fetches client host chosen workflow)
    (apart : ∀ choice ∈ choices, SavedApart client host choice chosen)
    (once : language ∉ others) :
    Spares (IsAside client host languages choices workflow others)
      (Output.codePlace language text) := by
  rintro other its otherText
    (⟨rfl, isOther⟩ | ⟨_, _, choice, isChoice, alsoFetches⟩) otherNamed same
  · obtain ⟨rfl, _⟩ := Output.code_eq_of_codePlace same
    exact once isOther
  · obtain ⟨_, sameName, isNamed⟩ :=
      savedName_eq_of_codePlace otherNamed named same
    obtain ⟨name, isName⟩ := Option.isSome_iff_exists.mp isNamed
    exact apart choice isChoice other workflow alsoFetches fetches name isName
      (sameName.symm.trans isName)

theorem IsAside.of_chosen
    {languages others : List Language}
    {some all : List Value}
    (inAll : ∀ choice ∈ some, choice ∈ all)
    (other : Value)
    (its : Language)
    (isPlanned : IsPlanned client host languages some other its) :
    IsAside client host languages all workflow others other its := by
  obtain ⟨isLanguage, isTruthy, choice, isChoice, fetches⟩ := isPlanned
  exact .inr ⟨isLanguage, isTruthy, choice, inAll choice isChoice, fetches⟩

theorem IsAside.mem
    {earlier later : List Language}
    {choices : List Value}
    (other : Value)
    (its : Language)
    (isAside : IsAside client host (earlier ++ language :: later) choices
      workflow (earlier ++ later) other its) :
    its ∈ earlier ++ language :: later := by
  rcases isAside with ⟨_, isOne⟩ | ⟨isOne, _⟩
  · rcases List.mem_append.mp isOne with isEarlier | isLater
    · exact List.mem_append_left _ isEarlier
    · exact List.mem_append_right _ (List.mem_cons_of_mem _ isLater)
  · exact isOne

/-- The part of a run before a conversion adds only what is aside of it. -/
theorem adds_convertUpTo
    (languages earlier later : List Language)
    (before after : List Value)
    (fetches : Fetches client host chosen workflow) :
    Adds host order (IsAside client host languages (before ++ after) workflow
      (earlier ++ later))
      (convertUpTo client languages before earlier chosen) := by
  refine .bind (adds_printBanner _ _) fun _ => .bind
    ((adds_chosen client languages before).mono
      (IsAside.of_chosen (by simp +contextual))) fun _ =>
    (adds_convertChosen client earlier chosen).mono ?_
  rintro other its ⟨isEarlier, _, choice, isChoice, alsoFetches⟩
  obtain rfl := List.mem_singleton.mp isChoice
  exact .inl ⟨alsoFetches.unique fetches, List.mem_append_left _ isEarlier⟩

/-- The part of a run after a conversion adds only what is aside of it. -/
theorem adds_rest
    (client : Client)
    (languages earlier later : List Language)
    (before after : List Value)
    (name workflow : Value) :
    Adds host order (IsAside client host languages (before ++ after) workflow
      (earlier ++ later)) (later.forM (convert name workflow) >>= fun _ =>
        after.forM (convertChosen client languages) >>= fun _ =>
          printBanner "\n" "Conversão concluída!") := by
  refine .bind ((adds_languages name workflow later).mono ?_) fun _ => .bind
    ((adds_chosen client languages after).mono
      (IsAside.of_chosen (by simp +contextual))) fun _ =>
    adds_printBanner _ _
  rintro other its ⟨rfl, isLater⟩
  exact .inl ⟨rfl, List.mem_append_right _ isLater⟩

/--
A conversion that ends well alone leaves its file in a run that has only added
others, or ends in a fault and leaves the place of that file as it was at the
start.
-/
theorem convert_entry?_cases
    {languages : List Language}
    {left : FileTree}
    {content : Content}
    (name : Value)
    (inLanguages : ∀ other its, done other its → its ∈ languages)
    (spares : Spares done (Output.codePlace language text))
    (sound : start.files.Sound)
    (staysOut : StaysOut start.files languages workflow language)
    (alone : (converted workflow language).among host.setOrder start.files =
      (.ok (some true), left))
    (isLeft : left.entry? (Output.codePlace language text) =
      some (.file content))
    (grown : Grown done start.files.prepared host.files.prepared) :
    (∃ ended, (convert name workflow language).start host = (.ok (), ended) ∧
        ended.files.entry? (Output.codePlace language text) =
          some (.file content)) ∨
      ∃ fault ended, (convert name workflow language).start host =
        (.error fault, ended) ∧
        ended.files.entry? (Output.codePlace language text) =
          start.files.entry? (Output.codePlace language text) := by
  obtain ⟨outcome, filesAre, _⟩ :=
    (local_convert name workflow language).start_facts host
  rw [among_convert] at outcome filesAre
  rcases converts :
    (converted workflow language).among host.setOrder host.files with
    ⟨fault | result, after⟩
  · rw [converts] at outcome filesAre
    refine .inr ⟨fault, _, Prod.ext outcome rfl, ?_⟩
    rw [filesAre]
    refine entry?_eq_of_spares ?_ spares
    rwa [prepared_eq_of_fault converts]
  · rw [converts] at outcome filesAre
    refine .inl ⟨_, Prod.ext outcome rfl, ?_⟩
    obtain ⟨alsoLeft, alsoAlone, joint⟩ :=
      converted_of_grown inLanguages sound staysOut
        (copiesWhole_of_converted alone) rfl grown converts
    rw [alone, Prod.mk.injEq] at alsoAlone
    obtain ⟨_, rfl⟩ := alsoAlone
    rw [filesAre]
    obtain ⟨wasThere, same⟩ | same := joint (Output.codePlace language text)
    · rw [same, entry?_eq_of_spares grown spares, ← wasThere, isLeft]
    · rw [same, isLeft]

/--
A workflow whose code can be generated and saved alone has its file after a
run that gets through its conversion, whatever becomes of the rest.  If the
run ends in a fault before or at that conversion, nothing after that is done
and the place of the file stays as it was.
-/
theorem convertAll_saves_reached
    {first second third : Host}
    {before after : List Value}
    {earlier later : List Language}
    {generator : Generator}
    (sound : host.files.Sound)
    (steady : host.server.Steady)
    (fetches : Fetches client host chosen workflow)
    (apart : ∀ other ∈ before ++ after, SavedApart client host other chosen)
    (once : language ∉ earlier ++ later)
    (staysOut : StaysOut host.files (earlier ++ language :: later) workflow
      language)
    (made : (Generator.make .standard language.code).start host =
      (.ok generator, first))
    (generated : (generator.generate workflow).start first =
      (.ok (some code), second))
    (hasCode : code ≠ "")
    (isSaved : (generator.save workflow (.text code)).start second =
      (.ok true, third)) :
    ∃ text, workflow.get "name" (.text "workflow") = .ok (.text text) ∧
      ((∃ reached ended outcome,
          (convertUpTo client (earlier ++ language :: later) before
            (earlier ++ [language]) chosen).start host = (.ok (), reached) ∧
          (convertAll client (earlier ++ language :: later)
            (before ++ chosen :: after)).start host = (outcome, ended) ∧
          ended.files.entry? (Output.codePlace language text) =
            some (.file (.text code))) ∨
        ∃ fault ended,
          (convertUpTo client (earlier ++ language :: later) before
            (earlier ++ [language]) chosen).start host = (.error fault, ended) ∧
          (convertAll client (earlier ++ language :: later)
            (before ++ chosen :: after)).start host = (.error fault, ended) ∧
          ended.files.entry? (Output.codePlace language text) =
            host.files.entry? (Output.codePlace language text)) := by
  have alone : (converted workflow language).among host.setOrder host.files =
      (.ok (some true), third.files) :=
    converted_eq_true_iff.mpr
      ⟨generator, code, first, second, third, made, generated, hasCode, isSaved,
        rfl⟩
  obtain rfl := Generator.returns_make _ _ _ _ _ made
  obtain ⟨text, named, isLeft⟩ := entry?_of_save isSaved
  have isTruthy := isTruthy_of_generate generated
  have serves : Serves host host.setOrder host := ⟨steady, fun _ => rfl, rfl⟩
  obtain ⟨name, isName⟩ :
    ∃ name, chosen.get "name" (.text "Workflow sem nome") = .ok name := by
    obtain ⟨id, isId, _⟩ := fetches
    exact ⟨_, Value.get_eq_ok.mpr ⟨(Value.get_eq_ok.mp isId).1, rfl⟩⟩
  have spares : Spares (IsAside client host (earlier ++ language :: later)
      (before ++ after)
      workflow (earlier ++ later)) (Output.codePlace language text) :=
    spares_isAside named fetches apart once
  -- Both the part up to the conversion and the whole run start with what
  -- comes before it.
  have single : [language].forM (convert name workflow) =
      convert name workflow language :=
    bind_pure_unit
  have goesOn : ((language :: later).forM (convert name workflow) >>= fun _ =>
      after.forM (convertChosen client (earlier ++ language :: later)) >>=
        fun _ => printBanner "\n" "Conversão concluída!") =
      (convert name workflow language >>= fun _ =>
        later.forM (convert name workflow) >>= fun _ =>
        after.forM (convertChosen client (earlier ++ language :: later)) >>=
          fun _ => printBanner "\n" "Conversão concluída!") :=
    bind_assoc _ _ _
  rw [
    start_convertUpTo_append serves isName fetches isTruthy earlier [language],
    start_convertAll_eq serves isName fetches isTruthy rfl, single, goesOn,
    start_bind, start_bind]
  refine ⟨text, named, ?_⟩
  have added := adds_convertUpTo (earlier ++ language :: later) earlier later
    before after fetches host serves
  rcases prior : (convertUpTo client (earlier ++ language :: later) before
    earlier chosen).start host with ⟨fault | _, between⟩
  · rw [prior] at added
    exact .inr ⟨fault, between, rfl, rfl, entry?_eq_of_spares added.2 spares⟩
  · rw [prior] at added
    dsimp only
    rw [start_bind]
    have servesNext := (adds_convert name workflow language between added.1).1
    obtain ⟨reached, isReached, isThere⟩ | ⟨fault, ended, isEnded, isKept⟩ :=
      convert_entry?_cases name IsAside.mem spares sound staysOut
        (added.1.sameOrder.symm ▸ alone) isLeft added.2
    · rw [isReached] at servesNext ⊢
      have addedRest := adds_rest client (earlier ++ language :: later) earlier
        later before after name workflow reached servesNext
      exact .inl ⟨reached, _, _, rfl, rfl,
        (entry?_eq_of_spares addedRest.2 spares).trans isThere⟩
    · rw [isEnded]
      exact .inr ⟨fault, ended, rfl, rfl, isKept⟩

/-- A node with a temperature that is no number. -/
def hotNode : Value :=
  .object [("id", .text "n"), ("name", .text "n"), ("type", .text "x"),
    ("parameters", .object [("temperature", .text "hot")])]

def hotWorkflow : Value :=
  .object [("name", .text "v"), ("nodes", .list [hotNode])]

/-- Surroundings where a workflow can be converted and another one cannot. -/
def hotHost : Host :=
  fewHost .asAdded [("a", oneNode "x"), ("b", hotWorkflow)]

theorem converted_hotWorkflow :
    (converted hotWorkflow .php).among .asAdded (fewTemplates []) =
      (.error (.badReal "hot"), fewTemplates []) := by
  have same := (ready_fewTemplates []).prepared_eq
  have inOrder : ExecutionOrder.ordered (.list [hotNode]) = .ok [hotNode] := by
    cbv
  have isLoaded : (((generatorFor .php).store.loadClass (.text
      (generatorFor .php).language)).among .asAdded (fewTemplates [])).1 =
        .ok (some callsOnly) :=
    eq_ok_of_toOption (by decide +kernel)
  have generated := @Generator.among_generate _ _ _ hotWorkflow _ _ _ isLoaded
    (by decide) rfl rfl inOrder
  have isFault :
      (generatorFor .php).filled callsOnly hotWorkflow [hotNode] .asAdded
      (fewTemplates []) = .error (.badReal "hot") :=
    rfl
  obtain ⟨_, ended⟩ | ⟨_, _, _, notReady, _⟩ :=
    converted_cases hotWorkflow .php .asAdded (fewTemplates [])
  · rw [same, generated, isFault] at ended
    exact ended
  · rw [same] at notReady
    exact (notReady (ready_fewTemplates [])).elim

/--
A workflow that can be converted alone is not saved after one that cannot be
converted.
-/
theorem convertAll_hotWorkflow_saves_none :
    ∃ generator code first second third ended,
      (Generator.make .standard Language.php.code).start hotHost =
        (.ok generator, first) ∧
      (generator.generate (oneNode "x")).start first =
        (.ok (some code), second) ∧
      code ≠ "" ∧
      (generator.save (oneNode "x") (.text code)).start second =
        (.ok true, third) ∧
      (convertAll fewClient [.php] [choiceOf "b", choiceOf "a"]).start hotHost =
        (.error (.badReal "hot"), ended) ∧
      ended.files.entry? (Output.codePlace .php "w") = none := by
  have sound : hotHost.files.Sound := sound_fewTemplates
  have steady : hotHost.server.Steady := steady_fewHost _ _
  have fetches : Fetches fewClient hotHost (choiceOf "a") (oneNode "x") :=
    fetches_fewHost _ _ _
  have fetchesHot : Fetches fewClient hotHost (choiceOf "b") hotWorkflow :=
    ⟨.text "b", rfl, rfl⟩
  have apart : ∀ other ∈ [choiceOf "b"] ++ [],
      SavedApart fewClient hotHost other (choiceOf "a") := by
    intro other isOther one another isOne isAnother name isName
    obtain rfl := List.mem_singleton.mp isOther
    rw [← fetches.unique isAnother]
    rw [← fetchesHot.unique isOne] at isName
    rw [← isName]
    decide +kernel
  have staysOut :
      StaysOut hotHost.files ([] ++ .php :: []) (oneNode "x") .php := by
    unfold StaysOut
    decide +kernel
  have stops : Leads hotHost .asAdded (fewTemplates [])
      (.error (.badReal "hot")) (fewTemplates [])
      (convertUpTo fewClient ([] ++ .php :: []) [choiceOf "b"] ([] ++ [.php])
        (choiceOf "a")) :=
    (leads_printBanner _ _ _).bind
      (.bind_error (.bind_error (leads_convertChosen fetchesHot rfl
      fun name => .bind_error (leads_convert name converted_hotWorkflow))))
  obtain ⟨generator, code, first, second, third, made, generated, hasCode,
    isSaved, _⟩ :=
    (@converted_eq_true_iff hotHost _ _ _).mp
      (converted_oneNode (by cbv) savesOneNode_pair.1.1)
  obtain ⟨stopped, isStopped, _⟩ :=
    stops hotHost ⟨steady, fun _ => rfl, rfl⟩ rfl
  obtain ⟨text, named, ⟨_, _, _, isReached, _⟩ | ⟨fault, ended, isFault,
    isEnded, isKept⟩⟩ :=
    convertAll_saves_reached sound steady fetches apart (by decide) staysOut
      made generated hasCode isSaved
  · cases (congrArg Prod.fst isStopped).symm.trans (congrArg Prod.fst isReached)
  · rw [isStopped, Prod.mk.injEq, Except.error.injEq] at isFault
    obtain ⟨rfl, rfl⟩ := isFault
    cases named
    exact ⟨generator, code, first, second, third, stopped, made, generated,
      hasCode, isSaved, isEnded, isKept⟩

end Program

end Flowgen
