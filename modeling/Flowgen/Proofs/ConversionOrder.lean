import Flowgen.Proofs.ConversionRuns
import Mathlib.Data.List.Pairwise

namespace Flowgen

/-!
# The order of conversions

A run in which every conversion ends well leaves at each place what one of
them would leave there alone, or what was there before.  So two runs that
convert the same workflows to the same languages leave the same files,
whatever the order, if both walk alike through the names that a class takes.
-/

open Session

namespace Program

open FileTree Flowgen.Class

variable {client : Client}
variable {walk running : SetOrder} {base tree after : FileTree}
variable {done : Value → Language → Prop} {workflow other : Value}
variable {language its : Language} {names : List String}

/-- The tree after a workflow is converted to a language alone. -/
def alone
    (walk : SetOrder)
    (base : FileTree)
    (workflow : Value)
    (language : Language) :
    FileTree :=
  ((converted workflow language).among walk base).2

/--
A tree that holds what conversions leave when each is done alone, and else
what was there.
-/
structure Laid
    (walk : SetOrder)
    (base : FileTree)
    (done : Value → Language → Prop)
    (tree : FileTree) : Prop where
  grown : Grown done base.prepared tree.prepared
  ended : ∀ workflow language, done workflow language →
    ∃ result, ((converted workflow language).among walk base).1 = .ok result
  kept : ∀ names,
    (∀ workflow language, done workflow language →
      FileTree.entry? (alone walk base workflow language) names =
        base.entry? names) →
    tree.entry? names = base.entry? names
  laid : ∀ workflow language names, done workflow language →
    FileTree.entry? (alone walk base workflow language) names ≠
      base.entry? names →
    tree.entry? names = FileTree.entry? (alone walk base workflow language)
      names

theorem Laid.start
    (walk : SetOrder)
    (base : FileTree) :
    Laid walk base (fun _ _ => False) base where
  grown := .refl _ _
  ended _ _ := False.elim
  kept _ _ := rfl
  laid _ _ _ := False.elim

theorem Laid.congr
    {wider : Value → Language → Prop}
    (laid : Laid walk base done tree)
    (same : ∀ workflow language, done workflow language ↔
      wider workflow language) :
    Laid walk base wider tree := by
  obtain rfl : done = wider := funext fun workflow => funext fun language =>
    propext (same workflow language)
  exact laid

theorem Laid.unique
    (first : Laid walk base done tree)
    (second : Laid walk base done after)
    (names : List String) :
    tree.entry? names = after.entry? names := by
  by_cases changed : ∃ workflow language, done workflow language ∧
      FileTree.entry? (alone walk base workflow language) names ≠
        base.entry? names
  · obtain ⟨workflow, language, isDone, isChanged⟩ := changed
    rw [first.laid workflow language names isDone isChanged,
      second.laid workflow language names isDone isChanged]
  · have unchanged : ∀ workflow language, done workflow language →
        FileTree.entry? (alone walk base workflow language) names =
          base.entry? names := by
      intro workflow language isDone
      by_contra isChanged
      exact changed ⟨workflow, language, isDone, isChanged⟩
    rw [first.kept names unchanged, second.kept names unchanged]

/--
A place that one conversion changed from what was there at the start, and
another one changes again, belongs to the code of both.
-/
theorem eq_of_changed_again
    {left entry : Option Entry}
    (first : Growth (fun one language => one = other ∧ language = its) base
      names left)
    (second : Growth (fun one its => one = workflow ∧ its = language) tree names
      entry)
    (isLeft : tree.entry? names = left)
    (isChanged : left ≠ base.entry? names)
    (isChangedAgain : entry ≠ tree.entry? names)
    (distinct : savedName workflow = savedName other →
      (savedName workflow).isSome = true → other = workflow) :
    other = workflow ∧ its = language := by
  have isThere : tree.entry? names ≠ none := by
    rw [isLeft]
    rintro rfl
    exact isChanged first.eq_none.symm
  cases second with
  | same isSame =>
      exact absurd isSame isChangedAgain
  | directory _ _ wasMissing _ =>
      exact absurd wasMissing isThere
  | credentials _ _ wasMissing _ _ _ =>
      exact absurd wasMissing isThere
  | code isDone named isPlace _ _ =>
      obtain ⟨rfl, rfl⟩ := isDone
      cases first with
      | same isSame =>
          exact absurd isSame isChanged
      | directory _ isOther _ _ =>
          rw [isPlace] at isOther
          simp [Output.codePlace, Output.languagePlace] at isOther
      | credentials _ isOther _ _ _ _ =>
          rw [isPlace] at isOther
          exact absurd isOther (Output.codePlace_ne_credentialsPlace _ _ _)
      | code isDone otherNamed isOther _ _ =>
          obtain ⟨rfl, rfl⟩ := isDone
          obtain ⟨sameLanguage, sameName, isNamed⟩ :=
            savedName_eq_of_codePlace named otherNamed
              (isPlace.symm.trans isOther)
          exact ⟨distinct sameName isNamed, sameLanguage.symm⟩

/-- A conversion lays what it would leave alone over what is laid. -/
theorem Laid.step
    {languages : List Language}
    {result : Option Bool}
    (laid : Laid walk base done tree)
    (inLanguages : ∀ workflow language, done workflow language →
      language ∈ languages)
    (sound : base.Sound)
    (staysOut : StaysOut base languages workflow language)
    (whole : base.CopiesWhole language)
    (same : Parameters.ofClass running workflow =
      Parameters.ofClass walk workflow)
    (distinct : ∀ other its, done other its →
      savedName workflow = savedName other →
      (savedName workflow).isSome = true → other = workflow)
    (ended : (converted workflow language).among running tree =
      (.ok result, after)) :
    Laid walk base (fun other its =>
      done other its ∨ other = workflow ∧ its = language) after := by
  obtain ⟨left, aloneEnded, joint⟩ :=
    converted_of_grown inLanguages sound staysOut whole.prepared same laid.grown
      ended
  obtain rfl : alone walk base workflow language = left := by
    rw [alone, aloneEnded]
  have step := grown_converted workflow language running tree
  rw [ended] at step
  have ready := ready_of_converted ended
  -- What an earlier conversion left is still there, or this conversion would
  -- leave it too.
  have stillLaid : ∀ other its names, done other its →
      FileTree.entry? (alone walk base other its) names ≠ base.entry? names →
      after.entry? names = FileTree.entry? (alone walk base other its)
        names := by
    intro other its names isDone isChanged
    have wasLaid := laid.laid other its names isDone isChanged
    obtain ⟨otherResult, otherEnded⟩ := laid.ended other its isDone
    have otherReady : (alone walk base other its).Ready :=
      ready_of_converted (Prod.ext otherEnded rfl)
    by_cases isShared : names ∈ sharedPlaces
    · exact (ready.entry?_shared isShared).trans
        (otherReady.entry?_shared isShared).symm
    · obtain ⟨_, same⟩ | same := joint names
      · exact same.trans wasLaid
      · by_cases isKept : after.entry? names = tree.entry? names
        · exact isKept.trans wasLaid
        · have first := (grown_converted other its walk base).entries names
          have second := step.entries names
          have notPrepared : ∀ tree : FileTree,
              tree.prepared.entry? names = tree.entry? names :=
            fun tree => entry?_prepared_of_not_shared isShared
          rw [notPrepared] at first second
          obtain ⟨rfl, rfl⟩ := eq_of_changed_again first second
            ((notPrepared tree).trans wasLaid) (by rwa [notPrepared])
              (by rwa [notPrepared])
            (distinct other its isDone)
          exact same
  exact {
    grown := (laid.grown.mono fun _ _ => .inl).trans (step.mono fun _ _ => .inr)
    ended := by
      rintro other its (isDone | ⟨rfl, rfl⟩)
      · exact laid.ended other its isDone
      · exact ⟨result, by rw [aloneEnded]⟩
    kept := by
      intro names unchanged
      obtain ⟨_, same⟩ | same := joint names
      · rw [same]
        exact laid.kept names fun other its isDone =>
          unchanged other its (.inl isDone)
      · rw [same]
        exact unchanged workflow language (.inr ⟨rfl, rfl⟩)
    laid := by
      rintro other its names (isDone | ⟨rfl, rfl⟩) isChanged
      · exact stillLaid other its names isDone isChanged
      · obtain ⟨same, _⟩ | same := joint names
        · exact absurd same isChanged
        · exact same }

/--
Converting a workflow to languages lays what each of the conversions would
leave alone.
-/
theorem Laid.languages
    {languages order : List Language}
    {name : Value}
    (laid : Laid walk base done tree)
    (inLanguages : ∀ workflow language, done workflow language →
      language ∈ languages)
    (inOrder : ∀ language ∈ order, language ∈ languages)
    (sound : base.Sound)
    (staysOut : ∀ language ∈ order, StaysOut base languages workflow language)
    (whole : ∀ language ∈ order, base.CopiesWhole language)
    (same : Parameters.ofClass running workflow =
      Parameters.ofClass walk workflow)
    (distinct : ∀ other its, done other its →
      savedName workflow = savedName other →
      (savedName workflow).isSome = true → other = workflow)
    (ended : (order.forM (convert name workflow)).among running tree =
      (.ok (), after)) :
    Laid walk base (fun other its =>
      done other its ∨ other = workflow ∧ its ∈ order) after := by
  induction order generalizing done tree with
  | nil =>
      cases ended
      simpa using laid
  | cons language order inductionHypothesis =>
      obtain ⟨isLanguage, inOrder⟩ := List.forall_mem_cons.mp inOrder
      obtain ⟨stays, staysOut⟩ := List.forall_mem_cons.mp staysOut
      obtain ⟨isWhole, whole⟩ := List.forall_mem_cons.mp whole
      change (convert name workflow language >>= fun _ =>
        order.forM (convert name workflow)).among running tree = _ at ended
      rw [among_bind (local_convert name workflow language) fun _ =>
        .forM (local_convert name workflow), among_convert] at ended
      rcases first : (converted workflow language).among running tree with
        ⟨fault | result, between⟩
      · rw [first] at ended
        cases ended
      · rw [first] at ended
        have step :=
          laid.step inLanguages sound stays isWhole same distinct first
        refine (inductionHypothesis step ?_ inOrder staysOut whole ?_
          ended).congr fun other its => ?_
        · rintro other its (isDone | ⟨rfl, rfl⟩)
          · exact inLanguages other its isDone
          · exact isLanguage
        · rintro other its (isDone | ⟨rfl, rfl⟩) same isNamed
          · exact distinct other its isDone same isNamed
          · rfl
        · rw [List.mem_cons, and_or_left, or_assoc]

/-- Chosen workflows whose conversions do not get in each other's way. -/
structure Independent
    (client : Client)
    (start : Host)
    (languages : List Language)
    (chosen : List Value) : Prop where
  sound : start.files.Sound
  staysOut :
    ∀ choice ∈ chosen, ∀ workflow, Fetches client start choice workflow →
      ∀ language ∈ languages, StaysOut start.files languages workflow language
  whole : ∀ language ∈ languages, start.files.CopiesWhole language
  distinct :
    ∀ choice ∈ chosen, ∀ workflow, Fetches client start choice workflow →
      ∀ other ∈ chosen, ∀ second, Fetches client start other second →
        savedName workflow = savedName second →
          (savedName workflow).isSome = true → second = workflow

/-- A run that ends well lays what each of its conversions would leave alone. -/
theorem Laid.chosen
    {start host ended : Host}
    {languages order : List Language}
    {all before rest : List Value}
    (laid : Laid start.setOrder start.files
      (IsPlanned client start order before) host.files)
    (independent : Independent client start languages all)
    (inOrder : ∀ language ∈ order, language ∈ languages)
    (inAll : ∀ choice ∈ before ++ rest, choice ∈ all)
    (same : ∀ choice ∈ all, ∀ workflow, Fetches client start choice workflow →
      Parameters.ofClass running workflow =
        Parameters.ofClass start.setOrder workflow)
    (serves : Serves start running host)
    (isEnded : (rest.forM (convertChosen client order)).start host =
      (.ok (), ended)) :
    Laid start.setOrder start.files
      (IsPlanned client start order (before ++ rest)) ended.files := by
  induction rest generalizing before host with
  | nil =>
      cases isEnded
      rwa [List.append_nil]
  | cons choice rest inductionHypothesis =>
      obtain ⟨_, between, first, isEnded⟩ := bind_start_eq_ok.mp
        (show (convertChosen client order choice >>= fun _ =>
          rest.forM (convertChosen client order)).start host =
            (.ok (), ended) from isEnded)
      have isOne : choice ∈ all := inAll choice (by simp)
      have servesNext := (adds_convertChosen client order choice host serves).1
      rw [first] at servesNext
      rw [show before ++ choice :: rest = (before ++ [choice]) ++ rest by simp]
        at inAll ⊢
      refine inductionHypothesis ?_ inAll servesNext isEnded
      obtain ⟨started, sameFiles, servesStarted, cases⟩ :=
        convertChosen_cases client choice serves
      rw [← sameFiles] at laid
      obtain ⟨fault, _, failed⟩ | ⟨workflow, fetches, isFalsy, skipped⟩ |
        ⟨name, workflow, _, fetches, isTruthy, converts⟩ := cases
      · rw [failed] at first
        cases first
      · rw [skipped] at first
        cases first
        refine laid.congr fun other its => ?_
        rw [isPlanned_concat, or_iff_left]
        rintro ⟨_, isTruthy, alsoFetches⟩
        rw [← fetches.unique alsoFetches, isFalsy] at isTruthy
        cases isTruthy
      · have isLocal : Local (order.forM (convert name workflow)) :=
          .forM (local_convert name workflow)
        obtain ⟨outcome, filesAre, _⟩ := isLocal.start_facts started
        rw [← converts, first, servesStarted.sameOrder] at outcome filesAre
        refine (laid.languages (fun _ _ isPlanned => inOrder _ isPlanned.1)
          inOrder independent.sound
          (fun language isLanguage =>
            independent.staysOut choice isOne workflow fetches language
            (inOrder language isLanguage))
          (fun language isLanguage =>
            independent.whole language (inOrder language isLanguage))
          (same choice isOne workflow fetches) ?_
            (Prod.ext outcome.symm filesAre.symm)).congr ?_
        · rintro other its ⟨_, _, another, isChosen, alsoFetches⟩ same isNamed
          exact independent.distinct choice isOne workflow fetches another
            (inAll another (by simp [isChosen])) other alsoFetches same isNamed
        · intro other its
          rw [isPlanned_concat]
          refine or_congr_right ⟨?_, ?_⟩
          · rintro ⟨rfl, isLanguage⟩
            exact ⟨isLanguage, isTruthy, fetches⟩
          · rintro ⟨isLanguage, _, alsoFetches⟩
            exact ⟨(fetches.unique alsoFetches).symm, isLanguage⟩

theorem convertAll_eq_ok
    {host ended : Host}
    {languages : List Language}
    {chosen : List Value}
    (isEnded : (convertAll client languages chosen).start host =
      (.ok (), ended)) :
    ∃ printed converted : Host, printed.files = host.files ∧
      printed.server = host.server ∧ printed.setOrder = host.setOrder ∧
      (chosen.forM (convertChosen client languages)).start printed =
        (.ok (), converted) ∧
      ended.files = converted.files := by
  obtain ⟨printed, isPrinted, sameFiles, sameServer, sameOrder⟩ :=
    start_printBanner "\n" "Gerando código..." host
  rw [convertAll, start_bind, isPrinted] at isEnded
  obtain ⟨_, converted, isConverted, isEnded⟩ := bind_start_eq_ok.mp isEnded
  obtain ⟨last, isLast, keptFiles, _⟩ :=
    start_printBanner "\n" "Conversão concluída!" converted
  rw [isLast, Prod.mk.injEq] at isEnded
  exact ⟨printed, converted, sameFiles, sameServer, sameOrder, isConverted,
    isEnded.2 ▸ keptFiles⟩

theorem laid_convertAll
    {start host ended : Host}
    {languages order : List Language}
    {all chosen : List Value}
    (independent : Independent client start languages all)
    (inOrder : ∀ language ∈ order, language ∈ languages)
    (inAll : ∀ choice ∈ chosen, choice ∈ all)
    (same : ∀ choice ∈ all, ∀ workflow, Fetches client start choice workflow →
      Parameters.ofClass host.setOrder workflow =
        Parameters.ofClass start.setOrder workflow)
    (steady : start.server.Steady)
    (sameFiles : host.files = start.files)
    (sameServer : host.server = start.server)
    (isEnded : (convertAll client order chosen).start host = (.ok (), ended)) :
    Laid start.setOrder start.files (IsPlanned client start order chosen)
      ended.files := by
  obtain ⟨printed, converted, keptFiles, keptServer, keptOrder, isConverted,
    filesAre⟩ :=
    convertAll_eq_ok isEnded
  have laid : Laid start.setOrder start.files (IsPlanned client start order [])
      printed.files := by
    rw [keptFiles, sameFiles]
    exact (Laid.start start.setOrder start.files).congr
      fun workflow language => by simp [IsPlanned]
  have serves : Serves start start.setOrder start := ⟨steady, fun _ => rfl, rfl⟩
  have serves : Serves start host.setOrder printed :=
    ⟨keptServer ▸ sameServer ▸ serves.steady,
      keptServer ▸ sameServer ▸ serves.alike, keptOrder⟩
  rw [filesAre]
  exact laid.chosen independent inOrder inAll same serves isConverted

/-- Two chosen workflows that are saved under different names. -/
def SavedApart (client : Client) (host : Host) (first second : Value) : Prop :=
  ∀ one another, Fetches client host first one →
    Fetches client host second another →
    ∀ name, savedName one = some name → savedName another ≠ some name

/--
Workflows are the same if they share a name and all are saved under different
names.
-/
theorem eq_of_savedName_eq
    {host : Host}
    {chosen : List Value}
    (distinct : chosen.Pairwise (SavedApart client host)) :
    ∀ choice ∈ chosen, ∀ workflow, Fetches client host choice workflow →
      ∀ other ∈ chosen, ∀ second, Fetches client host other second →
        savedName workflow = savedName second →
          (savedName workflow).isSome = true → second = workflow := by
  have symmetric : Std.Symm (SavedApart client host) :=
    ⟨fun _ _ apart one another isOne isAnother name named alsoNamed =>
      apart another one isAnother isOne name alsoNamed named⟩
  intro choice isChosen workflow fetches other isOther second alsoFetches same
    isNamed
  by_cases isSame : choice = other
  · subst isSame
    exact alsoFetches.unique fetches
  · obtain ⟨name, isName⟩ := Option.isSome_iff_exists.mp isNamed
    exact absurd (same.symm.trans isName)
      (distinct.forall isChosen isOther isSame workflow second fetches
        alsoFetches name isName)

/--
Two runs that start with the same files and the same steady server, and
convert the same workflows to the same languages in any order, leave the same
files if both end well.  The workflows should be saved under different names,
and both runs should meet the names that a class takes in the same order.  No
template should be looked for through a directory that is yet to be made, and
no copy of missing credentials should break off.
-/
theorem convertAll_files_eq_of_perm
    {host otherHost ended otherEnded : Host}
    {chosen otherChosen : List Value}
    {languages otherLanguages : List Language}
    (sound : host.files.Sound)
    (steady : host.server.Steady)
    (sameFiles : otherHost.files = host.files)
    (sameServer : otherHost.server = host.server)
    (sameNames : ∀ choice ∈ chosen, ∀ workflow,
      Fetches client host choice workflow →
      Parameters.ofClass otherHost.setOrder workflow =
        Parameters.ofClass host.setOrder workflow)
    (chosenPerm : otherChosen.Perm chosen)
    (languagesPerm : otherLanguages.Perm languages)
    (distinct : chosen.Pairwise (SavedApart client host))
    (staysOut : ∀ choice ∈ chosen, ∀ workflow,
      Fetches client host choice workflow →
      ∀ language ∈ languages, StaysOut host.files languages workflow language)
    (whole : ∀ language ∈ languages, host.files.CopiesWhole language)
    (isEnded : (convertAll client languages chosen).start host =
      (.ok (), ended))
    (isOtherEnded : (convertAll client otherLanguages otherChosen).start
      otherHost = (.ok (), otherEnded))
    (names : List String) :
    otherEnded.files.entry? names = ended.files.entry? names := by
  have independent : Independent client host languages chosen :=
    ⟨sound, staysOut, whole, eq_of_savedName_eq distinct⟩
  have laid := laid_convertAll independent (fun _ => id) (fun _ => id)
    (fun _ _ _ _ => rfl) steady rfl rfl isEnded
  have otherLaid :=
    laid_convertAll independent (fun _ => languagesPerm.mem_iff.mp)
    (fun _ => chosenPerm.mem_iff.mp) sameNames steady sameFiles sameServer
      isOtherEnded
  refine (otherLaid.congr fun workflow language => ?_).unique laid names
  simp only [IsPlanned, languagesPerm.mem_iff, chosenPerm.mem_iff]

/--
A tree with a few templates and with code that is saved for a workflow `w`.  A
class calls its methods, and the method for a node of the type `x` is empty.
-/
def fewTemplates (codes : List (Language × String)) : FileTree :=
  { FileTree.empty "/home" with
    entries :=
      [(["templates"], .directory),
       (["templates", "languages"], .directory),
       (["templates", "languages", "php.xml"],
        .file (.text "<l><class>-\x7b\x7bsteps_calls\x7d\x7d</class></l>")),
       (["templates", "languages", "python.xml"],
        .file (.text "<l><class>-\x7b\x7bsteps_calls\x7d\x7d</class></l>")),
       (["templates", "nodes"], .directory),
       (["templates", "nodes", "x.xml"],
        .file (.text "<n><name>x</name><method></method></n>")),
       (["output"], .directory),
       (["output", "credentials"], .directory)] ++
      codes.flatMap fun code =>
        [(["output", code.1.code], .directory),
         (Output.codePlace code.1 "w", .file (.text code.2))] }

/-- The node `n` of a type. -/
def nodeOf (type : String) : Value :=
  .object [("id", .text "n"), ("name", .text "n"), ("type", .text type),
    ("parameters", .object [])]

/-- The workflow `w` with one node of a type. -/
def oneNode (type : String) : Value :=
  .object [("name", .text "w"), ("nodes", .list [nodeOf type])]

/--
Surroundings with a few templates, where a server always delivers the same
workflows.
-/
def fewHost (order : SetOrder) (workflows : List (String × Value)) : Host where
  files := fewTemplates []
  environment := []
  answers := []
  server := ⟨workflows.map fun entry =>
    ("n8n/api/v1/workflows/" ++ entry.1, [.answer 200 "OK" (.value entry.2)])⟩
  requests := []
  output := ""
  setOrder := order

def fewClient : Client :=
  ⟨"n8n", .text "key"⟩

/-- The choice of a workflow by its identifier. -/
def choiceOf (id : String) : Value :=
  .object [("id", .text id)]

theorem steady_fewHost
    (order : SetOrder)
    (workflows : List (String × Value)) :
    (fewHost order workflows).server.Steady := by
  intro address replies found reply member
  obtain ⟨before, after, split, _⟩ := List.lookup_eq_some_iff.mp found
  have isEntry :
      (address, replies) ∈ (fewHost order workflows).server.replies := by
    simp [split]
  obtain ⟨entry, _, isReply⟩ := List.mem_map.mp isEntry
  cases isReply
  rw [List.mem_singleton.mp member]
  rfl

theorem serves_fewHost
    (order another : SetOrder)
    (workflows : List (String × Value)) :
    Serves (fewHost order workflows) another (fewHost another workflows) :=
  ⟨steady_fewHost another workflows, fun _ => rfl, rfl⟩

theorem sound_fewTemplates : (fewTemplates []).Sound :=
  sound_of_all (by decide +kernel)

theorem ready_fewTemplates
    (codes : List (Language × String)) :
    (fewTemplates codes).Ready :=
  ⟨rfl, rfl⟩

theorem copiesWhole_fewTemplates
    (codes : List (Language × String))
    (language : Language) :
    (fewTemplates codes).CopiesWhole language :=
  fun _ _ _ _ => rfl

/-- A class template that calls methods. -/
def callsOnly : String :=
  "-\x7b\x7bsteps_calls\x7d\x7d"

/--
A class for the workflow `w` is filled to this code, which is saved beside
other codes.
-/
def SavesOneNode
    (walk : SetOrder)
    (type : String)
    (codes : List (Language × String))
    (language : Language)
    (code : String) :
    Prop :=
  ((Template.Store.standard.loadClass (.text language.code)).among walk
      (fewTemplates codes)).1.toOption = some (some callsOnly) ∧
    ((generatorFor language).filled callsOnly (oneNode type) [nodeOf type] walk
      (fewTemplates codes)).toOption = some code ∧
    code ≠ "" ∧
    (((generatorFor language).save (oneNode type) (.text code)).among walk
      (fewTemplates codes)).1.toOption = some true ∧
    (((generatorFor language).save (oneNode type) (.text code)).among walk
      (fewTemplates codes)).2 = fewTemplates (codes ++ [(language, code)])

instance
    (type : String)
    (codes : List (Language × String))
    (code : String) :
    Decidable (SavesOneNode walk type codes language code) :=
  inferInstanceAs (Decidable (_ ∧ _ ∧ _ ∧ _ ∧ _))

theorem converted_oneNode
    {type code : String}
    {codes : List (Language × String)}
    (inOrder :
      ExecutionOrder.ordered (.list [nodeOf type]) = .ok [nodeOf type])
    (saves : SavesOneNode walk type codes language code) :
    (converted (oneNode type) language).among walk (fewTemplates codes) =
      (.ok (some true), fewTemplates (codes ++ [(language, code)])) := by
  obtain ⟨isLoaded, isFilled, hasCode, isSaved, left⟩ := saves
  have ready := ready_fewTemplates codes
  have same := ready.prepared_eq
  have isLoaded := eq_ok_of_toOption isLoaded
  have isFilled := eq_ok_of_toOption isFilled
  have isSaved : ((generatorFor language).save (oneNode type)
      (.text code)).among walk (fewTemplates codes) =
        (.ok true, fewTemplates (codes ++ [(language, code)])) :=
    Prod.ext (eq_ok_of_toOption isSaved) left
  rw [← same] at ready isLoaded isFilled isSaved
  exact converted_of_filled ready isLoaded (by decide) rfl rfl inOrder isFilled
    hasCode isSaved

/--
The workflow is converted to one language and then to the other, whichever of
them comes first.
-/
theorem savesOneNode_pair :
    (SavesOneNode .asAdded "x" [] .php "-" ∧
      SavesOneNode .asAdded "x" [(.php, "-")] .python "-") ∧
      SavesOneNode .increasing "x" [] .python "-" ∧
      SavesOneNode .increasing "x" [(.python, "-")] .php "-" := by
  decide +kernel

theorem fetches_fewHost
    (order : SetOrder)
    (workflow : Value)
    (others : List (String × Value)) :
    Fetches fewClient (fewHost order (("a", workflow) :: others)) (choiceOf "a")
      workflow :=
  ⟨.text "a", rfl, rfl⟩

/-- A workflow without nodes. -/
def noNodes : Value :=
  .object [("name", .text "v")]

theorem converted_noNodes
    {codes : List (Language × String)}
    (isNone : (((generatorFor language).generate noNodes).among walk
      (fewTemplates codes)).1.toOption = some none) :
    (converted noNodes language).among walk (fewTemplates codes) =
      (.ok none, fewTemplates codes) := by
  refine converted_eq_ok.mpr ?_
  rw [(ready_fewTemplates codes).prepared_eq]
  exact ⟨ready_fewTemplates codes, none, eq_ok_of_toOption isNone, rfl⟩

/-- A chosen workflow that is converted to one language and then to another. -/
theorem leads_convertChosen_pair
    {start : Host}
    {chosen workflow : Value}
    {one another : Language}
    {before between after : FileTree}
    {result otherResult : Option Bool}
    (fetches : Fetches client start chosen workflow)
    (isTruthy : workflow.isTruthy = true)
    (first : (converted workflow one).among walk before = (.ok result, between))
    (second : (converted workflow another).among walk between =
      (.ok otherResult, after)) :
    Leads start walk before (.ok ()) after
      (convertChosen client [one, another] chosen) :=
  leads_convertChosen fetches isTruthy fun name =>
    .forM_cons (leads_convert name first)
      (.forM_cons (leads_convert name second) .forM_nil)

/--
Two workflows and two languages, both in two orders, where sets are walked in
two orders; one workflow has no nodes.
-/
theorem convertAll_files_eq_of_perm_pair :
    ∃ ended otherEnded : Host,
      (convertAll fewClient [.php, .python] [choiceOf "a", choiceOf "b"]).start
        (fewHost .asAdded [("a", oneNode "x"), ("b", noNodes)]) =
          (.ok (), ended) ∧
      (convertAll fewClient [.python, .php] [choiceOf "b", choiceOf "a"]).start
        (fewHost .increasing [("a", oneNode "x"), ("b", noNodes)]) =
          (.ok (), otherEnded) ∧
      ended.files.entry? (Output.codePlace .php "w") =
        some (.file (.text "-")) ∧
      ∀ names, otherEnded.files.entry? names = ended.files.entry? names := by
  have fetchesOne := fetches_fewHost .asAdded (oneNode "x") [("b", noNodes)]
  have fetchesNone :
      Fetches fewClient (fewHost .asAdded [("a", oneNode "x"), ("b", noNodes)])
      (choiceOf "b") noNodes :=
    ⟨.text "b", rfl, rfl⟩
  have inOrder :
      ExecutionOrder.ordered (.list [nodeOf "x"]) = .ok [nodeOf "x"] := by
    cbv
  obtain ⟨⟨php, pythonAfter⟩, python, phpAfter⟩ := savesOneNode_pair
  have noCode :
      ∀ run ∈ [(SetOrder.asAdded, [(Language.php, "-"), (.python, "-")]),
          (.increasing, [])],
        ∀ language ∈ [Language.php, .python],
          (((generatorFor language).generate noNodes).among run.1
            (fewTemplates run.2)).1.toOption = some none := by
    decide +kernel
  simp only [List.forall_mem_cons] at noCode
  obtain ⟨⟨noPhp, noPython, _⟩, ⟨noPhpFirst, noPythonFirst, _⟩, _⟩ := noCode
  obtain ⟨ended, isEnded, filesAre, _⟩ := leads_convertAll
    (.forM_cons (leads_convertChosen_pair fetchesOne rfl
        (converted_oneNode inOrder php) (converted_oneNode inOrder pythonAfter))
      (.forM_cons (leads_convertChosen_pair fetchesNone rfl
        (converted_noNodes noPhp) (converted_noNodes noPython)) .forM_nil))
    _ (serves_fewHost _ _ _) rfl
  obtain ⟨otherEnded, isOtherEnded, otherFilesAre, _⟩ := leads_convertAll
    (.forM_cons (leads_convertChosen_pair fetchesNone rfl
        (converted_noNodes noPythonFirst) (converted_noNodes noPhpFirst))
      (.forM_cons (leads_convertChosen_pair fetchesOne rfl
        (converted_oneNode inOrder python)
        (converted_oneNode inOrder phpAfter)) .forM_nil))
    _ (serves_fewHost _ _ _) rfl
  refine ⟨ended, otherEnded, isEnded, isOtherEnded,
    by rw [filesAre]; decide +kernel, ?_⟩
  have sameNames : ∀ workflow ∈ [oneNode "x", noNodes],
      Parameters.ofClass .increasing workflow =
        Parameters.ofClass .asAdded workflow := by
    decide +kernel
  have straight :
      ∀ workflow ∈ [oneNode "x", noNodes], ∀ language ∈ [Language.php, .python],
      ∀ file ∈ (generatorFor language).templateFiles workflow,
        (fewTemplates []).turnsBack
          ((fewTemplates []).newLanguages [.php, .python])
          ((fewTemplates []).rootPlace file.root) file.parts = false := by
    decide +kernel
  simp only [List.forall_mem_cons] at sameNames straight
  refine convertAll_files_eq_of_perm sound_fewTemplates (steady_fewHost _ _)
    (by rfl) (by rfl) ?_ (.swap _ _ []) (.swap _ _ []) ?_ ?_
    (fun _ _ => copiesWhole_fewTemplates [] _) isEnded isOtherEnded
  · simp only [List.forall_mem_cons]
    refine ⟨fun workflow fetches => ?_, fun workflow fetches => ?_, by simp⟩
    · rw [← fetchesOne.unique fetches]
      exact sameNames.1
    · rw [← fetchesNone.unique fetches]
      exact sameNames.2.1
  · refine List.pairwise_pair.mpr ?_
    intro one another isOne isAnother name isName
    rw [← fetchesNone.unique isAnother]
    rw [← fetchesOne.unique isOne] at isName
    rw [← isName]
    decide +kernel
  · simp only [List.forall_mem_cons]
    refine ⟨fun workflow fetches => ?_, fun workflow fetches => ?_, by simp⟩
    · rw [← fetchesOne.unique fetches]
      exact straight.1
    · rw [← fetchesNone.unique fetches]
      exact straight.2.1

/-- A type whose template is looked for through the directory of Python. -/
def crossingType : String :=
  "../../output/python/../../templates/nodes/x"

/--
The order shows in the files if a template is looked for through a directory
that is yet to be made: the class in PHP calls a method or not, as it comes
before or after that in Python.
-/
theorem convertAll_crossing_files_ne :
    (fewHost .asAdded [("a", oneNode crossingType)]).files.Sound ∧
      (fewHost .asAdded [("a", oneNode crossingType)]).server.Steady ∧
      ∃ ended otherEnded : Host,
        (convertAll fewClient [.php, .python] [choiceOf "a"]).start
          (fewHost .asAdded [("a", oneNode crossingType)]) = (.ok (), ended) ∧
        (convertAll fewClient [.python, .php] [choiceOf "a"]).start
          (fewHost .asAdded [("a", oneNode crossingType)]) =
            (.ok (), otherEnded) ∧
        otherEnded.files.entry? (Output.codePlace .php "w") ≠
          ended.files.entry? (Output.codePlace .php "w") := by
  refine ⟨sound_fewTemplates, steady_fewHost _ _, ?_⟩
  have fetches := fetches_fewHost .asAdded (oneNode crossingType) []
  have inOrder : ExecutionOrder.ordered (.list [nodeOf crossingType]) =
      .ok [nodeOf crossingType] := by
    cbv
  have saves :
      (SavesOneNode .asAdded crossingType [] .php "-$this->n();" ∧
        SavesOneNode .asAdded crossingType [(.php, "-$this->n();")] .python
          "-$this->n();") ∧
        SavesOneNode .asAdded crossingType [] .python "-$this->n();" ∧
        SavesOneNode .asAdded crossingType [(.python, "-$this->n();")] .php
          "-" := by
    decide +kernel
  obtain ⟨⟨phpFirst, pythonSecond⟩, pythonFirst, phpSecond⟩ := saves
  obtain ⟨ended, isEnded, filesAre, _⟩ := leads_convertAll
    (.forM_cons (leads_convertChosen_pair fetches rfl
      (converted_oneNode inOrder phpFirst)
      (converted_oneNode inOrder pythonSecond)) .forM_nil)
    _ (serves_fewHost _ _ _) rfl
  obtain ⟨otherEnded, isOtherEnded, otherFilesAre, _⟩ := leads_convertAll
    (.forM_cons (leads_convertChosen_pair fetches rfl
      (converted_oneNode inOrder pythonFirst)
      (converted_oneNode inOrder phpSecond)) .forM_nil)
    _ (serves_fewHost _ _ _) rfl
  refine ⟨ended, otherEnded, isEnded, isOtherEnded, ?_⟩
  rw [filesAre, otherFilesAre]
  decide +kernel

end Program

end Flowgen
