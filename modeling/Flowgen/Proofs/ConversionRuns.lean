import Flowgen.Proofs.Conversions
import Flowgen.Proofs.SteadyServers

namespace Flowgen

/-!
# Converting many workflows

Chosen workflows are fetched one after the other, and each is converted to
each language.  With a steady server, a run only adds what its conversions
add, each to the tree as it was at the start.
-/

open Session

namespace Program

open FileTree Flowgen.Class

variable {client : Client} {start host after : Host} {order : SetOrder}
variable {chosen workflow : Value}

theorem reports_reportConverted
    (name : Value)
    (language : Language)
    (result : Option Bool) :
    Reports (reportConverted name language result) := by
  unfold reportConverted
  split
  · exact .print _
  · exact .print _
  · exact .print _

theorem local_convert
    (name workflow : Value)
    (language : Language) :
    Local (convert name workflow language) :=
  .bind (.print _) fun _ =>
    .bind (local_converted workflow language) fun result =>
    .reports (reports_reportConverted name language result)

theorem among_convert
    (name workflow : Value)
    (language : Language)
    (order : SetOrder)
    (tree : FileTree) :
    (convert name workflow language).among order tree =
      (((converted workflow language).among order tree).1.map fun _ => (),
        ((converted workflow language).among order tree).2) := by
  have isLocal : ∀ result, Local (reportConverted name language result) :=
    fun result => .reports (reports_reportConverted name language result)
  rw [convert, among_bind (.print _) fun _ =>
    .bind (local_converted workflow language) isLocal, among_print]
  dsimp only
  rw [among_bind (local_converted workflow language) isLocal]
  rcases (converted workflow language).among order tree with
    ⟨fault | result, after⟩
  · rfl
  · rcases result with _ | _ | _ <;> rfl

/-- A workflow that the server delivers for a chosen one. -/
def Fetches (client : Client) (host : Host) (chosen workflow : Value) : Prop :=
  ∃ id, chosen.get "id" .null = .ok id ∧
    ((client.workflow id).start host).1 = .ok workflow

theorem Fetches.unique
    {other : Value}
    (first : Fetches client host chosen workflow)
    (second : Fetches client host chosen other) :
    workflow = other := by
  obtain ⟨id, isId, came⟩ := first
  obtain ⟨_, isAlsoId, alsoCame⟩ := second
  obtain rfl := Except.ok.inj (isId.symm.trans isAlsoId)
  exact Except.ok.inj (came.symm.trans alsoCame)

/-- The conversions that a run from a host is for. -/
def IsPlanned
    (client : Client)
    (host : Host)
    (languages : List Language)
    (chosen : List Value)
    (workflow : Value)
    (language : Language) : Prop :=
  language ∈ languages ∧ workflow.isTruthy = true ∧
    ∃ choice ∈ chosen, Fetches client host choice workflow

theorem isPlanned_concat
    {languages : List Language}
    {before : List Value}
    {language : Language} :
    IsPlanned client host languages (before ++ [chosen]) workflow language ↔
      IsPlanned client host languages before workflow language ∨
        language ∈ languages ∧ workflow.isTruthy = true ∧
        Fetches client host chosen workflow := by
  simp only [IsPlanned, List.mem_append, List.mem_singleton, or_and_right,
    exists_or, exists_eq_left, and_or_left]

/--
Surroundings with a steady server that replies as it did at the start, where
sets are walked in an order.
-/
structure Serves (start : Host) (order : SetOrder) (host : Host) : Prop where
  steady : host.server.Steady
  alike : host.server.Alike start.server
  sameOrder : host.setOrder = order

theorem Serves.of_eq
    {other : Host}
    (serves : Serves start order host)
    (sameServer : other.server = host.server)
    (sameOrder : other.setOrder = host.setOrder) :
    Serves start order other :=
  ⟨sameServer ▸ serves.steady, sameServer ▸ serves.alike,
    sameOrder.trans serves.sameOrder⟩

theorem Serves.asked
    (serves : Serves start order host)
    (client : Client)
    (id : Value) :
    Serves start order ((client.workflow id).start host).2 := by
  obtain ⟨_, _, sameServer, sameOrder⟩ := client.start_workflow id host
  have steady := serves.steady.asked (client.workflowAddress id)
  refine ⟨?_, fun other => ?_, sameOrder.trans serves.sameOrder⟩
  · rw [sameServer]
    exact steady.1
  · rw [sameServer]
    exact (steady.2 other).trans (serves.alike other)

theorem fetches_of_serves
    {id : Value}
    (serves : Serves start order host)
    (isId : chosen.get "id" .null = .ok id)
    (came : ((client.workflow id).start host).1 = .ok workflow) :
    Fetches client start chosen workflow := by
  refine ⟨id, isId, ?_⟩
  rw [(client.start_workflow id start).1, ← serves.alike,
    ← (client.start_workflow id host).1]
  exact came

theorem start_printBanner
    (lead text : String)
    (host : Host) :
    ∃ printed : Host, (printBanner lead text).start host = (.ok (), printed) ∧
      printed.files = host.files ∧ printed.server = host.server ∧
      printed.setOrder = host.setOrder :=
  ⟨_, rfl, rfl, rfl, rfl⟩

/--
Before a chosen workflow is converted the files are as they were.  What comes
first can fail, or deliver a workflow, and does not depend on the languages.
-/
theorem convertChosen_cases
    (client : Client)
    (chosen : Value)
    (serves : Serves start order host) :
    ∃ started : Host, started.files = host.files ∧ Serves start order started ∧
      ((∃ fault, (∀ workflow, ¬ Fetches client start chosen workflow) ∧
          ∀ languages,
            (convertChosen client languages chosen).start host =
              (.error fault, started)) ∨
        (∃ workflow, Fetches client start chosen workflow ∧
          workflow.isTruthy = false ∧
          ∀ languages, (convertChosen client languages chosen).start host =
            (.ok (), started)) ∨
        ∃ name workflow, chosen.get "name" (.text "Workflow sem nome") =
          .ok name ∧
          Fetches client start chosen workflow ∧ workflow.isTruthy = true ∧
          ∀ languages, (convertChosen client languages chosen).start host =
            (languages.forM (convert name workflow)).start started) := by
  unfold convertChosen
  cases named : chosen.get "name" (.text "Workflow sem nome") with
  | error fault =>
      refine ⟨host, rfl, serves, .inl ⟨fault, ?_, fun _ => rfl⟩⟩
      -- What has no fields has no identifier either.
      rintro workflow ⟨id, isId, _⟩
      rw [Value.get_eq_ok.mpr ⟨(Value.get_eq_ok.mp isId).1, rfl⟩] at named
      cases named
  | ok name =>
      cases isId : chosen.get "id" .null with
      | error fault =>
          refine ⟨host, rfl, serves, .inl ⟨fault, ?_, fun _ => rfl⟩⟩
          rintro workflow ⟨id, isAlsoId, _⟩
          cases isId.symm.trans isAlsoId
      | ok id =>
          obtain ⟨printed, isPrinted, sameFiles, sameServer, sameOrder⟩ :=
            start_printBanner "\n" ("Processando: " ++ name.display) host
          simp only [start_bind, start_lift, isPrinted]
          have servesPrinted := serves.of_eq sameServer sameOrder
          obtain ⟨_, keptFiles, _⟩ := client.start_workflow id printed
          have servesLeft := servesPrinted.asked client id
          rcases fetched : (client.workflow id).start printed with
            ⟨fault | workflow, between⟩
          · rw [fetched] at keptFiles servesLeft
            refine ⟨between, keptFiles.trans sameFiles, servesLeft,
              .inl ⟨fault, ?_, fun _ => rfl⟩⟩
            rintro workflow ⟨other, isAlsoId, came⟩
            obtain rfl := Except.ok.inj (isId.symm.trans isAlsoId)
            rw [(client.start_workflow id start).1, ← servesPrinted.alike,
              ← (client.start_workflow id printed).1, fetched] at came
            cases came
          · rw [fetched] at keptFiles servesLeft
            have fetches :=
              fetches_of_serves servesPrinted isId (congrArg Prod.fst fetched)
            cases isTruthy : workflow.isTruthy with
            | true =>
                exact ⟨between, keptFiles.trans sameFiles, servesLeft,
                  .inr (.inr ⟨name, workflow, rfl, fetches, isTruthy,
                    fun _ => by simp [isTruthy]⟩)⟩
            | false =>
                refine ⟨_, ?_, ?_, .inr
                  (.inl ⟨workflow, fetches, isTruthy, fun _ => by
                  simp only [isTruthy, Bool.false_eq_true, if_false]; rfl⟩)⟩
                · exact keptFiles.trans sameFiles
                · exact servesLeft.of_eq rfl rfl

/-- A session that only adds what conversions add, whatever comes of it. -/
def Adds
    (start : Host)
    (order : SetOrder)
    (done : Value → Language → Prop)
    (session : Session α) : Prop :=
  ∀ host : Host, Serves start order host →
    Serves start order (session.start host).2 ∧
      Grown done host.files.prepared (session.start host).2.files.prepared

namespace Adds

variable {done wider : Value → Language → Prop} {session : Session α}

theorem mono
    (each : ∀ workflow language, done workflow language →
      wider workflow language)
    (adds : Adds start order done session) :
    Adds start order wider session :=
  fun host serves => ⟨(adds host serves).1, (adds host serves).2.mono each⟩

theorem reports
    (reports : Reports session) :
    Adds start order done session := by
  intro host serves
  obtain ⟨outcome, printed, reported⟩ := reports host.setOrder
  rw [reported host rfl]
  exact ⟨serves.of_eq rfl rfl, .refl done _⟩

theorem bind
    {next : α → Session β}
    (first : Adds start order done session)
    (rest : ∀ value, Adds start order done (next value)) :
    Adds start order done (session >>= next) := by
  intro host serves
  have added := first host serves
  rw [start_bind]
  rcases ended : session.start host with ⟨fault | value, between⟩
  · rw [ended] at added
    exact added
  · rw [ended] at added
    have addedNext := rest value between added.1
    exact ⟨addedNext.1, added.2.trans addedNext.2⟩

theorem forM
    {items : List α}
    {action : α → Session PUnit}
    (each : ∀ item ∈ items, Adds start order done (action item)) :
    Adds start order done (items.forM action) := by
  induction items with
  | nil =>
      exact reports (.pure PUnit.unit)
  | cons item items inductionHypothesis =>
      obtain ⟨first, others⟩ := List.forall_mem_cons.mp each
      exact bind first fun _ => inductionHypothesis others

end Adds

theorem adds_convert
    (name workflow : Value)
    (language : Language) :
    Adds start order (fun other its => other = workflow ∧ its = language)
      (convert name workflow language) := by
  intro host serves
  obtain ⟨_, filesAre, sameServer, sameOrder⟩ :=
    (local_convert name workflow language).start_facts host
  rw [filesAre, among_convert]
  exact ⟨serves.of_eq sameServer sameOrder,
    grown_converted workflow language host.setOrder host.files⟩

theorem adds_languages
    (name workflow : Value)
    (languages : List Language) :
    Adds start order (fun other its => other = workflow ∧ its ∈ languages)
      (languages.forM (convert name workflow)) := by
  refine .forM fun language isOne =>
    (adds_convert name workflow language).mono ?_
  rintro _ _ ⟨rfl, rfl⟩
  exact ⟨rfl, isOne⟩

theorem adds_convertChosen
    (client : Client)
    (languages : List Language)
    (chosen : Value) :
    Adds start order (IsPlanned client start languages [chosen])
      (convertChosen client languages chosen) := by
  intro host serves
  obtain ⟨started, sameFiles, servesStarted, cases⟩ :=
    convertChosen_cases client chosen serves
  rw [← sameFiles]
  obtain ⟨fault, _, ended⟩ | ⟨workflow, fetches, isTruthy, ended⟩ |
    ⟨name, workflow, _, fetches, isTruthy, ended⟩ := cases
  · rw [ended]
    exact ⟨servesStarted, .refl _ _⟩
  · rw [ended]
    exact ⟨servesStarted, .refl _ _⟩
  · rw [ended]
    refine (adds_languages name workflow languages).mono ?_ started
      servesStarted
    rintro _ language ⟨rfl, isOne⟩
    exact ⟨isOne, isTruthy, chosen, by simp, fetches⟩

theorem adds_chosen
    (client : Client)
    (languages : List Language)
    (chosen : List Value) :
    Adds start order (IsPlanned client start languages chosen)
      (chosen.forM (convertChosen client languages)) := by
  refine .forM fun choice isOne =>
    (adds_convertChosen client languages choice).mono ?_
  rintro workflow language ⟨isLanguage, isTruthy, other, isOther, fetches⟩
  rw [List.mem_singleton.mp isOther] at fetches
  exact ⟨isLanguage, isTruthy, choice, isOne, fetches⟩

/-- A session that leads from some files to others with a certain outcome. -/
def Leads
    (start : Host)
    (order : SetOrder)
    (before : FileTree)
    (outcome : Except Fault α)
    (after : FileTree)
    (session : Session α) : Prop :=
  ∀ host : Host, Serves start order host → host.files = before →
    ∃ ended : Host, session.start host = (outcome, ended) ∧
      ended.files = after ∧ Serves start order ended

namespace Leads

variable {session : Session α} {before between after : FileTree}

theorem of_local
    {outcome : Except Fault α}
    (isLocal : Local session)
    (ended : session.among order before = (outcome, after)) :
    Leads start order before outcome after session := by
  rintro host serves rfl
  obtain ⟨outcomeIs, filesAre, sameServer, sameOrder⟩ :=
    isLocal.start_facts host
  rw [serves.sameOrder, ended] at outcomeIs filesAre
  exact ⟨_, Prod.ext outcomeIs rfl, filesAre, serves.of_eq sameServer sameOrder⟩

theorem bind
    {value : α}
    {next : α → Session β}
    {outcome : Except Fault β}
    (first : Leads start order before (.ok value) between session)
    (rest : Leads start order between outcome after (next value)) :
    Leads start order before outcome after (session >>= next) := by
  intro host serves filesAre
  obtain ⟨middle, isMiddle, middleFiles, servesMiddle⟩ :=
    first host serves filesAre
  rw [start_bind, isMiddle]
  exact rest middle servesMiddle middleFiles

theorem bind_error
    {fault : Fault}
    {next : α → Session β}
    (first : Leads start order before (.error fault) after session) :
    Leads start order before (.error fault) after (session >>= next) := by
  intro host serves filesAre
  obtain ⟨ended, isEnded, endedFiles, servesEnded⟩ := first host serves filesAre
  rw [start_bind, isEnded]
  exact ⟨ended, rfl, endedFiles, servesEnded⟩

theorem forM_nil
    {action : α → Session PUnit} :
    Leads start order before (.ok ()) before ([].forM action) :=
  fun host serves filesAre => ⟨host, rfl, filesAre, serves⟩

theorem forM_cons
    {item : α}
    {items : List α}
    {action : α → Session PUnit}
    {outcome : Except Fault PUnit}
    (first : Leads start order before (.ok ()) between (action item))
    (rest : Leads start order between outcome after (items.forM action)) :
    Leads start order before outcome after ((item :: items).forM action) :=
  first.bind rest

end Leads

variable {before after : FileTree}

theorem leads_convert
    {language : Language}
    {outcome : Except Fault (Option Bool)}
    (name : Value)
    (ended : (converted workflow language).among order before =
      (outcome, after)) :
    Leads start order before (outcome.map fun _ => ()) after
      (convert name workflow language) :=
  .of_local (local_convert name workflow language)
    (by rw [among_convert, ended])

/-- A chosen workflow leads where its conversions to the languages lead. -/
theorem leads_convertChosen
    {languages : List Language}
    {outcome : Except Fault PUnit}
    (fetches : Fetches client start chosen workflow)
    (isTruthy : workflow.isTruthy = true)
    (each : ∀ name, Leads start order before outcome after
      (languages.forM (convert name workflow))) :
    Leads start order before outcome after
      (convertChosen client languages chosen) := by
  intro host serves filesAre
  obtain ⟨started, sameFiles, servesStarted, cases⟩ :=
    convertChosen_cases client chosen serves
  obtain ⟨fault, notFetched, _⟩ | ⟨other, alsoFetches, isFalsy, _⟩ |
    ⟨name, other, _, alsoFetches, _, ended⟩ := cases
  · exact (notFetched workflow fetches).elim
  · rw [← fetches.unique alsoFetches, isTruthy] at isFalsy
    cases isFalsy
  · obtain rfl := fetches.unique alsoFetches
    rw [ended]
    exact each name started servesStarted (sameFiles.trans filesAre)

theorem leads_printBanner
    (lead text : String)
    (files : FileTree) :
    Leads start order files (.ok ()) files (printBanner lead text) := by
  intro host serves filesAre
  obtain ⟨printed, isPrinted, sameFiles, sameServer, sameOrder⟩ :=
    start_printBanner lead text host
  exact ⟨printed, isPrinted, sameFiles.trans filesAre,
    serves.of_eq sameServer sameOrder⟩

/-- A whole run that ends well leads where its chosen workflows lead. -/
theorem leads_convertAll
    {languages : List Language}
    {all : List Value}
    (each : Leads start order before (.ok ()) after
      (all.forM (convertChosen client languages))) :
    Leads start order before (.ok ()) after (convertAll client languages all) :=
  (leads_printBanner _ _ _).bind (each.bind (leads_printBanner _ _ _))

/-- The name under which a workflow is saved, if it has one. -/
def savedName (workflow : Value) : Option String :=
  (workflow.get "name" (.text "workflow") >>= Naming.fileName).toOption

theorem savedName_of_named
    {text : String}
    (named : workflow.get "name" (.text "workflow") = .ok (.text text)) :
    savedName workflow = some (String.ofList
      (Naming.safeName text.toList)) := by
  rw [savedName, named]
  rfl

/--
Code that belongs at the same place is of the same language and saved under
the same name.
-/
theorem savedName_eq_of_codePlace
    {other : Value}
    {language its : Language}
    {text otherText : String}
    (named : workflow.get "name" (.text "workflow") = .ok (.text text))
    (otherNamed : other.get "name" (.text "workflow") = .ok (.text otherText))
    (same : Output.codePlace language text = Output.codePlace its otherText) :
    language = its ∧ savedName workflow = savedName other ∧
    (savedName workflow).isSome = true := by
  obtain ⟨sameLanguage, sameName⟩ := Output.code_eq_of_codePlace same
  refine ⟨sameLanguage, ?_, by rw [savedName_of_named named]; rfl⟩
  rw [savedName_of_named named, savedName_of_named otherNamed]
  rw [Output.workflowName, Output.workflowName, ← String.toList_inj,
    String.toList_append,
    String.toList_append, List.append_left_inj, String.toList_inj] at sameName
  rw [sameName]

end Program

end Flowgen
