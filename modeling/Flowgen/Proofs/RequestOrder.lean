import Flowgen.Proofs.ConversionOrder
import Flowgen.Proofs.SentRequests

namespace Flowgen

/-!
# The order of the requests of a run

A run tests the connection, asks for the list of workflows, and then for each
workflow that the user chose from it, in the order of the choice.  It may stop
at any point, but it sends nothing out of this order and nothing else, and
sends all of it if no fault ends it.
-/

open Session

namespace Session

variable {host after : Host}

/-- What an answer settles, if it does. -/
def Verdict.result? : Verdict α → Option α
  | .again _ => none
  | .settled _ result => some result

theorem findSome?_of_askFrom
    {prompt : String}
    {judge : Answer → Verdict α}
    {answers : List Answer}
    {result : α}
    (ended : (askFrom prompt judge answers).start host = (.ok result, after)) :
    answers.findSome? (fun answer => (judge answer).result?) = some result := by
  induction answers generalizing host with
  | nil =>
      cases congrArg Prod.fst ended
  | cons answer answers inductionHypothesis =>
      obtain ⟨_, _, _, ended⟩ := bind_start_eq_ok.mp ended
      obtain ⟨_, _, _, ended⟩ := bind_start_eq_ok.mp ended
      rw [List.findSome?_cons]
      cases verdict : judge answer with
      | again text =>
          rw [verdict] at ended
          obtain ⟨_, _, _, ended⟩ := bind_start_eq_ok.mp ended
          exact inductionHypothesis ended
      | settled text settled =>
          rw [verdict] at ended
          obtain ⟨_, _, _, ended⟩ := bind_start_eq_ok.mp ended
          cases ended
          rfl

theorem start_print
    (text : String)
    (host : Host) :
    ∃ after : Host, (print text).start host = (.ok (), after) ∧
    after.exchanges = host.exchanges :=
  ⟨_, rfl, rfl⟩

theorem answers_of_print
    {text : String}
    {result : Unit}
    (printed : (print text).start host = (.ok result, after)) :
    after.answers = host.answers := by
  obtain ⟨between, isBetween, same⟩ := start_print text host
  rw [isBetween] at printed
  rw [← (Prod.mk.inj printed).2]
  exact congrArg Prod.fst same

theorem answers_of_ask
    {prompt text : String}
    (asked : (ask prompt).start host = (.ok text, after)) :
    host.answers = .typed text :: after.answers := by
  obtain ⟨files, environment, answers, server, requests, output, order⟩ := host
  cases answers with
  | nil =>
      cases congrArg Prod.fst asked
  | cons answer answers =>
      cases answer with
      | typed other =>
          cases asked
          rfl
      | interrupt other =>
          cases congrArg Prod.fst asked
      | endOfInput other =>
          cases congrArg Prod.fst asked

theorem start_ask_typed
    {prompt text : String}
    {host : Host}
    {left : List Answer}
    (answersAre : host.answers = .typed text :: left) :
    ∃ after : Host, (ask prompt).start host = (.ok text, after) ∧
    after.answers = left := by
  obtain ⟨files, environment, answers, server, requests, output, order⟩ := host
  obtain rfl : answers = .typed text :: left := answersAre
  exact ⟨_, rfl, rfl⟩

end Session

namespace Selection

variable {workflows : Value} {items : List Value} {host after : Host}

/--
The workflows that answers choose; only objects can be shown to choose from.
-/
def selected (workflows : Value) (answers : List Answer) : List Value :=
  match workflows with
  | .list items =>
      if items.all (fun item => item.kind == .object) then
        (answers.findSome? fun answer =>
          (judgeWorkflows items answer).result?).getD []
      else
        []
  | _ => []

theorem all_object_of_showNumbered
    {number : Nat}
    (ended : (showNumbered number items).start host = (.ok (), after)) :
    items.all (fun item => item.kind == .object) = true := by
  induction items generalizing number host with
  | nil =>
      rfl
  | cons item items inductionHypothesis =>
      obtain ⟨name, named, ended⟩ := lift_bind_start_eq_ok.mp ended
      obtain ⟨_, _, ended⟩ := lift_bind_start_eq_ok.mp ended
      obtain ⟨_, _, _, ended⟩ := bind_start_eq_ok.mp ended
      rw [List.all_cons, inductionHypothesis ended,
        (Value.get_eq_ok.mp named).1]
      rfl

theorem eq_list_of_elements
    (isTruthy : workflows.isTruthy = true)
    (areItems : workflows.elements = .ok items)
    (areObjects : items.all (fun item => item.kind == .object) = true) :
    workflows = .list items := by
  cases workflows with
  | list others =>
      cases areItems
      rfl
  | text content =>
      cases areItems
      have isEmpty : content.toList = [] := by
        cases characters : content.toList with
        | nil =>
            rfl
        | cons character rest =>
            rw [characters] at areObjects
            cases areObjects
      rw [String.toList_eq_nil_iff.mp isEmpty] at isTruthy
      cases isTruthy
  | object fields =>
      cases areItems
      cases fields with
      | nil =>
          cases isTruthy
      | cons field fields =>
          cases areObjects
  | _ =>
      cases areItems

theorem local_showNumbered
    (number : Nat)
    (items : List Value) :
    Local (showNumbered number items) := by
  induction items generalizing number with
  | nil =>
      exact .pure _
  | cons item items inductionHypothesis =>
      exact .bind (.lift _) fun _ => .bind (.lift _) fun _ =>
        .bind (.print _) fun _ =>
        inductionHypothesis (number + 1)

theorem local_showWorkflows
    (workflows : Value) :
    Local (showWorkflows workflows) := by
  unfold showWorkflows
  split
  · exact .bind (.print _) fun _ => .bind (.print _) fun _ =>
      .bind (.print _) fun _ =>
      .bind (.lift _) fun items => .bind (local_showNumbered 1 items) fun _ =>
        .print _
  · exact .print _

/-- The user chooses what the answers choose. -/
theorem eq_selected_of_chooseWorkflows
    {chosen : List Value}
    (isTruthy : workflows.isTruthy = true)
    (ended : (chooseWorkflows workflows).start host = (.ok chosen, after)) :
    chosen = selected workflows host.answers := by
  rw [chooseWorkflows, if_pos isTruthy] at ended
  obtain ⟨_, between, shown, ended⟩ := bind_start_eq_ok.mp ended
  obtain ⟨items, areItems, ended⟩ := lift_bind_start_eq_ok.mp ended
  have settled := findSome?_of_askFrom ended
  have sameAnswers : between.answers = host.answers := by
    have kept := Keeps.exchanges_of_local (local_showWorkflows workflows) host
    rw [shown] at kept
    exact congrArg Prod.fst kept
  have areObjects : items.all (fun item => item.kind == .object) = true := by
    rw [showWorkflows, if_pos isTruthy] at shown
    obtain ⟨_, _, _, shown⟩ := bind_start_eq_ok.mp shown
    obtain ⟨_, _, _, shown⟩ := bind_start_eq_ok.mp shown
    obtain ⟨_, _, _, shown⟩ := bind_start_eq_ok.mp shown
    obtain ⟨others, areOthers, shown⟩ := lift_bind_start_eq_ok.mp shown
    obtain ⟨_, _, shown, _⟩ := bind_start_eq_ok.mp shown
    obtain rfl := Except.ok.inj (areItems.symm.trans areOthers)
    exact all_object_of_showNumbered shown
  obtain rfl := eq_list_of_elements isTruthy areItems areObjects
  rw [selected, if_pos areObjects, ← sameAnswers, settled]
  rfl

/--
Among no workflows every number is invalid, so that no answer chooses one.
-/
theorem eq_nil_of_judgeWorkflows
    {answer : Answer}
    {chosen : List Value}
    (settled : (judgeWorkflows [] answer).result? = some chosen) :
    chosen = [] := by
  have none : ∀ numbers : List Int, numbers.filterMap (numbered? []) = [] := by
    simp [numbered?]
  cases answer with
  | typed text =>
      unfold judgeWorkflows at settled
      dsimp only at settled
      split at settled
      · cases settled
      · split at settled
        · rw [judgeNumbers, none] at settled
          split at settled
          · cases settled
            rfl
          · cases settled
        · cases settled
  | interrupt text =>
      cases settled
      rfl
  | endOfInput text =>
      cases settled

theorem selected_eq_nil
    (isFalsy : workflows.isTruthy = false)
    (answers : List Answer) :
    selected workflows answers = [] := by
  cases workflows with
  | list items =>
      cases items with
      | cons item items =>
          cases isFalsy
      | nil =>
          rw [selected, if_pos List.all_nil]
          cases found : answers.findSome? fun answer =>
            (judgeWorkflows [] answer).result? with
          | none =>
              rfl
          | some chosen =>
              obtain ⟨answer, _, settled⟩ :=
                List.exists_of_findSome?_eq_some found
              exact eq_nil_of_judgeWorkflows settled
  | _ =>
      rfl

theorem keeps_chooseWorkflows
    (workflows : Value) :
    Keeps Host.traffic (chooseWorkflows workflows) := by
  unfold chooseWorkflows
  split
  · exact .bind (.traffic_of_local (local_showWorkflows workflows)) fun _ =>
      .bind (.lift _) fun items => .askUntil _ _
  · exact .pure _

theorem keeps_chooseLanguages
    (default : Value) :
    Keeps Host.traffic (chooseLanguages default) := by
  have shown : Keeps Host.traffic showLanguages :=
    .bind (.print _) fun _ => .bind (.print _) fun _ =>
      .bind (.print _) fun _ =>
      .bind (.forM fun _ => .print _) fun _ => .print _
  unfold chooseLanguages
  refine .bind shown fun _ => ?_
  split
  · exact .bind (.print _) fun _ => .bind (.print _) fun _ => .askUntil _ _
  · exact .askUntil _ _

end Selection

namespace Settings

theorem local_writeDefaults
    (home : String) :
    Local (writeDefaults home) :=
  .bind (.makeDirectory _) fun _ => .writeFile _ _

theorem keeps_load :
    Keeps Host.exchanges load := by
  have printed : ∀ text, Keeps Host.exchanges (Session.print text) :=
    fun text => .exchanges_of_local (.print text)
  have readIn : ∀ home, Keeps Host.exchanges (read home) := by
    intro home
    refine .bind ?_ fun text => .bind (.lift _) fun settings =>
      .bind .get fun host => .lift _
    exact .bind (.exchanges_of_local (.reports (.readFile _))) fun content =>
      .bind (.lift _) fun text => .pure _
  unfold load
  refine .bind .get fun host =>
    .bind (.exchanges_of_local (.reports (.pathExists _))) fun isThere => ?_
  split
  · exact .guarded (readIn _) fun fault => .bind (printed _) fun _ => .pure _
  · exact .bind (printed _) fun _ => .bind (printed _) fun _ =>
      .bind (.exchanges_of_local (local_writeDefaults _)) fun _ => .lift _

/-- Where there are no settings, the ones that are written are the settings. -/
theorem load_eq_defaults
    {host : Host}
    (missing : host.files.has (file host.files.home) = .ok false)
    (written : ((writeDefaults host.files.home).among host.setOrder
      host.files).1 = .ok ()) :
    (load.start host).1 = resolve host.environment defaults := by
  have ends : ∀ printed : Host, printed.files = host.files →
      printed.setOrder = host.setOrder →
      ((writeDefaults host.files.home >>= fun _ =>
        (liftM (resolve host.environment defaults) : Session Value)).start
          printed).1 = resolve host.environment defaults := by
    intro printed sameFiles sameOrder
    obtain ⟨outcome, _⟩ :=
      (local_writeDefaults host.files.home).start_facts printed
    rw [sameFiles, sameOrder, written] at outcome
    have ended : (writeDefaults host.files.home).start printed = (.ok (), _) :=
      Prod.ext outcome rfl
    rw [start_bind, ended]
    rfl
  unfold load
  rw [start_get_bind]
  dsimp only
  rw [start_bind, Template.start_pathExists, missing]
  dsimp only
  rw [if_neg (by simp)]
  exact ends _ rfl rfl

end Settings

namespace Program

variable {address key : Value}

variable {host : Host} {client : Client} {left : List Answer}

theorem local_printBanner
    (lead text : String) :
    Local (printBanner lead text) :=
  .bind (.print _) fun _ => .bind (.print _) fun _ => .print _

theorem keeps_configuration :
    Keeps Host.exchanges configuration :=
  .bind (.exchanges_of_local (local_printBanner _ _)) fun _ =>
    .bind Settings.keeps_load fun _ =>
      .bind (.lift _) fun _ => .bind (.lift _) fun _ => .bind (.lift _) fun _ =>
        .bind (.lift _) fun _ => .bind (.lift _) fun _ => .pure _

/-- A key that is configured, or else is the first thing that the user types. -/
inductive KeyGiven (configured : Value) :
  List Answer → Value → List Answer → Prop where
  | configured
      {answers : List Answer}
      (isSet : configured.isTruthy = true) :
      KeyGiven configured answers configured answers
  | typed
      {text : String}
      {left : List Answer}
      (isUnset : configured.isTruthy = false)
      (notBlank : Text.trim text ≠ "") :
      KeyGiven configured (.typed text :: left) (.text (Text.trim text)) left

/--
A run that gets a key and an address for its client, and has answers left.
-/
def Connects (host : Host) (client : Client) (left : List Answer) : Prop :=
  ∃ found key, (configuration.start host).1 = .ok found ∧
    KeyGiven found.key host.answers key left ∧
    Client.make found.address key = .ok client

/-- Without a configured key, a run does not get one from a blank answer. -/
theorem not_connects_of_blank
    {found : Configuration}
    {text : String}
    {rest : List Answer}
    (isFound : (configuration.start host).1 = .ok found)
    (isUnset : found.key.isTruthy = false)
    (answersAre : host.answers = .typed text :: rest)
    (isBlank : Text.trim text = "") :
    ¬ Connects host client left := by
  rintro ⟨other, key, isOther, given, _⟩
  obtain rfl := Except.ok.inj (isFound.symm.trans isOther)
  rw [answersAre] at given
  cases given with
  | configured isSet =>
      rw [isUnset] at isSet
      cases isSet
  | typed _ notBlank =>
      exact notBlank isBlank

theorem keeps_askForKey
    (configured : Value) :
    Keeps Host.traffic (askForKey configured) := by
  unfold askForKey
  split
  · exact .pure _
  · refine .bind (.print _) fun _ => .bind (.print _) fun _ =>
      .bind (.ask _) fun typed => ?_
    dsimp only
    split
    · exact .bind (.print _) fun _ => .pure _
    · exact .pure _

/-- The run gets a key exactly if one is given. -/
theorem askForKey_eq_some_iff
    {configured key : Value} :
    (∃ after : Host, (askForKey configured).start host =
        (.ok (some key), after) ∧ after.answers = left) ↔
      KeyGiven configured host.answers key left := by
  constructor
  · rintro ⟨after, ended, rfl⟩
    cases isSet : configured.isTruthy with
    | true =>
        rw [askForKey, if_pos isSet] at ended
        cases ended
        exact .configured isSet
    | false =>
        rw [askForKey, if_neg (by simp [isSet])] at ended
        obtain ⟨_, _, warned, ended⟩ := bind_start_eq_ok.mp ended
        obtain ⟨_, _, advised, ended⟩ := bind_start_eq_ok.mp ended
        obtain ⟨text, between, asked, ended⟩ := bind_start_eq_ok.mp ended
        have answersAre := answers_of_ask asked
        rw [answers_of_print advised, answers_of_print warned] at answersAre
        dsimp only at ended
        by_cases isBlank : Text.trim text = ""
        · rw [if_pos isBlank] at ended
          cases congrArg Prod.fst ended
        · rw [if_neg isBlank] at ended
          cases ended
          rw [answersAre]
          exact .typed isSet isBlank
  · intro given
    generalize answersAre : host.answers = answers at given
    cases given with
    | configured isSet =>
        exact ⟨host, by rw [askForKey, if_pos isSet]; rfl, answersAre⟩
    | @typed text left isUnset notBlank =>
        rw [askForKey, if_neg (by simp [isUnset])]
        obtain ⟨warned, isWarned, _⟩ :=
          start_print "\n⚠ Aviso: API Key do n8n não configurada." host
        obtain ⟨advised, isAdvised, _⟩ :=
          start_print "Por favor, configure a API Key em config/settings.json"
            warned
        obtain ⟨after, isAsked, leftAre⟩ := @start_ask_typed
          "Ou digite a API Key agora (Enter para pular): " text advised left
          (by rw [answers_of_print isAdvised, answers_of_print isWarned,
            answersAre])
        refine ⟨after, ?_, leftAre⟩
        rw [start_bind, isWarned]
        dsimp only
        rw [start_bind, isAdvised]
        dsimp only
        rw [start_bind, isAsked]
        dsimp only
        rw [if_neg notBlank]
        rfl

/-- The requests of a run that gets to convert what was chosen. -/
def agenda (client : Client) (chosen : List Value) : List Request :=
  client.testRequest :: client.listRequest :: chosen.map client.choiceRequest

/-- The workflows that answers choose from those that the server offers. -/
def selection
    (client : Client)
    (server : Server)
    (answers : List Answer) :
    List Value :=
  match client.offered server with
  | .ok workflows => Selection.selected workflows answers
  | .error _ => []

theorem selection_eq_nil
    {server : Server}
    (nothing : ∀ workflows, client.offered server = .ok workflows →
      workflows.isTruthy = false)
    (answers : List Answer) :
    selection client server answers = [] := by
  rw [selection]
  cases offered : client.offered server with
  | error fault =>
      rfl
  | ok workflows =>
      exact Selection.selected_eq_nil (nothing workflows offered) answers

/--
Each chosen workflow is asked for once, in however many languages it is
wanted.
-/
theorem sends_convertChosen
    (client : Client)
    (languages : List Language)
    (choice : Value)
    (host : Host) :
    Sends [client.choiceRequest choice] (convertChosen client languages choice)
      host := by
  unfold convertChosen
  refine .keeps_bind (.lift _) fun name _ _ =>
    .keeps_bind (.lift _) fun id _ isId => ?_
  have idIs : (choice.field? "id").getD .null = id := by
    rw [start_lift, Prod.mk.injEq] at isId
    exact (Value.get_eq_ok.mp isId.1).2
  rw [Client.choiceRequest, idIs]
  refine .keeps_bind (.traffic_of_local (local_printBanner _ _))
    fun _ between _ =>
      .bind_keeps (client.sends_workflow id between) fun workflow => ?_
  split
  · exact .forM fun language =>
      .traffic_of_local (local_convert name workflow language)
  · exact .print _

/-- The chosen workflows are asked for in the order of the choice. -/
theorem sends_convertAll
    (client : Client)
    (languages : List Language)
    (chosen : List Value)
    (host : Host) :
    Sends (chosen.map client.choiceRequest) (convertAll client languages chosen)
      host :=
  .keeps_bind (.traffic_of_local (local_printBanner _ _)) fun _ _ _ =>
    .bind_keeps (.forM (sends_convertChosen client languages)) fun _ =>
      .traffic_of_local (local_printBanner _ _)

theorem sends_chooseAndConvert
    {workflows : Value}
    (isTruthy : workflows.isTruthy = true)
    (defaultLanguage : Value) :
    Sends ((Selection.selected workflows host.answers).map client.choiceRequest)
      (chooseAndConvert client workflows defaultLanguage) host := by
  unfold chooseAndConvert
  refine .keeps_bind (Selection.keeps_chooseWorkflows workflows)
    fun chosen _ ended => ?_
  rw [← Selection.eq_selected_of_chooseWorkflows isTruthy ended]
  split
  · rename_i isEmpty
    rw [List.isEmpty_iff.mp isEmpty]
    exact .of_keeps (.print _)
  · exact .keeps_bind (Selection.keeps_chooseLanguages defaultLanguage)
      fun languages _ _ => sends_convertAll client languages chosen _

/-- What is listed is shown to the user, and what they choose is asked for. -/
theorem sends_convertOffered
    (workflows defaultLanguage : Value) :
    Sends ((Selection.selected workflows host.answers).map client.choiceRequest)
      (convertOffered client defaultLanguage workflows) host := by
  unfold convertOffered
  split
  · rename_i isTruthy
    refine .keeps_bind (.lift _) fun count between counted =>
      .keeps_bind (.print _) fun _ printed isPrinted => ?_
    rw [start_lift, Prod.mk.injEq] at counted
    rw [counted.2, ← answers_of_print isPrinted]
    exact sends_chooseAndConvert isTruthy defaultLanguage
  · rename_i isFalsy
    rw [Selection.selected_eq_nil (by simpa using isFalsy)]
    exact .of_keeps (.print _)

theorem start_serve
    (isMade : Client.make address key = .ok client)
    (defaultLanguage : Value)
    (host : Host) :
    ∃ (isAccepted : Bool) (tested : Host),
      (serve address key defaultLanguage).start host =
        (afterTest client defaultLanguage isAccepted).start tested ∧
      (isAccepted = true ↔ client.Accepted host.server) ∧
      tested.answers = host.answers ∧
      tested.server = host.server.asked client.listAddress ∧
      tested.requests = host.requests ++ [client.testRequest] := by
  obtain ⟨printed, isPrinted, same⟩ :=
    start_print ("\nConectando ao n8n em: " ++ address.display) host
  obtain ⟨isAccepted, isTested, accepted⟩ := client.start_isReachable printed
  obtain ⟨sameAnswers, sameServer, sameRequests⟩ :=
    Host.exchanges_eq_iff.mp same
  rw [sameServer, sameRequests] at isTested
  rw [sameServer] at accepted
  rw [serve, start_bind, isPrinted]
  dsimp only
  rw [isMade, start_bind, start_lift]
  dsimp only
  rw [start_bind, isTested]
  exact ⟨isAccepted, _, rfl, accepted, sameAnswers, rfl, rfl⟩

/-- If the test of the connection fails, no other request follows. -/
theorem requests_serve_of_refused
    (isMade : Client.make address key = .ok client)
    (isRefused : ¬ client.Accepted host.server)
    (defaultLanguage : Value) :
    ((serve address key defaultLanguage).start host).2.requests =
      host.requests ++ [client.testRequest] := by
  obtain ⟨isAccepted, tested, started, accepted, _, _, requestsAre⟩ :=
    start_serve isMade defaultLanguage host
  have silent :
      Keeps Host.traffic (afterTest client defaultLanguage isAccepted) := by
    rw [afterTest, if_neg (accepted.not.mpr isRefused)]
    exact .bind (.print _) fun _ => .print _
  rw [started, silent.requests_eq, requestsAre]

/--
If the test of the connection is accepted, the run goes on with what the
server lists.
-/
theorem start_serve_of_accepted
    (isMade : Client.make address key = .ok client)
    (isAccepted : client.Accepted host.server)
    (defaultLanguage : Value) :
    ∃ listed : Host, listed.answers = host.answers ∧
      listed.requests = host.requests ++
      [client.testRequest, client.listRequest] ∧
      (∀ fault, client.offered host.server = .error fault →
        (serve address key defaultLanguage).start host =
          (.error fault, listed)) ∧
      ∀ workflows, client.offered host.server = .ok workflows →
        (serve address key defaultLanguage).start host =
          (convertOffered client defaultLanguage workflows).start listed := by
  obtain ⟨_, tested, started, accepted, sameAnswers, isAsked, requestsAre⟩ :=
    start_serve isMade defaultLanguage host
  obtain ⟨greeted, isGreeted, sameGreeted⟩ :=
    start_print "✓ Conexão estabelecida com sucesso!" tested
  obtain ⟨announced, isAnnounced, sameAnnounced⟩ :=
    start_print "\nBuscando workflows..." greeted
  obtain ⟨answersKept, serverKept, requestsKept⟩ :=
    Host.exchanges_eq_iff.mp (sameAnnounced.trans sameGreeted)
  obtain ⟨listed, isListed, answersAre, listedAre⟩ :=
    Client.start_workflows (serverKept.trans isAsked)
  rw [answersKept, sameAnswers] at answersAre
  rw [requestsKept, requestsAre] at listedAre
  rw [started, afterTest, if_pos (accepted.mpr isAccepted), start_bind,
    isGreeted]
  dsimp only
  rw [start_bind, isAnnounced]
  dsimp only
  rw [start_bind, isListed]
  refine ⟨listed, answersAre, by simp [listedAre], fun fault failed => ?_,
    fun workflows offered => ?_⟩
  · rw [failed]
  · rw [offered]

/--
If the test of the connection is accepted, the list is asked for and then what
is chosen.
-/
theorem requests_serve_of_accepted
    (isMade : Client.make address key = .ok client)
    (isAccepted : client.Accepted host.server)
    (defaultLanguage : Value) :
    ∃ later, ((serve address key defaultLanguage).start host).2.requests =
        host.requests ++ client.testRequest :: client.listRequest :: later ∧
      later <+: (selection client host.server host.answers).map
        client.choiceRequest ∧
      (((serve address key defaultLanguage).start host).1 = .ok () →
        later = (selection client host.server host.answers).map
          client.choiceRequest) := by
  obtain ⟨listed, answersAre, listedAre, failed, started⟩ :=
    start_serve_of_accepted isMade isAccepted defaultLanguage
  rw [selection, ← answersAre]
  cases offered : client.offered host.server with
  | error fault =>
      rw [failed fault offered]
      refine ⟨[], listedAre, List.nil_prefix, ?_⟩
      rintro ⟨⟩
  | ok workflows =>
      rw [started workflows offered]
      obtain ⟨later, laterAre, isStart, whole⟩ :=
        @sends_convertOffered listed client workflows defaultLanguage
      exact ⟨later, by rw [laterAre, listedAre]; simp, isStart, whole ()⟩

/-- A run without a client sends nothing. -/
theorem requests_body_of_not_connects
    (connectsNot : ∀ client left, ¬ Connects host client left) :
    (body.start host).2.requests = host.requests := by
  have same := keeps_configuration host
  rw [body, start_bind]
  rcases ended : configuration.start host with ⟨fault | found, configured⟩
  · rw [ended] at same
    exact congrArg (fun seen => seen.2.2) same
  · rw [ended] at same
    obtain ⟨sameAnswers, _, sameRequests⟩ := Host.exchanges_eq_iff.mp same
    have kept := (keeps_askForKey found.key).requests_eq configured
    dsimp only
    rw [connect, start_bind, ← sameRequests]
    rcases asked :
      (askForKey found.key).start configured with ⟨fault | key, keyed⟩
    · rw [asked] at kept
      exact kept
    · rw [asked] at kept
      cases key with
      | none =>
          exact kept
      | some key =>
          have given := askForKey_eq_some_iff.mp ⟨keyed, asked, rfl⟩
          rw [sameAnswers] at given
          cases made : Client.make found.address key with
          | ok client =>
              have isFound : (configuration.start host).1 = .ok found := by
                rw [ended]
              exact (connectsNot client _
                ⟨found, key, isFound, given, made⟩).elim
          | error fault =>
              have silent :
                  Sends [] (serve found.address key found.language) keyed := by
                rw [serve, made]
                refine .keeps_bind (.print _) fun _ _ _ =>
                  .keeps_bind (.lift _) ?_
                intro client between isClient
                rw [start_lift] at isClient
                cases congrArg Prod.fst isClient
              obtain ⟨sent, requestsAre, isStart, _⟩ := silent
              rw [List.prefix_nil.mp isStart, List.append_nil] at requestsAre
              exact requestsAre.trans kept

theorem start_body_of_connects
    (connects : Connects host client left) :
    ∃ (address key language : Value) (keyed : Host),
      Client.make address key = .ok client ∧
      body.start host = (serve address key language).start keyed ∧
      keyed.answers = left ∧ keyed.server = host.server ∧
      keyed.requests = host.requests := by
  obtain ⟨found, key, isFound, given, isMade⟩ := connects
  have same := keeps_configuration host
  rcases ended : configuration.start host with ⟨outcome, configured⟩
  rw [ended] at isFound same
  obtain rfl : outcome = .ok found := isFound
  obtain ⟨sameAnswers, sameServer, sameRequests⟩ :=
    Host.exchanges_eq_iff.mp same
  rw [← sameAnswers] at given
  obtain ⟨keyed, asked, leftAre⟩ := askForKey_eq_some_iff.mpr given
  have kept := keeps_askForKey found.key configured
  rw [asked] at kept
  simp only [Host.traffic, Prod.mk.injEq] at kept
  refine ⟨found.address, key, found.language, keyed, isMade, ?_, leftAre,
    kept.1.trans sameServer, kept.2.trans sameRequests⟩
  rw [body, start_bind, ended]
  dsimp only
  rw [connect, start_bind, asked]

theorem requests_run
    (host : Host) :
    (run.start host).2.requests = (body.start host).2.requests := by
  have reported : ∀ fault, Keeps Host.traffic (reportFault fault) := by
    intro fault
    unfold reportFault
    split
    · exact .print _
    · exact .throw _
    · exact .print _
  rw [run, start_tryCatch]
  rcases body.start host with ⟨fault | value, between⟩
  · exact (reported fault).requests_eq between
  · rfl

/-- How far a run with a client comes in its requests. -/
structure Follows (host : Host) (client : Client) (left : List Answer)
  (sent : List Request) :
    Prop where
  isStart : sent <+: agenda client (selection client host.server left)
  refused : ¬ client.Accepted host.server → sent = [client.testRequest]
  listed : client.Accepted host.server →
  [client.testRequest, client.listRequest] <+: sent
  whole : client.Accepted host.server → (body.start host).1 = .ok () →
    sent = agenda client (selection client host.server left)

theorem exists_follows
    (connects : Connects host client left) :
    ∃ sent, (run.start host).2.requests = host.requests ++ sent ∧
      Follows host client left sent := by
  obtain ⟨address, key, language, keyed, isMade, started, rfl, sameServer,
    sameRequests⟩ :=
    start_body_of_connects connects
  rw [requests_run, started, ← sameRequests]
  by_cases isAccepted : client.Accepted host.server
  · obtain ⟨later, requestsAre, isStart, whole⟩ :=
      requests_serve_of_accepted isMade (sameServer.symm ▸ isAccepted) language
    rw [sameServer] at isStart whole
    refine ⟨_, requestsAre, ?_, fun isRefused => (isRefused isAccepted).elim,
      ?_, ?_⟩
    · exact List.cons_prefix_cons.mpr
        ⟨rfl, List.cons_prefix_cons.mpr ⟨rfl, isStart⟩⟩
    · exact fun _ => ⟨later, rfl⟩
    · intro _ isOk
      rw [started] at isOk
      rw [agenda, whole isOk]
  · refine ⟨_, requests_serve_of_refused isMade (sameServer.symm ▸ isAccepted)
      language, ?_,
      fun _ => rfl, fun isOnly => (isAccepted isOnly).elim,
      fun isOnly => (isAccepted isOnly).elim⟩
    exact ⟨_, rfl⟩

theorem Follows.eq_of_selection_eq_nil
    {sent : List Request}
    (follows : Follows host client left sent)
    (isAccepted : client.Accepted host.server)
    (nothing : selection client host.server left = []) :
    sent = [client.testRequest, client.listRequest] := by
  have isStart := follows.isStart
  rw [nothing] at isStart
  exact isStart.eq_of_length_le (follows.listed isAccepted).length_le

/-- Every request of a run shows the same key. -/
theorem Follows.key_eq
    {sent : List Request}
    (follows : Follows host client left sent) :
    ∀ request ∈ sent, request.key = client.key := by
  intro request member
  have planned := follows.isStart.subset member
  simp only [agenda, List.mem_cons, List.mem_map] at planned
  obtain rfl | rfl | ⟨choice, _, rfl⟩ := planned
  all_goals rfl

/--
Runs that choose the same workflows come equally far unless a fault ends one
of them.
-/
theorem Follows.comparable
    {other : Host}
    {otherLeft : List Answer}
    {sent otherSent : List Request}
    (follows : Follows host client left sent)
    (otherFollows : Follows other client otherLeft otherSent)
    (sameServer : other.server = host.server)
    (sameSelection : selection client host.server otherLeft =
      selection client host.server left) :
    (sent <+: otherSent ∨ otherSent <+: sent) ∧
      ((body.start host).1 = .ok () → (body.start other).1 = .ok () →
        otherSent = sent) := by
  have otherStart := otherFollows.isStart
  rw [sameServer, sameSelection] at otherStart
  refine ⟨List.prefix_or_prefix_of_prefix follows.isStart otherStart,
    fun isOk isOtherOk => ?_⟩
  by_cases isAccepted : client.Accepted host.server
  · rw [follows.whole isAccepted isOk,
      otherFollows.whole (sameServer ▸ isAccepted) isOtherOk, sameServer,
      sameSelection]
  · rw [follows.refused isAccepted,
      otherFollows.refused (sameServer ▸ isAccepted)]

/--
The requests of a run are the first ones of its agenda, all with the same key.
None is sent without a client, as when no key is configured and a blank one is
typed; one if the test of the connection fails; two if no workflow is listed
or chosen; and all of them if no fault ends the run.  Runs that differ in
their answers and choose the same workflows send the same, whatever the
languages, unless a fault ends one of them: then the one sends the first of
what the other sends.
-/
theorem run_sends_agenda
    (host : Host) :
    ∃ sent : List Request, (run.start host).2.requests = host.requests ++ sent ∧
      ((∀ client left, ¬ Connects host client left) → sent = []) ∧
      (∀ found text left, (configuration.start host).1 = .ok found →
        found.key.isTruthy = false → host.answers = .typed text :: left →
          Text.trim text = "" → sent = []) ∧
      ∀ client left, Connects host client left →
        sent <+: agenda client (selection client host.server left) ∧
        (∀ request ∈ sent, request.key = client.key) ∧
        (¬ client.Accepted host.server → sent = [client.testRequest]) ∧
        (client.Accepted host.server →
          [client.testRequest, client.listRequest] <+: sent ∧
          ((∀ workflows, client.offered host.server = .ok workflows →
            workflows.isTruthy = false) ∨
              selection client host.server left = [] →
            sent = [client.testRequest, client.listRequest]) ∧
          ((body.start host).1 = .ok () →
            sent = agenda client (selection client host.server left))) ∧
        ∀ answers otherLeft otherSent,
        Connects { host with answers := answers } client otherLeft →
          selection client host.server otherLeft =
            selection client host.server left →
          (run.start { host with answers := answers }).2.requests =
            host.requests ++ otherSent →
            (sent <+: otherSent ∨ otherSent <+: sent) ∧
            ((body.start host).1 = .ok () →
              (body.start { host with answers := answers }).1 = .ok () →
              otherSent = sent) := by
  by_cases connected : ∃ client left, Connects host client left
  · obtain ⟨client, left, connects⟩ := connected
    obtain ⟨sent, requestsAre, _⟩ := exists_follows connects
    refine ⟨sent, requestsAre, fun none => (none client left connects).elim, ?_,
      ?_⟩
    · intro found text left isFound isUnset answersAre isBlank
      exact (not_connects_of_blank isFound isUnset answersAre isBlank
        connects).elim
    intro client left connects
    obtain ⟨_, alsoAre, follows⟩ := exists_follows connects
    obtain rfl := List.append_cancel_left (alsoAre.symm.trans requestsAre)
    refine ⟨follows.isStart, follows.key_eq, follows.refused, fun isAccepted =>
      ⟨follows.listed isAccepted, ?_, follows.whole isAccepted⟩, ?_⟩
    · rintro (nothing | nothing)
      · exact follows.eq_of_selection_eq_nil isAccepted
          (selection_eq_nil nothing left)
      · exact follows.eq_of_selection_eq_nil isAccepted nothing
    · intro answers otherLeft otherSent otherConnects sameSelection otherAre
      obtain ⟨_, alsoOther, otherFollows⟩ := exists_follows otherConnects
      obtain rfl := List.append_cancel_left (alsoOther.symm.trans otherAre)
      exact follows.comparable otherFollows rfl sameSelection
  · simp only [not_exists] at connected
    refine ⟨[], ?_, fun _ => rfl, fun _ _ _ _ _ _ _ => rfl,
      fun client left connects => (connected client left connects).elim⟩
    rw [requests_run, requests_body_of_not_connects connected, List.append_nil]

/--
Surroundings with two workflows on the server, one of which is a mere text.
-/
def listHost (answers : List Answer) : Host :=
  { fewHost .asAdded [("a", oneNode "x"), ("b", .text "w")] with
    environment := [("N8N_URL", "n8n"), ("N8N_API_KEY", "key")]
    answers := answers
    server := ⟨("n8n/api/v1/workflows", [.answer 200 "OK" (.value (.object
        [("data", .list [choiceOf "a", choiceOf "b"])]))]) ::
      (fewHost .asAdded
        [("a", oneNode "x"), ("b", .text "w")]).server.replies⟩ }

theorem connects_listHost
    (answers : List Answer) :
    Connects (listHost answers) fewClient answers := by
  have missing : (fewTemplates []).has (Settings.file "/home") = .ok false :=
    eq_ok_of_toOption (by decide +kernel)
  have written : ((Settings.writeDefaults "/home").among .asAdded
      (fewTemplates [])).1 = .ok () :=
    eq_ok_of_toOption (by decide +kernel)
  obtain ⟨printed, isPrinted, filesAre, orderIs, environmentIs⟩ :
    ∃ printed : Host,
      (printBanner ""
        "n8ncoding - Conversor de Workflows n8n para Código").start
          (listHost answers) = (.ok (), printed) ∧
        printed.files = fewTemplates [] ∧ printed.setOrder = .asAdded ∧
        printed.environment = [("N8N_URL", "n8n"), ("N8N_API_KEY", "key")] :=
    ⟨_, rfl, rfl, rfl, rfl⟩
  have loaded : (Settings.load.start printed).1 =
      Settings.resolve printed.environment Settings.defaults := by
    apply Settings.load_eq_defaults
    · rw [filesAre]
      exact missing
    · rw [filesAre, orderIs]
      exact written
  have ended : Settings.load.start printed =
      (Settings.resolve printed.environment Settings.defaults, _) :=
    Prod.ext loaded rfl
  refine ⟨⟨.text "n8n", .text "key", .text "php"⟩, .text "key", ?_,
    .configured rfl, rfl⟩
  rw [configuration, start_bind, isPrinted]
  dsimp only
  rw [start_bind, ended, environmentIs]
  rfl

/-- A run that finishes asks for both workflows, in the order of the choice. -/
theorem run_sends_agenda_listHost :
    Connects (listHost [.typed "2,1", .typed "3"]) fewClient
      [.typed "2,1", .typed "3"] ∧
      fewClient.Accepted (listHost [.typed "2,1", .typed "3"]).server ∧
      (body.start (listHost [.typed "2,1", .typed "3"])).1 = .ok () ∧
      (run.start (listHost [.typed "2,1", .typed "3"])).2.requests =
        agenda fewClient [choiceOf "b", choiceOf "a"] := by
  have isAccepted : fewClient.Accepted
      (listHost [.typed "2,1", .typed "3"]).server := ⟨_, _, rfl⟩
  have isOk : (body.start (listHost [.typed "2,1", .typed "3"])).1.isOk =
      true := by decide +kernel
  obtain ⟨_, ended⟩ := exists_eq_ok_of_isOk isOk
  have connects := connects_listHost [.typed "2,1", .typed "3"]
  obtain ⟨sent, requestsAre, _, _, follows⟩ :=
    run_sends_agenda (listHost [.typed "2,1", .typed "3"])
  obtain ⟨_, _, _, accepted, _⟩ := follows fewClient _ connects
  refine ⟨connects, isAccepted, ended, requestsAre.trans ?_⟩
  exact (accepted isAccepted).2.2 ended

/--
One language more can make a run send less: there is no template for a class
in JavaScript, so that the text is only reported, but in PHP it ends the run
before the other workflow.
-/
theorem run_requests_ne_of_languages :
    (run.start (listHost [.typed "2,1", .typed "3"])).2.requests.map
      Request.address =
        ["n8n/api/v1/workflows", "n8n/api/v1/workflows",
          "n8n/api/v1/workflows/b", "n8n/api/v1/workflows/a"] ∧
      (run.start (listHost [.typed "2,1", .typed "3,1"])).2.requests.map
        Request.address =
        ["n8n/api/v1/workflows", "n8n/api/v1/workflows",
          "n8n/api/v1/workflows/b"] := by
  decide +kernel

end Program

end Flowgen
