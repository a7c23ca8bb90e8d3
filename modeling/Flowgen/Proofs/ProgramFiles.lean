import Flowgen.Program
import Flowgen.Proofs.FileNames
import Flowgen.Proofs.GeneratedMethods
import Flowgen.Proofs.Permissions

namespace Flowgen

/-!
# The files that the program changes

Whatever the settings, the environment, the user and the server say, a run of
the program makes its own directories and writes settings where there were
none, credentials, and files right in the directory of a language.  All else
stays as it is.
-/

open Session

namespace Settings

/-- Settings are written where there were none before. -/
def permission (before : FileTree) : Permission where
  make names := names = ["config"]
  write names := names = ["config", "settings.json"] ∧ ¬ before.Reaches names

theorem within_read
    {permission : Permission}
    (home : String) :
    Within permission (read home) := by
  unfold read readText
  refine .bind
    (.bind (.reports (.readFile _)) fun content =>
      .bind (.lift _) fun text => .pure _)
    fun text => .bind (.lift _) fun settings =>
      .bind (.of_files_eq fun _ => rfl) fun host => .lift _

theorem changes_writeDefaults
    {before : FileTree}
    {host : Host}
    {home : String}
    (isHome : host.files.home = home)
    (wasMissing : ¬ before.Reaches ["config", "settings.json"]) :
    host.files.Changes (permission before)
      ((writeDefaults home).start host).2.files := by
  have leads :
      ∀ (tree : FileTree) parts place, tree.home = home → ".." ∉ parts →
      tree.locate (.inside home parts) = .ok place →
      place = tree.below parts := by
    rintro tree parts place rfl noUp located
    have placeIs := FileTree.eq_append_of_locate noUp located
    rwa [Path.inside, FileTree.rootPlace_home] at placeIs
  unfold writeDefaults
  refine changes_bind (changes_makeDirectory fun place located => ?_)
    fun _ between _ around => changes_writeFile fun place located => ?_
  · exact ⟨_, leads _ _ _ isHome (by decide) located, rfl⟩
  · exact ⟨_, leads _ _ _ (around.home_eq.trans isHome) (by decide) located,
      rfl, wasMissing⟩

theorem changes_load
    (host : Host) :
    host.files.Changes (permission host.files) (load.start host).2.files := by
  unfold load
  rw [start_get_bind]
  refine changes_bind (Within.reports (.pathExists _) host)
    fun isThere _ asked around => ?_
  cases isThere with
  | true =>
      rw [if_pos rfl]
      exact Within.guarded (within_read _)
        (fun fault => .bind (.print _) fun _ => .pure _) _
  | false =>
      rw [Template.start_pathExists, Prod.mk.injEq] at asked
      have wasMissing : ¬ host.files.Reaches ["config", "settings.json"] :=
        FileTree.not_reaches_of_has host.files.rootPlace_home
          (by decide : ".." ∉ ["config", "settings.json"])
          (by decide : ["config", "settings.json"].any
            (fun part => part.toList.contains '\x00') = false) asked.1
      rw [if_neg Bool.false_ne_true]
      refine changes_bind (Within.print _ _) fun _ _ _ printed =>
        changes_bind (Within.print _ _) fun _ _ _ printedMore => ?_
      have isHome := (around.trans (printed.trans printedMore)).home_eq
      exact changes_bind (changes_writeDefaults isHome wasMissing)
        fun _ _ _ _ => Within.lift _ _

end Settings

namespace Output

/-- Generated code is written below the directory for output. -/
def permission : Permission where
  make names := names = ["output"] ∨ names = ["output", "credentials"] ∨
    ∃ language : Language, names = ["output", language.code]
  write names :=
    (∃ language : Language,
      names = ["output", "credentials", "Credentials" ++ language.extension]) ∨
    ∃ (language : Language) (name : String), Path.IsComponent name ∧
      names = ["output", language.code, name]

/-- The directory that the program writes to. -/
def standard : Output :=
  ⟨.ofText "output"⟩

theorem standard_base : standard.base = ⟨"", ["output"]⟩ := by
  decide

theorem standard_credentialsDirectory :
    standard.credentialsDirectory = ⟨"", ["output", "credentials"]⟩ := by
  decide

theorem standard_credentialsFile
    (language : Language) :
    standard.credentialsFile language.code =
      ⟨"", ["output", "credentials", "Credentials" ++ language.extension]⟩ := by
  cases language <;> decide

theorem standard_base_join
    (language : Language) :
    standard.base.join language.code = ⟨"", ["output", language.code]⟩ := by
  cases language <;> decide

theorem within_make :
    Within permission (make "output") := by
  unfold make
  refine .bind (.makeDirectory ?_) fun _ => .bind (.makeDirectory ?_) fun _ =>
    .pure _
  · intro tree place located
    rw [← standard, standard_base] at located
    exact ⟨_, FileTree.eq_below_of_locate (by decide) located, .inl rfl⟩
  · intro tree place located
    rw [← standard, standard_credentialsDirectory] at located
    exact ⟨_, FileTree.eq_below_of_locate (by decide) located, .inr (.inl rfl)⟩

theorem start_copyFile
    (source target : Path)
    (host : Host) :
    (copyFile source target).start host =
      match host.files.read source with
      | .error fault => (.error fault, host)
      | .ok content =>
          match host.files.write target content with
          | .error fault => (.error fault, host)
          | .ok files =>
              (match host.files.deviceFault? target with
                | some cause => .error (.copying cause source.text target.text)
                | none => .ok (),
                { host with files := files }) := by
  rw [copyFile, start_bind, Template.start_readFile]
  cases host.files.read source with
  | error fault =>
      rfl
  | ok content =>
      dsimp only
      rw [start_bind, start_storeFile]
      cases host.files.write target content with
      | error fault =>
          rfl
      | ok files =>
          cases host.files.deviceFault? target <;> rfl

/-- Copying a template changes nothing, or writes the target. -/
theorem copyTemplate_cases
    (template target : Path)
    (host : Host) :
    (((copyTemplate template target).start host).2 = host ∧
        ((copyTemplate template target).start host).1 ≠ .ok true) ∨
      ∃ content files, host.files.write target content = .ok files ∧
        ((copyTemplate template target).start host).2 =
          { host with files := files } ∧
        ((copyTemplate template target).start host).1 ≠ .ok false := by
  rw [copyTemplate, start_bind, Template.start_pathExists]
  rcases host.files.has template with fault | isThere
  · exact .inl ⟨rfl, by simp⟩
  · cases isThere with
    | false =>
        exact .inl ⟨rfl, by simp⟩
    | true =>
        simp only [if_true]
        rw [start_bind, start_copyFile]
        cases host.files.read template with
        | error fault =>
            exact .inl ⟨rfl, by simp⟩
        | ok content =>
            dsimp only
            cases written : host.files.write target content with
            | error fault =>
                exact .inl ⟨rfl, by simp⟩
            | ok files =>
                refine .inr ⟨content, files, written, ?_⟩
                cases isFailing : host.files.deviceFault? target with
                | none =>
                    exact ⟨rfl, by simp⟩
                | some cause =>
                    exact ⟨rfl, by simp⟩

/--
Credentials that are there are kept, and others are written to their own file.
-/
theorem ensureCredentials_cases
    (output : Output)
    (language : String)
    (host : Host) :
    ((output.ensureCredentials language).start host).2 = host ∨
      host.files.has (output.credentialsFile language) = .ok false ∧
      ∃ content files, host.files.write (output.credentialsFile language)
        content = .ok files ∧
        ((output.ensureCredentials language).start host).2 =
          { host with files := files } := by
  rw [ensureCredentials, start_bind, Template.start_pathExists]
  rcases host.files.has (output.credentialsFile language) with fault | isThere
  · exact .inl rfl
  cases isThere with
  | true =>
      exact .inl rfl
  | false =>
      simp only [Bool.false_eq_true, if_false, start_bind]
      rcases outcome :
        (copyTemplate (credentialsTemplate (credentialsName language))
          (output.credentialsFile language)).start host with
          ⟨fault | isCopied, between⟩
      all_goals
        have cases :=
          copyTemplate_cases (credentialsTemplate (credentialsName language))
          (output.credentialsFile language) host
        rw [outcome] at cases
        obtain ⟨rfl, notCopied⟩ | ⟨content, files, written, rfl, notMissing⟩ :=
          cases
      · exact .inl rfl
      · exact .inr ⟨trivial, content, files, written, rfl⟩
      · obtain rfl : isCopied = false := by simpa using notCopied
        simp only [Bool.false_eq_true, if_false]
        split
        · exact .inl rfl
        · obtain ⟨same, _⟩ | ⟨content, files, written, copied, _⟩ :=
            copyTemplate_cases (credentialsTemplate "Credentials.php")
              (output.credentialsFile language) between
          · exact .inl same
          · exact .inr ⟨trivial, content, files, written, copied⟩
      · obtain rfl : isCopied = true := by simpa using notMissing
        exact .inr ⟨trivial, content, files, written, rfl⟩

theorem within_ensureCredentials
    (language : Language) :
    Within permission (standard.ensureCredentials language.code) := by
  intro host
  obtain same | ⟨_, content, files, written, ended⟩ :=
    standard.ensureCredentials_cases language.code host
  · rw [same]
    exact .refl _ _
  · rw [ended]
    refine .of_write (fun place located => ?_) written
    rw [standard_credentialsFile] at located
    exact ⟨_, FileTree.eq_below_of_locate (by cases language <;> decide)
      located, .inl ⟨language, rfl⟩⟩

theorem within_workflowFile
    {permission : Permission}
    {output : Output}
    {language : String}
    (may : ∀ (tree : FileTree) (place : Place),
      tree.locate (output.base.join language) = .ok place →
      ∃ names, place = tree.below names ∧ permission.make names)
    (workflow : Value) :
    Within permission (output.workflowFile workflow language) := by
  unfold workflowFile languageDirectory
  exact .bind (.bind (.makeDirectory may) fun _ => .pure _) fun directory =>
    .bind (.lift _) fun name => .bind (.lift _) fun fileName => .pure _

/--
The file of a workflow is called by its name, in the directory of the
language.
-/
theorem returns_workflowFile
    (output : Output)
    (workflow : Value)
    (language : String) :
    Returns
      (fun path => ∃ text, workflow.get "name" (.text "workflow") =
        .ok (.text text) ∧
        path = (output.base.join language).join (workflowName language text))
      (output.workflowFile workflow language) := by
  intro host after path returned
  unfold workflowFile languageDirectory at returned
  obtain ⟨directory, between, made, returned⟩ := bind_start_eq_ok.mp returned
  obtain ⟨_, _, _, isDirectory⟩ := bind_start_eq_ok.mp made
  obtain ⟨name, isName, returned⟩ := lift_bind_start_eq_ok.mp returned
  obtain ⟨fileName, isFileName, returned⟩ := lift_bind_start_eq_ok.mp returned
  cases isDirectory
  cases returned
  unfold Naming.fileName at isFileName
  cases asText : name.textFor .replace with
  | error fault =>
      rw [asText] at isFileName
      cases isFileName
  | ok text =>
      rw [asText, Except.map, Except.ok.injEq] at isFileName
      subst isFileName
      exact ⟨text, Value.textFor_eq_ok.mp asText ▸ isName, rfl⟩

end Output

namespace Class.Generator

variable {generator : Generator}

theorem reports_loadClass
    (store : Template.Store)
    (language : Value) :
    Reports (store.loadClass language) := by
  unfold Template.Store.loadClass
  refine .bind (.pathExists _) fun isThere => ?_
  split
  · refine .guarded ?_ fun fault => .bind (.print _) fun _ => .pure none
    exact .bind (.readFile _) fun content => .bind (.lift _) fun document =>
      .lift _
  · exact .bind (.print _) fun _ => .pure none

theorem reports_fillClass
    (generator : Generator)
    (template : String)
    (workflow nodes : Value) :
    Reports (generator.fillClass template workflow nodes) := by
  unfold fillClass
  refine .bind .setOrder fun order => .bind (.lift _) fun names =>
    .bind (.lift _) fun ordered =>
    .bind (reports_methods generator ordered) fun methods =>
      .bind (.lift _) fun code =>
    .bind (.lift _) fun imports => .bind (.lift _) fun className =>
      .bind (.lift _) fun name =>
    .bind (.lift _) fun workflowName => .pure _

theorem reports_generate
    (generator : Generator)
    (workflow : Value) :
    Reports (generator.generate workflow) := by
  unfold generate
  refine .bind (reports_loadClass _ _) fun template => ?_
  split
  · exact .bind (.print _) fun _ => .pure none
  · exact .bind (.print _) fun _ => .pure none
  · refine .bind (.lift _) fun nodes => ?_
    split
    · rw [map_eq_pure_bind]
      exact .bind (reports_fillClass generator _ workflow nodes) fun code =>
        .pure _
    · exact .bind (.print _) fun _ => .pure none

theorem returns_make
    (store : Template.Store)
    (language : String) :
    Returns (fun generator => generator = ⟨store, language, .standard⟩)
      (make store language) := by
  intro host after generator returned
  unfold make at returned
  obtain ⟨output, between, made, returned⟩ := bind_start_eq_ok.mp returned
  unfold Output.make at made
  obtain ⟨_, _, _, made⟩ := bind_start_eq_ok.mp made
  obtain ⟨_, _, _, made⟩ := bind_start_eq_ok.mp made
  cases made
  cases returned
  rfl

theorem within_write
    {permission : Permission}
    {file : Path}
    (may : ∀ (tree : FileTree) (place : Place), tree.locate file = .ok place →
      ∃ names, place = tree.below names ∧ permission.write names)
    (code : Code) :
    Within permission (write file code) := by
  unfold write
  split
  · exact .writeFile may
  · exact .bind (.openFile may) fun _ => .throw _
  · exact .bind (.openFile may) fun _ => .throw _

theorem within_save
    (store : Template.Store)
    (language : Language)
    (workflow : Value)
    (code : Code) :
    Within Output.permission (save ⟨store, language.code, .standard⟩ workflow
      code) := by
  unfold save storing reportUnsaved
  refine .guarded ?_ fun fault => .bind (.print _) fun _ => .pure _
  refine .bind (Output.within_ensureCredentials language) fun _ => ?_
  refine .bind_of_returns (Output.within_workflowFile ?_ workflow)
    (Output.returns_workflowFile _ _ _) ?_
  · intro tree place located
    rw [Output.standard_base_join] at located
    exact ⟨_, FileTree.eq_below_of_locate (by cases language <;> decide)
      located, .inr (.inr ⟨language, rfl⟩)⟩
  intro file named
  obtain ⟨text, _, fileIs⟩ := named
  have isComponent := Output.isComponent_workflowName language.code text
  rw [Output.standard_base_join, Path.join_component _ isComponent] at fileIs
  refine .bind (within_write ?_ code) fun _ => .bind (.print _) fun _ => .pure _
  intro tree place located
  rw [fileIs] at located
  refine ⟨_, FileTree.eq_below_of_locate ?_ located,
    .inr ⟨language, _, isComponent, rfl⟩⟩
  have notUp := isComponent.notUp.symm
  cases language <;> simpa [Language.code] using notUp

end Class.Generator

namespace Selection

variable {permission : Permission}

theorem within_showNumbered
    (number : Nat)
    (workflows : List Value) :
    Within permission (showNumbered number workflows) := by
  induction workflows generalizing number with
  | nil =>
      exact .pure _
  | cons workflow workflows inductionHypothesis =>
      exact .bind (.lift _) fun name => .bind (.lift _) fun id =>
        .bind (.print _) fun _ =>
        inductionHypothesis (number + 1)

theorem within_showWorkflows
    (workflows : Value) :
    Within permission (showWorkflows workflows) := by
  unfold showWorkflows
  split
  · exact .bind (.print _) fun _ => .bind (.print _) fun _ =>
      .bind (.print _) fun _ =>
      .bind (.lift _) fun items => .bind (within_showNumbered 1 items) fun _ =>
        .print _
  · exact .print _

theorem within_chooseWorkflows
    (workflows : Value) :
    Within permission (chooseWorkflows workflows) := by
  unfold chooseWorkflows
  split
  · exact .bind (within_showWorkflows workflows) fun _ =>
      .bind (.lift _) fun items =>
      .askUntil _ _
  · exact .pure _

theorem within_chooseLanguages
    (default : Value) :
    Within permission (chooseLanguages default) := by
  have shown : Within permission showLanguages :=
    .bind (.print _) fun _ => .bind (.print _) fun _ =>
      .bind (.print _) fun _ =>
      .bind (.forM fun language _ => .print _) fun _ => .print _
  unfold chooseLanguages
  refine .bind shown fun _ => ?_
  split
  · exact .bind (.print _) fun _ => .bind (.print _) fun _ => .askUntil _ _
  · exact .askUntil _ _

end Selection

namespace Client

variable {permission : Permission}

theorem within_onFailure
    {session : Session α}
    {handler : Fault → Session α}
    (tried : Within permission session)
    (handled : ∀ fault, Within permission (handler fault)) :
    Within permission (onFailure session handler) := by
  refine .tryCatch tried fun fault => ?_
  split
  · exact handled fault
  · exact .throw fault

theorem within_fetch
    (client : Client)
    (address : String) :
    Within permission (client.fetch address) := by
  unfold fetch
  refine .bind (.send _) fun reply => ?_
  obtain ⟨status, reason, body⟩ := reply
  dsimp only
  split
  · exact .throw _
  · exact .lift _

theorem within_workflows
    (client : Client) :
    Within permission client.workflows :=
  within_onFailure (.bind (within_fetch client _) fun _ => .lift _) fun _ =>
    .bind (.print _) fun _ => .pure _

theorem within_workflow
    (client : Client)
    (id : Value) :
    Within permission (client.workflow id) :=
  within_onFailure (within_fetch client _) fun _ => .bind (.print _) fun _ =>
    .pure _

theorem within_isReachable
    (client : Client) :
    Within permission client.isReachable :=
  within_onFailure (.bind (.send _) fun _ => .pure _) fun _ => .pure _

end Client

namespace Program

theorem within_printBanner
    {permission : Permission}
    (lead text : String) :
    Within permission (printBanner lead text) :=
  .bind (.print _) fun _ => .bind (.print _) fun _ => .print _

theorem within_askForKey
    {permission : Permission}
    (configured : Value) :
    Within permission (askForKey configured) := by
  unfold askForKey
  split
  · exact .pure _
  · refine .bind (.print _) fun _ => .bind (.print _) fun _ =>
      .bind (.ask _) fun typed => ?_
    dsimp only
    split
    · exact .bind (.print _) fun _ => .pure _
    · exact .pure _

theorem within_convert
    (name workflow : Value)
    (language : Language) :
    Within Output.permission (convert name workflow language) := by
  have reported : ∀ result, Within Output.permission
      (reportConverted name language result) := by
    intro result
    unfold reportConverted
    split
    all_goals exact .print _
  unfold convert converted
  refine .bind (.print _) fun _ => .bind (.bind_of_returns
    (.bind Output.within_make fun _ => .pure _)
      (Class.Generator.returns_make _ _) ?_) reported
  rintro generator rfl
  refine .bind (.reports (Class.Generator.reports_generate _ workflow))
    fun generated => ?_
  unfold saved
  split
  · exact .pure _
  · exact .pure _
  · rw [map_eq_pure_bind]
    exact .bind (Class.Generator.within_save _ language workflow _) fun _ =>
      .pure _

theorem within_convertChosen
    (client : Client)
    (languages : List Language)
    (chosen : Value) :
    Within Output.permission (convertChosen client languages chosen) := by
  unfold convertChosen
  refine .bind (.lift _) fun name => .bind (.lift _) fun id =>
    .bind (within_printBanner _ _) fun _ =>
      .bind (Client.within_workflow client id) fun workflow => ?_
  split
  · exact .forM fun language _ => within_convert name workflow language
  · exact .print _

theorem within_chooseAndConvert
    (client : Client)
    (workflows defaultLanguage : Value) :
    Within Output.permission (chooseAndConvert client workflows
      defaultLanguage) := by
  unfold chooseAndConvert convertAll
  refine .bind (Selection.within_chooseWorkflows workflows) fun chosen => ?_
  split
  · exact .print _
  · exact .bind (Selection.within_chooseLanguages defaultLanguage)
      fun languages =>
        .bind (within_printBanner _ _) fun _ =>
          .bind (.forM fun workflow _ =>
            within_convertChosen client languages workflow) fun _ =>
            within_printBanner _ _

theorem within_serve
    (address key defaultLanguage : Value) :
    Within Output.permission (serve address key defaultLanguage) := by
  unfold serve
  refine .bind (.print _) fun _ => .bind (.lift _) fun client =>
    .bind (Client.within_isReachable client) fun isReachable => ?_
  unfold afterTest
  split
  · refine .bind (.print _) fun _ => .bind (.print _) fun _ =>
      .bind (Client.within_workflows client) fun workflows => ?_
    unfold convertOffered
    split
    · exact .bind (.lift _) fun count => .bind (.print _) fun _ =>
        within_chooseAndConvert client workflows defaultLanguage
    · exact .print _
  · exact .bind (.print _) fun _ => .print _

theorem within_connect
    (found : Configuration) :
    Within Output.permission (connect found) := by
  unfold connect
  refine .bind (within_askForKey found.key) fun key => ?_
  split
  · exact .pure _
  · exact within_serve found.address _ found.language

/-- What the program may change, given the files that were there before it. -/
def permission (before : FileTree) : Permission where
  make names :=
    (Settings.permission before).make names ∨ Output.permission.make names
  write names :=
    (Settings.permission before).write names ∨ Output.permission.write names

theorem changes_configuration
    (host : Host) :
    host.files.Changes (permission host.files)
      (configuration.start host).2.files := by
  obtain ⟨printed, started, same⟩ : ∃ printed : Host,
      (printBanner ""
        "n8ncoding - Conversor de Workflows n8n para Código").start host =
        (.ok (), printed) ∧ printed.files = host.files :=
    ⟨_, rfl, rfl⟩
  unfold configuration
  rw [start_bind, started, ← same]
  have loaded : printed.files.Changes (permission printed.files)
      (Settings.load.start printed).2.files :=
    (Settings.changes_load printed).mono (fun _ => .inl) (fun _ => .inl)
  refine changes_bind loaded fun settings between _ _ => ?_
  exact Within.bind (.lift _) (fun server => .bind (.lift _) fun output =>
    .bind (.lift _) fun address => .bind (.lift _) fun configured =>
    .bind (.lift _) fun language => .pure _) between

theorem changes_body
    (host : Host) :
    host.files.Changes (permission host.files) (body.start host).2.files := by
  unfold body
  exact changes_bind (changes_configuration host) fun found between _ _ =>
    (within_connect found between).mono (fun _ => .inr) (fun _ => .inr)

/-- A run of the program changes only what it may. -/
theorem run_changes
    (host : Host) :
    host.files.Changes (permission host.files) (run.start host).2.files := by
  have reported :
      ∀ fault, Within (permission host.files) (reportFault fault) := by
    intro fault
    unfold reportFault
    split
    · exact .print _
    · exact .throw _
    · exact .print _
  have ended := changes_body host
  rw [run, start_tryCatch]
  rcases outcome : body.start host with ⟨fault | value, between⟩
  · rw [outcome] at ended
    exact ended.trans (reported fault between)
  · rw [outcome] at ended
    exact ended

end Program

end Flowgen
