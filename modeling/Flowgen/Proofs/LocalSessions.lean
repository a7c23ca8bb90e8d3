import Flowgen.Proofs.ProgramFiles

namespace Flowgen

/-!
# Sessions among files

A local session neither asks the user nor sends requests.  What comes of it,
and what becomes of the files, depends on the files and on how sets are walked
through, and all else that it does is to print.  Such a session can be
followed as a function on file trees.
-/

namespace Session

variable {session : Session α} {order : SetOrder} {files : FileTree}

/-- What comes of a session among files, and the files after it. -/
def among
    (session : Session α)
    (order : SetOrder)
    (files : FileTree) :
    Except Fault α × FileTree :=
  let ended := session.start ⟨files, [], [], ⟨[]⟩, [], "", order⟩
  (ended.1, ended.2.files)

theorem among_eq_ok
    {value : α}
    {left : FileTree} :
    session.among order files = (.ok value, left) ↔
      ∃ after, session.start ⟨files, [], [], ⟨[]⟩, [], "", order⟩ =
        (.ok value, after) ∧ after.files = left := by
  rw [among]
  rcases session.start ⟨files, [], [], ⟨[]⟩, [], "", order⟩ with
    ⟨outcome, after⟩
  simp

/--
A session that changes nothing but the files and the output, and depends on no
more.
-/
def Local (session : Session α) : Prop :=
  ∀ host : Host, ∃ printed : String, session.start host =
    ((session.among host.setOrder host.files).1,
      { host with
        files := (session.among host.setOrder host.files).2
        output := host.output ++ printed })

/--
What a session returns among files it also returns in surroundings with these
files.
-/
theorem Returns.of_among
    {holds : α → Prop}
    {value : α}
    {after : FileTree}
    (returns : Returns holds session)
    (ended : session.among order files = (.ok value, after)) :
    holds value := by
  have outcome :
      (session.start ⟨files, [], [], ⟨[]⟩, [], "", order⟩).1 = .ok value :=
    congrArg Prod.fst ended
  exact returns _ _ value (Prod.ext outcome rfl)

/-- What a local session does in any surroundings. -/
theorem Local.start_facts
    (isLocal : Local session)
    (host : Host) :
    (session.start host).1 = (session.among host.setOrder host.files).1 ∧
      (session.start host).2.files =
        (session.among host.setOrder host.files).2 ∧
      (session.start host).2.server = host.server ∧
      (session.start host).2.setOrder = host.setOrder := by
  obtain ⟨printed, started⟩ := isLocal host
  rw [started]
  exact ⟨rfl, rfl, rfl, rfl⟩

@[simp] theorem among_pure
    (value : α) :
    (pure value : Session α).among order files = (.ok value, files) :=
  rfl

@[simp] theorem among_lift
    (result : Except Fault α) :
    (liftM result : Session α).among order files = (result, files) := by
  simp [among]

@[simp] theorem among_print
    (text : String) :
    (Session.print text).among order files = (.ok (), files) :=
  rfl

@[simp] theorem among_pathExists
    (path : Path) :
    (Session.pathExists path).among order files = (files.has path, files) := by
  simp [among, Template.start_pathExists]

@[simp] theorem among_readFile
    (path : Path) :
    (Session.readFile path).among order files = (files.read path, files) := by
  simp [among, Template.start_readFile]

theorem among_changeFiles
    (change : FileTree → Except Fault FileTree) :
    (changeFiles change).among order files =
      match change files with
      | .ok changed => (.ok (), changed)
      | .error fault => (.error fault, files) := by
  rw [among, start_changeFiles]
  dsimp only
  cases change files <;> rfl

theorem Reports.among_files
    (reports : Reports session)
    (order : SetOrder)
    (files : FileTree) :
    (session.among order files).2 = files :=
  reports.files_eq _

theorem among_lift_bind
    (result : Except Fault α)
    (next : α → Session β) :
    ((liftM result : Session α) >>= next).among order files =
      match result with
      | .ok value => (next value).among order files
      | .error fault => (.error fault, files) := by
  rw [among, start_bind, start_lift]
  cases result <;> rfl

theorem among_lift_bind_fst
    (result : Except Fault α)
    (next : α → Session β) :
    (((liftM result : Session α) >>= next).among order files).1 =
      result >>= fun value => ((next value).among order files).1 := by
  rw [among_lift_bind]
  cases result <;> rfl

theorem among_setOrder_bind
    (next : SetOrder → Session α) :
    (Session.setOrder >>= next).among order files =
      (next order).among order files :=
  rfl

/--
A session in two parts goes on among the files that its first part leaves.
-/
theorem among_bind
    {next : α → Session β}
    (first : Local session)
    (rest : ∀ value, Local (next value)) :
    (session >>= next).among order files =
      match session.among order files with
      | (.ok value, between) => (next value).among order between
      | (.error fault, between) => (.error fault, between) := by
  obtain ⟨_, _, _, sameOrder⟩ :=
    first.start_facts ⟨files, [], [], ⟨[]⟩, [], "", order⟩
  rw [among, among, start_bind]
  rcases ended : session.start ⟨files, [], [], ⟨[]⟩, [], "", order⟩ with
    ⟨fault | value, between⟩
  · rfl
  · rw [ended] at sameOrder
    obtain ⟨outcome, left, _⟩ := (rest value).start_facts between
    rw [sameOrder] at outcome left
    exact Prod.ext outcome left

/--
A guarded session goes on with its handler among the files that it leaves.
-/
theorem among_guarded
    {handler : Fault → Session α}
    (first : Local session)
    (handled : ∀ fault, Local (handler fault)) :
    (guarded session handler).among order files =
      match session.among order files with
      | (.ok value, between) => (.ok value, between)
      | (.error fault, between) =>
          if fault.isUncatchable then (.error fault, between)
          else (handler fault).among order between := by
  obtain ⟨_, _, _, sameOrder⟩ :=
    first.start_facts ⟨files, [], [], ⟨[]⟩, [], "", order⟩
  rw [among, among, start_guarded]
  rcases ended : session.start ⟨files, [], [], ⟨[]⟩, [], "", order⟩ with
    ⟨fault | value, between⟩
  · rw [ended] at sameOrder
    dsimp only
    split
    · rfl
    · obtain ⟨outcome, left, _⟩ := (handled fault).start_facts between
      rw [sameOrder] at outcome left
      exact Prod.ext outcome left
  · rfl

namespace Local

theorem reports
    (reports : Reports session) :
    Local session := by
  intro host
  obtain ⟨outcome, printed, reported⟩ := reports host.setOrder
  refine ⟨printed host.files, ?_⟩
  rw [reported host rfl, among,
    reported ⟨host.files, [], [], ⟨[]⟩, [], "", host.setOrder⟩ rfl]

theorem pure
    (value : α) :
    Local (Pure.pure value : Session α) :=
  reports (.pure value)

theorem lift
    (result : Except Fault α) :
    Local (liftM result : Session α) :=
  reports (.lift result)

theorem print
    (text : String) :
    Local (Session.print text) :=
  reports (.print text)

theorem changeFiles
    (change : FileTree → Except Fault FileTree) :
    Local (Session.changeFiles change) := by
  intro host
  refine ⟨"", ?_⟩
  rw [among_changeFiles, start_changeFiles]
  cases change host.files <;> simp

theorem makeDirectory
    (path : Path) :
    Local (Session.makeDirectory path) :=
  changeFiles _

theorem bind
    {next : α → Session β}
    (first : Local session)
    (rest : ∀ value, Local (next value)) :
    Local (session >>= next) := by
  intro host
  obtain ⟨printed, started⟩ := first host
  rw [start_bind, started, among_bind first rest]
  rcases session.among host.setOrder host.files with ⟨fault | value, between⟩
  · exact ⟨printed, rfl⟩
  · obtain ⟨alsoPrinted, ended⟩ :=
      rest value { host with
        files := between, output := host.output ++ printed }
    exact ⟨printed ++ alsoPrinted, by simp [ended, String.append_assoc]⟩

theorem storeFile
    (path : Path)
    (content : Content) :
    Local (Session.storeFile path content) :=
  bind (.reports (.deviceFault? path)) fun cause =>
    bind (changeFiles _) fun _ => pure cause

theorem writeFile
    (path : Path)
    (content : Content) :
    Local (Session.writeFile path content) := by
  refine bind (storeFile path content) fun cause => ?_
  split
  · exact lift (.error _)
  · exact pure ()

theorem guarded
    {handler : Fault → Session α}
    (first : Local session)
    (handled : ∀ fault, Local (handler fault)) :
    Local (Session.guarded session handler) := by
  intro host
  obtain ⟨printed, started⟩ := first host
  rw [start_guarded, started, among_guarded first handled]
  rcases session.among host.setOrder host.files with ⟨fault | value, between⟩
  · dsimp only
    split
    · exact ⟨printed, rfl⟩
    · obtain ⟨alsoPrinted, ended⟩ :=
        handled fault { host with
          files := between, output := host.output ++ printed }
      exact ⟨printed ++ alsoPrinted, by simp [ended, String.append_assoc]⟩
  · exact ⟨printed, rfl⟩

theorem forM
    {items : List α}
    {action : α → Session PUnit}
    (each : ∀ item, Local (action item)) :
    Local (items.forM action) := by
  induction items with
  | nil =>
      exact pure PUnit.unit
  | cons item items inductionHypothesis =>
      exact bind (each item) fun _ => inductionHypothesis

end Local

/--
What comes of sessions that report, one after the other, comes of both among
the same files.
-/
theorem Reports.among_bind_fst
    {next : α → Session β}
    (first : Reports session)
    (rest : ∀ value, Reports (next value))
    (order : SetOrder)
    (files : FileTree) :
    ((session >>= next).among order files).1 =
      (session.among order files).1 >>= fun value =>
      ((next value).among order files).1 := by
  have same := first.among_files order files
  rw [among_bind (.reports first) fun value => .reports (rest value)]
  rcases ended : session.among order files with ⟨fault | value, between⟩
  · rfl
  · rw [ended] at same
    exact congrArg (fun files => ((next value).among order files).1) same

end Session

end Flowgen
