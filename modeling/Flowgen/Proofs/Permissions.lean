import Flowgen.Proofs.Installing

namespace Flowgen

/-!
# What sessions may change

A permission says at which places a session may make directories, and at which
it may write files.  A session stays within a permission if every other entry
is the same after it, and no directory has become a file.  Sessions that are
put together stay within what their parts stay within.
-/

/--
The places where directories may be made, and those where files may be
written.
-/
structure Permission where
  make : List String → Prop
  write : List String → Prop

namespace FileTree

/--
A place that a path can lead to: it has an entry, and the directories to it
are there.
-/
structure Reaches (tree : FileTree) (names : List String) : Prop where
  directories :
    ∀ front, front <+: names.dropLast → tree.entry? front = some .directory
  isThere : (tree.entry? names).isSome = true

/-- What may become of the entry at a place. -/
inductive EntryChange (permission : Permission) (names : List String) :
    Option Entry → Option Entry → Prop where
  | same (entry : Option Entry) : EntryChange permission names entry entry
  | made (may : permission.make names) :
      EntryChange permission names none (some .directory)
  | written
      {before : Option Entry}
      (may : permission.write names)
      (notDirectory : before ≠ some .directory)
      (content : Content) :
      EntryChange permission names before (some (.file content))

/-- What may become of a tree; nothing changes around it. -/
structure Changes (permission : Permission) (before after : FileTree) :
  Prop where
  around : before.SameAround after
  entries : ∀ names,
    EntryChange permission names (before.entry? names) (after.entry? names)

variable {tree before after : FileTree} {permission wider : Permission}
  {names : List String}

/-- The top is always a directory. -/
theorem ne_nil_of_not_directory
    (notDirectory : tree.entry? names ≠ some .directory) :
    names ≠ [] := by
  rintro rfl
  exact notDirectory rfl

theorem write_eq_ok
    {path : Path}
    {content : Content}
    (written : tree.write path content = .ok after) :
    ∃ place, tree.locate path = .ok place ∧
    tree.entryAt? place ≠ some .directory ∧
      after = tree.setAt place (.file (tree.arriving place content)) := by
  unfold write at written
  obtain ⟨place, located, written⟩ := bind_eq_ok.mp written
  split at written
  · cases written
  · split at written
    · cases written
    · rename_i notDirectory
      cases written
      exact ⟨place, located, notDirectory, rfl⟩

theorem makeDirectory_eq_ok
    {path : Path}
    (made : tree.makeDirectory path = .ok after) :
    after = tree ∨ ∃ place, tree.locate path = .ok place ∧
      tree.entryAt? place = none ∧ after = tree.setAt place .directory := by
  unfold makeDirectory at made
  obtain ⟨place, located, made⟩ := bind_eq_ok.mp made
  split at made
  · cases made
    exact .inl rfl
  · cases made
  · rename_i absent
    split at made
    · cases made
      exact .inr ⟨place, located, absent, rfl⟩
    · cases made

namespace EntryChange

variable {first second third : Option Entry}

theorem trans
    (one : EntryChange permission names first second)
    (two : EntryChange permission names second third) :
    EntryChange permission names first third := by
  cases two with
  | same =>
      exact one
  | made may =>
      cases one
      exact .made may
  | written may notDirectory content =>
      cases one with
      | same =>
          exact .written may notDirectory content
      | made =>
          exact absurd rfl notDirectory
      | written _ wasNone _ =>
          exact .written may wasNone content

theorem mono
    (make : permission.make names → wider.make names)
    (write : permission.write names → wider.write names)
    (change : EntryChange permission names first second) :
    EntryChange wider names first second := by
  cases change with
  | same =>
      exact .same _
  | made may =>
      exact .made (make may)
  | written may notDirectory content =>
      exact .written (write may) notDirectory content

end EntryChange

namespace Changes

theorem refl
    (permission : Permission)
    (tree : FileTree) :
    tree.Changes permission tree :=
  ⟨.refl tree, fun _ => .same _⟩

theorem trans
    {between : FileTree}
    (first : before.Changes permission between)
    (second : between.Changes permission after) :
    before.Changes permission after where
  around := first.around.trans second.around
  entries names := (first.entries names).trans (second.entries names)

theorem mono
    (make : ∀ names, permission.make names → wider.make names)
    (write : ∀ names, permission.write names → wider.write names)
    (changes : before.Changes permission after) :
    before.Changes wider after where
  around := changes.around
  entries names := (changes.entries names).mono (make names) (write names)

theorem of_set
    {entry : Entry}
    (notNil : names ≠ [])
    (change : EntryChange permission names (tree.entry? names) (some entry)) :
    tree.Changes permission (tree.set names entry) where
  around := .set tree names entry
  entries place := by
    rw [entry?_set notNil]
    split
    · rename_i same
      exact same ▸ change
    · exact .same _

theorem of_makeDirectory
    {path : Path}
    (may : ∀ place, tree.locate path = .ok place →
      ∃ names, place = tree.below names ∧ permission.make names)
    (made : tree.makeDirectory path = .ok after) :
    tree.Changes permission after := by
  obtain rfl | ⟨place, located, absent, rfl⟩ := makeDirectory_eq_ok made
  · exact .refl permission after
  · obtain ⟨names, rfl, mayMake⟩ := may place located
    rw [entryAt?_below] at absent
    have notDirectory : tree.entry? names ≠ some .directory := by simp [absent]
    rw [setAt_below]
    refine of_set (ne_nil_of_not_directory notDirectory) ?_
    rw [absent]
    exact .made mayMake

theorem of_write
    {path : Path}
    {content : Content}
    (may : ∀ place, tree.locate path = .ok place →
      ∃ names, place = tree.below names ∧ permission.write names)
    (written : tree.write path content = .ok after) :
    tree.Changes permission after := by
  obtain ⟨place, located, notDirectory, rfl⟩ := write_eq_ok written
  obtain ⟨names, rfl, mayWrite⟩ := may place located
  rw [entryAt?_below] at notDirectory
  rw [setAt_below]
  exact of_set (ne_nil_of_not_directory notDirectory)
    (.written mayWrite notDirectory _)

end Changes

variable {place : Place} {path : Path}

/-- Names that do not lead up are followed below the place where they start. -/
theorem eq_append_of_follow
    {place final : Place}
    (noUp : ".." ∉ names)
    (followed : tree.follow place names = .ok final) :
    final = place ++ names := by
  induction names generalizing place with
  | nil =>
      cases followed
      simp
  | cons name names inductionHypothesis =>
      obtain ⟨notUp, restNoUp⟩ := not_or.mp (List.mem_cons.not.mp noUp)
      rw [follow] at followed
      split at followed
      · cases followed
      · split at followed
        · cases followed
        · rw [inductionHypothesis restNoUp followed, child,
            if_neg (Ne.symm notUp), List.append_assoc, List.singleton_append]

theorem follow_of_locate
    (located : tree.locate path = .ok place) :
    tree.follow (tree.rootPlace path.root) path.parts = .ok place := by
  unfold locate at located
  split at located
  · cases located
  · split at located
    · cases located
    · cases result : tree.follow (tree.rootPlace path.root) path.parts with
      | error cause =>
          rw [result] at located
          cases located
      | ok reached =>
          rw [result] at located
          cases located
          rfl

/-- A path that does not lead up can only lead below its root. -/
theorem eq_append_of_locate
    (noUp : ".." ∉ path.parts)
    (located : tree.locate path = .ok place) :
    place = tree.rootPlace path.root ++ path.parts :=
  eq_append_of_follow noUp (follow_of_locate located)

/-- The directory of the tree is its top, also when it is written out. -/
theorem rootPlace_home
    (tree : FileTree) :
    tree.rootPlace (tree.home ++ "/") = tree.top := by
  have notEmpty : tree.home ++ "/" ≠ "" := by
    intro isEmpty
    simpa using congrArg String.toList isEmpty
  rw [rootPlace, if_neg notEmpty, String.toList_append]
  exact Path.partsOf_concat_slash tree.home.toList

/-- A path from the top that does not lead up leads to its own names. -/
theorem eq_below_of_locate
    {parts : List String}
    (noUp : ".." ∉ parts)
    (located : tree.locate ⟨"", parts⟩ = .ok place) :
    place = tree.below parts :=
  eq_append_of_locate noUp located

theorem follow_of_directories
    {start : List String}
    (noUp : ".." ∉ names)
    (directories : ∀ front, front <+: names.dropLast →
      tree.entry? (start ++ front) = some .directory) :
    tree.follow (tree.below start) names = .ok (tree.below (start ++ names)) ∨
      tree.follow (tree.below start) names = .error .nameTooLong := by
  induction names generalizing start with
  | nil =>
      exact .inl (by simp [follow])
  | cons name names inductionHypothesis =>
      obtain ⟨notUp, restNoUp⟩ := not_or.mp (List.mem_cons.not.mp noUp)
      have here : tree.entryAt? (tree.below start) = some .directory := by
        simpa using directories [] List.nil_prefix
      by_cases isLong : nameLimit < name.utf8ByteSize
      · exact .inr (by simp [follow, directoryFault?_eq_none.mpr here, isLong])
      · rw [follow_cons_of_directory here (Nat.not_lt.mp isLong),
          child_below (Ne.symm notUp),
          show start ++ name :: names = (start ++ [name]) ++ names by simp]
        cases names with
        | nil =>
            exact .inl (by simp [follow])
        | cons next names =>
            refine inductionHypothesis restNoUp fun front isFront => ?_
            rw [List.append_assoc, List.singleton_append]
            exact directories (name :: front)
              (List.cons_prefix_cons.mpr ⟨rfl, isFront⟩)

/-- What a path does not find is not there. -/
theorem not_reaches_of_has
    (isRoot : tree.rootPlace path.root = tree.top)
    (noUp : ".." ∉ path.parts)
    (noNull : path.parts.any (fun part => part.toList.contains '\x00') = false)
    (missing : tree.has path = .ok false) :
    ¬ tree.Reaches path.parts := by
  intro reaches
  obtain ⟨entry, isEntry⟩ := Option.isSome_iff_exists.mp reaches.isThere
  have found : tree.find path = .ok entry ∨
      ∃ text, tree.find path = .error (.file .nameTooLong text) := by
    unfold find locate
    rw [noNull, if_neg Bool.false_ne_true]
    split
    · exact .inr ⟨_, rfl⟩
    · rw [isRoot, ← below_nil]
      have along :=
        @follow_of_directories tree path.parts [] noUp reaches.directories
      rcases along with followed | tooLong
      · rw [followed]
        simp [Except.mapError, bind, Except.bind, isEntry]
      · rw [tooLong]
        exact .inr ⟨_, rfl⟩
  unfold has at missing
  obtain found | ⟨text, found⟩ := found
  · rw [found] at missing
    cases missing
  · rw [found] at missing
    cases missing

end FileTree

namespace Session

variable {permission wider : Permission} {host : Host} {session : Session α}

/-- A session that stays within a permission. -/
def Within (permission : Permission) (session : Session α) : Prop :=
  ∀ host : Host, host.files.Changes permission (session.start host).2.files

/-- A session whose results have a property. -/
def Returns (holds : α → Prop) (session : Session α) : Prop :=
  ∀ (host after : Host) (value : α), session.start host = (.ok value, after) →
    holds value

theorem start_get_bind
    (next : Host → Session α) :
    ((get : Session Host) >>= next).start host = (next host).start host :=
  rfl

theorem start_changeFiles
    (change : FileTree → Except Fault FileTree) :
    (changeFiles change).start host =
      match change host.files with
      | .ok files => (.ok (), { host with files := files })
      | .error fault => (.error fault, host) := by
  have opened : (changeFiles change).start host =
      ((liftM (change host.files) : Session FileTree) >>= fun files =>
        set { host with files := files }).start host :=
    rfl
  rw [opened, start_bind, start_lift]
  cases change host.files <;> rfl

theorem start_storeFile
    (path : Path)
    (content : Content) :
    (storeFile path content).start host =
      match host.files.write path content with
      | .ok files =>
          (.ok (host.files.deviceFault? path), { host with files := files })
      | .error fault => (.error fault, host) := by
  have looked : (deviceFault? path).start host =
      (.ok (host.files.deviceFault? path), host) := rfl
  rw [storeFile, start_bind, looked]
  dsimp only
  rw [start_bind, start_changeFiles]
  cases host.files.write path content <;> rfl

/--
Writing a file ends well if it can be opened and the device takes all of it.
-/
theorem start_writeFile
    (path : Path)
    (content : Content) :
    (writeFile path content).start host =
      match host.files.write path content with
      | .ok files =>
          (match host.files.deviceFault? path with
            | some cause => .error (.device cause)
            | none => .ok (),
            { host with files := files })
      | .error fault => (.error fault, host) := by
  rw [writeFile, start_bind, start_storeFile]
  cases host.files.write path content with
  | error fault =>
      rfl
  | ok files =>
      cases host.files.deviceFault? path <;> rfl

theorem start_tryCatch
    (session : Session α)
    (handler : Fault → Session α) :
    (tryCatch session handler : Session α).start host =
      match session.start host with
      | (.ok value, between) => (.ok value, between)
      | (.error fault, between) => (handler fault).start between := by
  simp only [start, ExceptT.run, tryCatch, tryCatchThe, MonadExceptOf.tryCatch,
    ExceptT.tryCatch, ExceptT.mk, StateT.run, bind, StateT.bind]
  rcases session host with ⟨fault | value, between⟩ <;> rfl

/-- A session goes on after its first part, from where that ends. -/
theorem changes_bind
    {first : Session α}
    {next : α → Session β}
    (start : host.files.Changes permission (first.start host).2.files)
    (rest : ∀ value between, first.start host = (.ok value, between) →
      host.files.SameAround between.files →
      between.files.Changes permission ((next value).start between).2.files) :
    host.files.Changes permission ((first >>= next).start host).2.files := by
  rw [start_bind]
  rcases ended : first.start host with ⟨fault | value, between⟩
  · rw [ended] at start
    exact start
  · rw [ended] at start
    exact start.trans (rest value between ended start.around)

theorem changes_makeDirectory
    {path : Path}
    (may : ∀ place, host.files.locate path = .ok place →
      ∃ names, place = host.files.below names ∧ permission.make names) :
    host.files.Changes permission
      ((makeDirectory path).start host).2.files := by
  rw [makeDirectory, start_changeFiles]
  split
  · rename_i made
    exact .of_makeDirectory may made
  · exact .refl permission host.files

theorem changes_writeFile
    {path : Path}
    {content : Content}
    (may : ∀ place, host.files.locate path = .ok place →
      ∃ names, place = host.files.below names ∧ permission.write names) :
    host.files.Changes permission
      ((writeFile path content).start host).2.files := by
  rw [start_writeFile]
  split
  · rename_i written
    exact .of_write may written
  · exact .refl permission host.files

namespace Within

theorem of_files_eq
    (same : ∀ host : Host, (session.start host).2.files = host.files) :
    Within permission session := by
  intro host
  rw [same host]
  exact .refl permission host.files

theorem mono
    (make : ∀ names, permission.make names → wider.make names)
    (write : ∀ names, permission.write names → wider.write names)
    (within : Within permission session) :
    Within wider session :=
  fun host => (within host).mono make write

theorem pure
    (value : α) :
    Within permission (Pure.pure value : Session α) :=
  of_files_eq fun _ => rfl

theorem lift
    (result : Except Fault α) :
    Within permission (liftM result : Session α) :=
  of_files_eq fun _ => by rw [start_lift]

theorem throw
    (fault : Fault) :
    Within permission (MonadExcept.throw fault : Session α) :=
  of_files_eq fun _ => rfl

theorem reports
    (reports : Reports session) :
    Within permission session :=
  of_files_eq reports.files_eq

theorem bind
    {next : α → Session β}
    (first : Within permission session)
    (rest : ∀ value, Within permission (next value)) :
    Within permission (session >>= next) :=
  fun host => changes_bind (first host) fun value between _ _ =>
    rest value between

theorem bind_of_returns
    {next : α → Session β}
    {holds : α → Prop}
    (first : Within permission session)
    (returns : Returns holds session)
    (rest : ∀ value, holds value → Within permission (next value)) :
    Within permission (session >>= next) :=
  fun host => changes_bind (first host) fun value between returned _ =>
    rest value (returns host between value returned) between

theorem tryCatch
    {handler : Fault → Session α}
    (tried : Within permission session)
    (handled : ∀ fault, Within permission (handler fault)) :
    Within permission (MonadExcept.tryCatch session handler) := by
  intro host
  rw [start_tryCatch]
  have start := tried host
  rcases ended : session.start host with ⟨fault | value, between⟩
  · rw [ended] at start
    exact start.trans (handled fault between)
  · rw [ended] at start
    exact start

theorem guarded
    {handler : Fault → Session α}
    (tried : Within permission session)
    (handled : ∀ fault, Within permission (handler fault)) :
    Within permission (Session.guarded session handler) := by
  refine tryCatch tried fun fault => ?_
  split
  · exact throw fault
  · exact handled fault

theorem forM
    {items : List α}
    {action : α → Session PUnit}
    (each : ∀ item ∈ items, Within permission (action item)) :
    Within permission (items.forM action) := by
  induction items with
  | nil =>
      exact pure PUnit.unit
  | cons item items inductionHypothesis =>
      obtain ⟨first, others⟩ := List.forall_mem_cons.mp each
      exact bind first fun _ => inductionHypothesis others

theorem makeDirectory
    {path : Path}
    (may : ∀ (tree : FileTree) (place : Place), tree.locate path = .ok place →
      ∃ names, place = tree.below names ∧ permission.make names) :
    Within permission (Session.makeDirectory path) :=
  fun host => changes_makeDirectory (may host.files)

theorem writeFile
    {path : Path}
    {content : Content}
    (may : ∀ (tree : FileTree) (place : Place), tree.locate path = .ok place →
      ∃ names, place = tree.below names ∧ permission.write names) :
    Within permission (Session.writeFile path content) :=
  fun host => changes_writeFile (may host.files)

theorem openFile
    {path : Path}
    (may : ∀ (tree : FileTree) (place : Place), tree.locate path = .ok place →
      ∃ names, place = tree.below names ∧ permission.write names) :
    Within permission (Session.openFile path) := by
  intro host
  rw [Session.openFile, start_changeFiles]
  split
  · rename_i written
    exact .of_write (may host.files) written
  · exact .refl permission host.files

theorem print
    (text : String) :
    Within permission (Session.print text) :=
  reports (.print text)

theorem ask
    (prompt : String) :
    Within permission (Session.ask prompt) := by
  refine of_files_eq fun host => ?_
  obtain ⟨files, environment, answers, server, requests, output, setOrder⟩ :=
    host
  cases answers with
  | nil =>
      rfl
  | cons answer answers =>
      cases answer <;> rfl

/-- Asking until an answer settles the matter takes answers only. -/
theorem askUntil
    (prompt : String)
    (judge : Answer → Verdict α) :
    Within permission (Session.askUntil prompt judge) := by
  have write : ∀ text, Within permission (Session.write text) :=
    fun _ => of_files_eq fun _ => rfl
  refine bind (of_files_eq fun _ => rfl) fun host => ?_
  induction host.answers with
  | nil =>
      exact bind (write _) fun _ => throw _
  | cons answer answers inductionHypothesis =>
      refine bind (write _) fun _ => bind (of_files_eq fun _ => rfl) fun _ => ?_
      cases judge answer with
      | again text =>
          exact bind (write _) fun _ => inductionHypothesis
      | settled text result =>
          exact bind (write _) fun _ => pure _

theorem send
    (request : Request) :
    Within permission (Session.send request) := by
  refine of_files_eq fun host => ?_
  rw [Session.send, start_get_bind]
  generalize nextReply request.address host.server.replies = next
  obtain ⟨reply, replies⟩ := next
  cases reply with
  | none =>
      rfl
  | some reply =>
      cases reply <;> rfl

end Within

end Session

end Flowgen
