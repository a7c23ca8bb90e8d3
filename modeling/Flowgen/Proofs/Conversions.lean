import Flowgen.Proofs.OutputSteps

namespace Flowgen

/-!
# Converting a workflow after others

A workflow that can be converted in a tree that has grown by converting others
can be converted alone, in the tree as it was.  What comes of it is the same.
A place that it changes becomes the same in both trees, and any other place
stays as it is in each.
-/

open Session

namespace Session

/--
A session that does the same in two trees, whatever the orders in which sets
are walked.  From trees that are related before, it returns the same and
leaves trees that are related after, or it has the same fault and leaves trees
that are related as when it stops.
-/
def Agrees
    (before after stopped : FileTree → FileTree → Prop)
    (session : Session α) : Prop :=
  ∀ order another small large, before small large →
    (∃ value one other, session.among order small = (.ok value, one) ∧
      session.among another large = (.ok value, other) ∧ after one other) ∨
    ∃ fault one other, session.among order small = (.error fault, one) ∧
      session.among another large = (.error fault, other) ∧ stopped one other

namespace Agrees

variable {before between after stopped : FileTree → FileTree → Prop}
  {session : Session α}

theorem pure
    (value : α) :
    Agrees before before stopped (Pure.pure value : Session α) :=
  fun _ _ small large related => .inl ⟨value, small, large, rfl, rfl, related⟩

theorem print
    (text : String) :
    Agrees before before stopped (Session.print text) :=
  fun _ _ small large related => .inl ⟨(), small, large, rfl, rfl, related⟩

theorem lift
    (result : Except Fault α)
    (stops : ∀ small large, before small large → stopped small large) :
    Agrees before before stopped (liftM result : Session α) := by
  intro order another small large related
  rw [among_lift, among_lift]
  cases result with
  | error fault =>
      exact .inr ⟨fault, small, large, rfl, rfl, stops small large related⟩
  | ok value =>
      exact .inl ⟨value, small, large, rfl, rfl, related⟩

theorem bind
    {next : α → Session β}
    (isLocal : Local session)
    (localNext : ∀ value, Local (next value))
    (first : Agrees before between stopped session)
    (rest : ∀ order tree value ended,
      session.among order tree = (.ok value, ended) →
      Agrees between after stopped (next value)) :
    Agrees before after stopped (session >>= next) := by
  intro order another small large related
  rw [among_bind isLocal localNext, among_bind isLocal localNext]
  obtain ⟨value, one, other, isOne, isOther, related⟩ |
    ⟨fault, one, other, isOne, isOther, related⟩ :=
      first order another small large related
  · rw [isOne, isOther]
    exact rest order small value one isOne order another one other related
  · rw [isOne, isOther]
    exact .inr ⟨fault, one, other, rfl, rfl, related⟩

theorem guarded
    {handler : Fault → Session α}
    (isLocal : Local session)
    (localHandler : ∀ fault, Local (handler fault))
    (first : Agrees before after between session)
    (handled : ∀ fault, Agrees between after between (handler fault)) :
    Agrees before after between (Session.guarded session handler) := by
  intro order another small large related
  rw [among_guarded isLocal localHandler, among_guarded isLocal localHandler]
  obtain ⟨value, one, other, isOne, isOther, related⟩ |
    ⟨fault, one, other, isOne, isOther, related⟩ :=
      first order another small large related
  · rw [isOne, isOther]
    exact .inl ⟨value, one, other, rfl, rfl, related⟩
  · rw [isOne, isOther]
    dsimp only
    split
    · exact .inr ⟨fault, one, other, rfl, rfl, related⟩
    · exact handled fault order another one other related

end Agrees

end Session

namespace FileTree

variable {language : Language}

variable {done : Value → Language → Prop} {first second small large : FileTree}
  {names : List String}

/-- Each place is as it was in both trees, or has become the same in both. -/
def Joint (first second small large : FileTree) : Prop :=
  ∀ names, (small.entry? names = first.entry? names ∧
    large.entry? names = second.entry? names) ∨
    large.entry? names = small.entry? names

theorem Joint.prepared
    (firstReady : first.prepared.Ready)
    (secondReady : second.prepared.Ready) :
    Joint first second first.prepared second.prepared := by
  intro names
  by_cases isShared : names ∈ sharedPlaces
  · exact .inr ((secondReady.entry?_shared isShared).trans
      (firstReady.entry?_shared isShared).symm)
  · exact .inl ⟨entry?_prepared_of_not_shared isShared,
      entry?_prepared_of_not_shared isShared⟩

theorem Joint.trans
    {third fourth : FileTree}
    (one : Joint first second small large)
    (two : Joint small large third fourth) :
    Joint first second third fourth := by
  intro names
  obtain ⟨smallSame, largeSame⟩ | isJoint := two names
  · rw [smallSame, largeSame]
    exact one names
  · exact .inr isJoint

/--
Two trees in which the same is being done: the larger one has grown from the
smaller one, and what has been done to them is the same.
-/
structure Along
    (done : Value → Language → Prop)
    (first second small large : FileTree) : Prop where
  ready : small.Ready
  grown : Grown done small large
  joint : Joint first second small large

/--
How an entry may have grown depends on the entry, the templates and what is
around.
-/
theorem Growth.congr
    {tree other : FileTree}
    {entry : Option Entry}
    (sameEntry : other.entry? names = tree.entry? names)
    (sameSource : ∀ language,
      other.credentialsSource language = tree.credentialsSource language)
    (around : tree.SameAround other)
    (growth : Growth done tree names entry) :
    Growth done other names entry := by
  cases growth with
  | same isSame =>
      exact .same (isSame.trans sameEntry.symm)
  | directory isDone isPlace wasMissing isMade =>
      exact .directory isDone isPlace (sameEntry.trans wasMissing) isMade
  | code isDone named isPlace notDirectory isWritten =>
      exact .code isDone named isPlace (sameEntry ▸ notDirectory) isWritten
  | credentials isDone isPlace wasMissing source unlocked isCopied =>
      refine .credentials isDone isPlace (sameEntry.trans wasMissing)
        ((sameSource _).trans source) (around.locked_eq ▸ unlocked) ?_
      rw [around.below_eq, around.arriving_eq, isCopied]

/--
An entry is set in the smaller tree, and has the same value in what becomes of
the larger one.
-/
theorem Along.set
    {other : FileTree}
    {entry : Entry}
    (along : Along done first second small large)
    (isPlace : Output.IsPlaceOf language names)
    (around : large.SameAround other)
    (entries : ∀ place, other.entry? place =
      if place = names then some entry else large.entry? place) :
    Along done first second (small.set names entry) other := by
  have isSet : ∀ place, entry? (small.set names entry) place =
      if place = names then some entry else small.entry? place :=
    fun place => entry?_set isPlace.ne_nil
  have kept : ∀ place, place ≠ names →
      entry? (small.set names entry) place = small.entry? place :=
    fun place isOther => by rw [isSet, if_neg isOther]
  have sameSource :
      ∀ language, (small.set names entry).credentialsSource language =
      small.credentialsSource language := by
    refine fun other => (credentialsSource_congr other (.set small names entry)
      fun rest => ?_).symm
    refine (kept _ ?_).symm
    rintro rfl
    exact absurd isPlace.head_eq (by decide)
  exact {
    ready := by
      refine ⟨?_, ?_⟩
      · rw [kept _ fun same => isPlace.not_shared (same ▸ by decide)]
        exact along.ready.output
      · rw [kept _ fun same => isPlace.not_shared (same ▸ by decide)]
        exact along.ready.credentials
    grown := by
      refine ⟨(along.grown.around.trans around).set_left names entry,
        fun place => ?_⟩
      rw [entries place]
      by_cases isHere : place = names
      · exact .same (by rw [isSet, if_pos isHere, if_pos isHere])
      · rw [if_neg isHere]
        exact (along.grown.entries place).congr (kept place isHere) sameSource
          (.set small names entry)
    joint := by
      intro place
      rw [entries place, isSet place]
      by_cases isHere : place = names
      · rw [if_pos isHere, if_pos isHere]
        exact .inr rfl
      · rw [if_neg isHere, if_neg isHere]
        exact along.joint place }

theorem Along.set_both
    (along : Along done first second small large)
    (isPlace : Output.IsPlaceOf language names)
    (entry : Entry) :
    Along done first second (small.set names entry) (large.set names entry) :=
  along.set isPlace (.set large names entry) fun _ => entry?_set isPlace.ne_nil

theorem Along.set_small
    {entry : Entry}
    (along : Along done first second small large)
    (isPlace : Output.IsPlaceOf language names)
    (isThere : large.entry? names = some entry) :
    Along done first second (small.set names entry) large := by
  refine along.set isPlace (.refl large) fun place => ?_
  split
  · rename_i isHere
    rw [isHere, isThere]
  · rfl

/--
Two trees in which the same is to be done, where missing credentials would
arrive whole.
-/
structure Ahead
    (done : Value → Language → Prop)
    (first second : FileTree)
    (language : Language)
    (small large : FileTree) : Prop where
  along : Along done first second small large
  whole : small.CopiesWhole language

/--
Two trees in which the same is being done, with the directory of a language in
both.
-/
structure Inside
    (done : Value → Language → Prop)
    (first second : FileTree)
    (language : Language)
    (small large : FileTree) : Prop where
  along : Along done first second small large
  small : small.entry? (Output.languagePlace language) = some .directory
  large : large.entry? (Output.languagePlace language) = some .directory

end FileTree

namespace Output

open FileTree

variable {done : Value → Language → Prop} {first second : FileTree}

/--
Credentials that the larger tree got before are now copied in the smaller one.
-/
theorem agrees_ensureCredentials
    (language : Language) :
    Agrees (Ahead done first second language) (Along done first second)
      (Along done first second) (standard.ensureCredentials language.code) := by
  rintro order another small large ⟨along, whole⟩
  have isPlace : IsPlaceOf language (credentialsPlace language) :=
    .inr (.inl rfl)
  have around := along.grown.around
  rw [among_ensureCredentials along.ready,
    among_ensureCredentials (along.grown.ready along.ready),
    along.grown.credentialsSource_eq,
    around.locked_eq, around.setback?_eq, around.below_eq]
  cases along.grown.entries (credentialsPlace language) with
  | same isSame =>
      rw [isSame]
      split
      · exact .inl ⟨true, small, large, rfl, rfl, along⟩
      · split
        · exact .inr ⟨_, small, large, rfl, rfl, along⟩
        · exact .inl ⟨false, small, large, rfl, rfl, along⟩
        · rename_i source _
          split
          · exact .inr ⟨_, small, large, rfl, rfl, along⟩
          · rw [around.arriving_eq]
            have left := along.set_both isPlace
              (.file (small.arriving (small.below (credentialsPlace language))
                source.2))
            cases small.setback? (small.below (credentialsPlace language)) with
            | some setback =>
                exact .inr ⟨_, _, _, rfl, rfl, left⟩
            | none =>
                exact .inl ⟨true, _, _, rfl, rfl, left⟩
  | directory _ isOther _ _ =>
      simp [credentialsPlace, languagePlace] at isOther
  | code _ _ isOther _ _ =>
      exact absurd isOther.symm (codePlace_ne_credentialsPlace _ _ _)
  | credentials _ isSame wasMissing source unlocked isCopied =>
      obtain rfl := credentialsPlace_inj isSame
      rw [wasMissing, source, unlocked, isCopied,
        whole _ wasMissing source unlocked]
      exact .inl ⟨true, _, large, rfl, rfl, along.set_small isPlace isCopied⟩

/--
A directory that the larger tree got before is now made in the smaller one.
-/
theorem agrees_languageDirectory
    (language : Language) :
    Agrees (Along done first second) (Inside done first second language)
      (Along done first second)
      (Session.makeDirectory (standard.base.join language.code)) := by
  intro order another small large along
  have isPlace : IsPlaceOf language (languagePlace language) := .inl rfl
  have isSet :
      ∀ tree : FileTree, entry? (tree.set (languagePlace language) .directory)
      (languagePlace language) = some .directory := by
    intro tree
    rw [entry?_set isPlace.ne_nil, if_pos rfl]
  rw [among_languageDirectory along.ready,
    among_languageDirectory (along.grown.ready along.ready)]
  cases along.grown.entries (languagePlace language) with
  | same isSame =>
      rw [isSame]
      split
      · rename_i isDirectory
        exact .inl ⟨(), small, large, rfl, rfl, along, isDirectory,
          isSame.trans isDirectory⟩
      · exact .inr ⟨_, small, large, rfl, rfl, along⟩
      · exact .inl ⟨(), _, _, rfl, rfl, along.set_both isPlace _, isSet small,
          isSet large⟩
  | directory _ _ wasMissing isMade =>
      rw [wasMissing, isMade]
      exact .inl ⟨(), _, large, rfl, rfl, along.set_small isPlace isMade,
        isSet small, isMade⟩
  | code _ _ isOther _ _ =>
      simp [languagePlace, codePlace] at isOther
  | credentials _ isOther _ _ _ _ =>
      simp [languagePlace, credentialsPlace] at isOther

theorem agrees_workflowFile
    (workflow : Value)
    (language : Language) :
    Agrees (Along done first second) (Inside done first second language)
      (Along done first second)
      (standard.workflowFile workflow language.code) := by
  unfold workflowFile languageDirectory
  refine .bind (.bind (.makeDirectory _) fun _ => .pure _)
    (fun _ => .bind (.lift _) fun _ => .bind (.lift _) fun _ => .pure _)
    (.bind (.makeDirectory _) (fun _ => .pure _)
      (agrees_languageDirectory language) fun _ _ _ _ _ => .pure _)
    fun _ _ _ _ _ => ?_
  refine .bind (.lift _) (fun _ => .bind (.lift _) fun _ => .pure _)
    (.lift _ fun _ _ inside => inside.along) fun _ _ _ _ _ => ?_
  exact .bind (.lift _) (fun _ => .pure _)
    (.lift _ fun _ _ inside => inside.along) fun _ _ _ _ _ => .pure _

theorem agrees_writeFile
    (language : Language)
    (text : String)
    (content : Content) :
    Agrees (Inside done first second language) (Along done first second)
      (Along done first second)
      (Session.writeFile ⟨"", codePlace language text⟩ content) := by
  intro order another small large inside
  have around := inside.along.grown.around
  have isPlace : IsPlaceOf language (codePlace language text) :=
    .inr (.inr ⟨text, rfl⟩)
  have ready := inside.along.ready
  have located : large.locate ⟨"", codePlace language text⟩ =
      small.locate ⟨"", codePlace language text⟩ := by
    refine (locate_congr around rfl (up_not_mem_codePlace language text)
      fun front isFront => ?_).symm
    have isFront : front <+: ["output", language.code] := isFront
    rcases List.prefix_cons_iff.mp isFront with rfl | ⟨rest, rfl, isRest⟩
    · rfl
    · rcases List.prefix_cons_iff.mp isRest with rfl | ⟨last, rfl, isLast⟩
      · exact ready.output.trans (inside.along.grown.ready ready).output.symm
      · obtain rfl := List.prefix_nil.mp isLast
        exact inside.small.trans inside.large.symm
  rw [among_writeFile, among_writeFile]
  -- What the write needs to know of the place is the same in both trees.
  have sameKind : large.entry? (codePlace language text) = some .directory ↔
      small.entry? (codePlace language text) = some .directory := by
    cases inside.along.grown.entries (codePlace language text) with
    | same isSame =>
        rw [isSame]
    | directory _ isOther _ _ =>
        simp [languagePlace, codePlace] at isOther
    | code _ _ _ notDirectory isWritten =>
        simp [notDirectory, isWritten]
    | credentials _ isOther _ _ _ _ =>
        exact absurd isOther (codePlace_ne_credentialsPlace _ _ _)
  cases reached : small.locate ⟨"", codePlace language text⟩ with
  | error fault =>
      rw [FileTree.write, FileTree.write, located, reached]
      exact .inr ⟨fault, small, large, rfl, rfl, inside.along⟩
  | ok place =>
      obtain rfl := eq_codePlace_of_locate reached
      have alsoReached : large.locate ⟨"", codePlace language text⟩ =
          .ok (large.below (codePlace language text)) := by
        rw [located, reached, around.below_eq]
      rw [write_of_locate reached, write_of_locate alsoReached,
        around.locked_eq,
        FileTree.deviceFault?, FileTree.deviceFault?, reached, alsoReached,
        around.below_eq, around.arriving_eq]
      by_cases isLocked : small.locked.contains (codePlace language text) = true
      · rw [if_pos isLocked, if_pos isLocked]
        exact .inr ⟨_, small, large, rfl, rfl, inside.along⟩
      · rw [if_neg isLocked, if_neg isLocked]
        by_cases isDirectory :
          small.entry? (codePlace language text) = some .directory
        · rw [if_pos isDirectory, if_pos (sameKind.mpr isDirectory)]
          exact .inr ⟨_, small, large, rfl, rfl, inside.along⟩
        · rw [if_neg isDirectory, if_neg (mt sameKind.mp isDirectory)]
          dsimp only
          rw [around.setback?_eq]
          have left := inside.along.set_both isPlace
            (.file (small.arriving (small.below (codePlace language text))
              content))
          cases (small.setback? (small.below (codePlace language text))).map
            Setback.cause with
          | some cause =>
              exact .inr ⟨_, _, _, rfl, rfl, left⟩
          | none =>
              exact .inl ⟨(), _, _, rfl, rfl, left⟩

end Output

namespace Class.Generator

open FileTree

theorem agrees_save
    {done : Value → Language → Prop}
    {first second : FileTree}
    (store : Template.Store)
    (language : Language)
    (workflow : Value)
    (code : String) :
    Agrees (Ahead done first second language) (Along done first second)
      (Along done first second)
      (save ⟨store, language.code, .standard⟩ workflow (.text code)) := by
  refine .guarded (local_storing _ workflow code)
    (fun fault => .bind (.print _) fun _ => .pure _) ?_ fun fault =>
    .bind (.print _) (fun _ => .pure _) (.print _) fun _ _ _ _ _ => .pure _
  refine .bind (Output.local_ensureCredentials _ _)
    (fun _ => .bind (Output.local_workflowFile _ _ _) fun _ =>
      .bind (.writeFile _ _) fun _ => .reports (reports_saved _))
    (Output.agrees_ensureCredentials language) fun _ _ _ _ _ => ?_
  refine .bind (Output.local_workflowFile _ _ _)
    (fun _ => .bind (.writeFile _ _) fun _ => .reports (reports_saved _))
    (Output.agrees_workflowFile workflow language)
    fun _ tree path after found => ?_
  obtain ⟨text, named, rfl⟩ := Output.eq_codePlace_of_workflowFile found
  exact .bind (.writeFile _ _) (fun _ => .reports (reports_saved _))
    (Output.agrees_writeFile language text _) fun _ _ _ _ _ =>
      .bind (.print _) (fun _ => .pure _) (.print _) fun _ _ _ _ _ => .pure _

/--
What comes of filling a class template with the methods of nodes in an order.
-/
def filled
    (generator : Generator)
    (template : String)
    (workflow : Value)
    (inOrder : List Value)
    (order : SetOrder)
    (files : FileTree) :
    Except Fault String := do
  let names ← Parameters.ofClass order workflow
  let methods ← ((generator.methods inOrder).among order files).1
  let code ← constructor generator.language (parameterFields names)
  let imports ← imports generator.language workflow
  let className ← Naming.className workflow
  let name ← workflow.get "name" (.text "Workflow sem nome")
  let workflowName ← name.textAs .replacement
  return Template.fill template
    (classSlots generator.language className workflowName
    methods.1 methods.2 code imports)

theorem among_fillClass
    {generator : Generator}
    {order : SetOrder}
    {files : FileTree}
    {workflow nodes : Value}
    {inOrder : List Value}
    (template : String)
    (areInOrder : ExecutionOrder.ordered nodes = .ok inOrder) :
    ((generator.fillClass template workflow nodes).among order files).1 =
      generator.filled template workflow inOrder order files := by
  have reportsRest :
      ∀ (names : List String) (methods : List String × List String), Reports (do
      let code ← liftM (constructor generator.language (parameterFields names))
      let imports ← liftM (imports generator.language workflow)
      let className ← liftM (Naming.className workflow)
      let name ← liftM (workflow.get "name" (.text "Workflow sem nome"))
      let workflowName ← liftM (name.textAs .replacement)
      return Template.fill template
        (classSlots generator.language className workflowName
        methods.1 methods.2 code imports) : Session String) :=
    fun names methods => .bind (.lift _) fun _ => .bind (.lift _) fun _ =>
      .bind (.lift _) fun _ =>
      .bind (.lift _) fun _ => .bind (.lift _) fun _ => .pure _
  unfold fillClass filled
  rw [among_setOrder_bind, among_lift_bind_fst]
  refine bind_congr fun names => ?_
  rw [among_lift_bind_fst, areInOrder]
  refine ((reports_methods generator inOrder).among_bind_fst (reportsRest names)
    order files).trans ?_
  simp only [among_lift_bind_fst, among_pure]
  rfl

/--
A class is generated by filling the template that is found for it, if there
are nodes.
-/
theorem among_generate
    {generator : Generator}
    {order : SetOrder}
    {files : FileTree}
    {workflow nodes : Value}
    {inOrder : List Value}
    {template : String}
    (isLoaded : ((generator.store.loadClass (.text generator.language)).among
      order files).1 = .ok (some template))
    (notEmpty : template ≠ "")
    (areNodes : workflow.get "nodes" (.list []) = .ok nodes)
    (isTruthy : nodes.isTruthy = true)
    (areInOrder : ExecutionOrder.ordered nodes = .ok inOrder) :
    ((generator.generate workflow).among order files).1 =
      (generator.filled template workflow inOrder order files).map some := by
  rw [← among_fillClass template areInOrder]
  obtain ⟨outcome, printed, reported⟩ :=
    reports_loadClass generator.store (.text generator.language) order
  rw [among, reported _ rfl] at isLoaded
  dsimp only at isLoaded
  unfold generate
  rw [among, start_bind, reported _ rfl, isLoaded]
  dsimp only
  split
  · rename_i isNone
    cases isNone
  · rename_i isEmpty
    exact absurd (Option.some.inj isEmpty) notEmpty
  · rename_i isTemplate
    rw [Option.some.injEq] at isTemplate
    subst isTemplate
    rw [start_bind, start_lift, areNodes]
    dsimp only
    obtain ⟨filled, _, isFilled⟩ :=
      reports_fillClass generator template workflow nodes order
    rw [if_pos isTruthy, map_eq_pure_bind, start_bind, among, isFilled _ rfl,
      isFilled _ rfl]
    cases filled files <;> rfl

end Class.Generator

namespace Program

open FileTree Flowgen.Class

variable {language : Language} {workflow : Value}
  {done : Value → Language → Prop} {tree after : FileTree} {order : SetOrder}

theorem saved_some
    {generator : Generator}
    {code : String}
    (notEmpty : code = "" → False) :
    saved generator workflow (some code) = some <$>
      generator.save workflow (.text code) := by
  unfold saved
  split
  · rename_i isNone
    cases isNone
  · rename_i isEmpty
    exact (notEmpty (Option.some.inj isEmpty)).elim
  · rename_i other _ isCode
    rw [Option.some.inj isCode]

/-- The generator that the program uses for a language. -/
abbrev generatorFor (language : Language) : Generator :=
  .standard language .standard

theorem local_saved
    (generator : Generator)
    (workflow : Value)
    (generated : Option String) :
    Local (saved generator workflow generated) := by
  unfold saved
  split
  · exact .pure _
  · exact .pure _
  · rw [map_eq_pure_bind]
    exact .bind (Generator.local_save _ _ _) fun _ => .pure _

theorem local_make
    (language : String) :
    Local (Generator.make .standard language) :=
  .bind (.bind (.makeDirectory _) fun _ => .bind (.makeDirectory _) fun _ =>
    .pure _) fun _ =>
    .pure _

theorem local_converted
    (workflow : Value)
    (language : Language) :
    Local (converted workflow language) :=
  .bind (local_make _) fun generator =>
    .bind (.reports (Generator.reports_generate _ _)) fun generated =>
    local_saved generator workflow generated

/-- A conversion prepares the tree, and then saves what is generated there. -/
theorem converted_cases
    (workflow : Value)
    (language : Language)
    (order : SetOrder)
    (tree : FileTree) :
    (tree.prepared.Ready ∧ (converted workflow language).among order tree =
        match (((generatorFor language).generate workflow).among order
          tree.prepared).1 with
        | .error fault => (.error fault, tree.prepared)
        | .ok generated =>
            (saved (generatorFor language) workflow generated).among order
              tree.prepared) ∨
      ∃ fault after, (converted workflow language).among order tree =
        (.error fault, after) ∧
        ¬ tree.prepared.Ready ∧ after.prepared = tree.prepared := by
  have reports := Generator.reports_generate (generatorFor language) workflow
  unfold converted
  rw [among_bind (local_make _) fun generator =>
    .bind (.reports (Generator.reports_generate _ _)) fun generated =>
      local_saved generator workflow generated]
  obtain ⟨ready, made⟩ | ⟨fault, after, failed, notReady, same⟩ :=
    Generator.make_cases .standard language.code order tree
  · have made : (Generator.make .standard language.code).among order tree =
        (.ok (generatorFor language), tree.prepared) :=
      made
    refine .inl ⟨ready, ?_⟩
    rw [made]
    dsimp only
    rw [among_bind (.reports reports) fun generated =>
      local_saved _ workflow generated]
    have same := reports.among_files order tree.prepared
    rcases ended : ((generatorFor language).generate workflow).among order
      tree.prepared with ⟨fault | generated, between⟩
    all_goals
      rw [ended] at same
      dsimp only at same ⊢
      rw [same]
  · rw [failed]
    exact .inr ⟨fault, after, rfl, notReady, same⟩

theorem grows_saved
    (workflow : Value)
    (language : Language)
    (generated : Option String) :
    Grows (fun other its => other = workflow ∧ its = language)
      (saved (generatorFor language) workflow generated) := by
  unfold saved
  split
  · exact .reports (.pure _)
  · exact .reports (.pure _)
  · rw [map_eq_pure_bind]
    exact .bind (Generator.local_save _ _ _) (fun _ => .pure _)
      (Generator.grows_save ⟨rfl, rfl⟩ _ _) fun _ _ _ _ _ => .reports (.pure _)

/--
What a conversion does to a tree, whatever comes of it, is that the tree has
grown.
-/
theorem grown_converted
    (workflow : Value)
    (language : Language)
    (order : SetOrder)
    (tree : FileTree) :
    Grown (fun other its => other = workflow ∧ its = language) tree.prepared
      ((converted workflow language).among order tree).2.prepared := by
  obtain ⟨ready, ended⟩ | ⟨fault, after, ended, _, same⟩ :=
    converted_cases workflow language order tree
  · rw [ended]
    cases (((generatorFor language).generate workflow).among order
      tree.prepared).1 with
    | error fault =>
        dsimp only
        rw [ready.prepared_eq]
        exact .refl _ _
    | ok generated =>
        have grown :=
          grows_saved workflow language generated order tree.prepared ready
        dsimp only
        rwa [(grown.ready ready).prepared_eq]
  · rw [ended, same]
    exact .refl _ _

/--
A workflow is converted in a tree that can be prepared, by saving what is
generated there.
-/
theorem converted_eq_ok
    {result : Option Bool} :
    (converted workflow language).among order tree = (.ok result, after) ↔
      tree.prepared.Ready ∧ ∃ generated,
        (((generatorFor language).generate workflow).among order
          tree.prepared).1 = .ok generated ∧
        (saved (generatorFor language) workflow generated).among order
          tree.prepared = (.ok result, after) := by
  obtain ⟨ready, ended⟩ | ⟨fault, stopped, ended, notReady, _⟩ :=
    converted_cases workflow language order tree
  · rw [ended]
    cases (((generatorFor language).generate workflow).among order
      tree.prepared).1 with
    | error fault =>
        simp
    | ok generated =>
        simp [ready]
  · rw [ended]
    simp [notReady]

/--
A workflow is converted by filling its template and saving the code, each by
itself.
-/
theorem converted_of_filled
    {workflow nodes : Value}
    {inOrder : List Value}
    {template code : String}
    {result : Bool}
    (ready : tree.prepared.Ready)
    (isLoaded : ((Template.Store.standard.loadClass (.text language.code)).among
      order tree.prepared).1 = .ok (some template))
    (notEmpty : template ≠ "")
    (areNodes : workflow.get "nodes" (.list []) = .ok nodes)
    (isTruthy : nodes.isTruthy = true)
    (areInOrder : ExecutionOrder.ordered nodes = .ok inOrder)
    (isFilled : (generatorFor language).filled template workflow inOrder order
      tree.prepared = .ok code)
    (hasCode : code ≠ "")
    (isSaved : ((generatorFor language).save workflow (.text code)).among order
      tree.prepared = (.ok result, after)) :
    (converted workflow language).among order tree =
      (.ok (some result), after) := by
  have generated := @Generator.among_generate (generatorFor language) _ _ _ _ _
    _ isLoaded notEmpty areNodes isTruthy areInOrder
  rw [isFilled] at generated
  refine converted_eq_ok.mpr ⟨ready, some code, generated, ?_⟩
  rw [saved_some hasCode, map_eq_pure_bind,
    among_bind (Generator.local_save _ _ _) fun _ => .pure _, isSaved]
  rfl

theorem ready_of_converted
    {result : Option Bool}
    (ended : (converted workflow language).among order tree =
      (.ok result, after)) :
    after.Ready := by
  obtain ⟨ready, generated, isGenerated, isSaved⟩ := converted_eq_ok.mp ended
  have grown :=
    grows_saved workflow language generated order tree.prepared ready
  rw [isSaved] at grown
  exact grown.ready ready

/--
The templates for a workflow are not looked for through directories that are
yet to be made.
-/
def StaysOut
    (tree : FileTree)
    (languages : List Language)
    (workflow : Value)
    (language : Language) : Prop :=
  ∀ file ∈ (generatorFor language).templateFiles workflow,
    tree.turnsBack (tree.newLanguages languages) (tree.rootPlace file.root)
      file.parts = false

/-- The class that a workflow has after others are converted it has alone. -/
theorem backs_generated
    {languages : List Language}
    {one other : SetOrder}
    {base tree : FileTree}
    (inLanguages : ∀ workflow language, done workflow language →
      language ∈ languages)
    (sound : base.Sound)
    (staysOut : StaysOut base languages workflow language)
    (ready : base.prepared.Ready)
    (grown : Grown done base.prepared tree.prepared)
    (same : Parameters.ofClass other workflow =
      Parameters.ofClass one workflow) :
    Backs one other base.prepared tree.prepared
      ((generatorFor language).generate workflow) := by
  refine Generator.backs_generate (grown.extends_newLanguages inLanguages)
    (sound.prepared ready) same ?_
  rw [newLanguages_prepared]
  refine List.forall_mem_cons.mpr
    ⟨turnsBack_of_noUp _ _ _ ?_, fun file isOne => ?_⟩
  · cases language <;> decide
  · rw [base.sameAround_prepared.turnsBack_eq,
      base.sameAround_prepared.rootPlace_eq]
    exact staysOut file isOne

theorem agrees_saved
    {first second : FileTree}
    (workflow : Value)
    (language : Language)
    (generated : Option String) :
    Agrees (Ahead done first second language) (Along done first second)
      (Along done first second)
        (saved (generatorFor language) workflow generated) := by
  unfold saved
  split
  · exact fun _ _ small large ahead =>
      .inl ⟨none, small, large, rfl, rfl, ahead.along⟩
  · exact fun _ _ small large ahead =>
      .inl ⟨none, small, large, rfl, rfl, ahead.along⟩
  · rw [map_eq_pure_bind]
    exact .bind (Generator.local_save _ _ _) (fun _ => .pure _)
      (Generator.agrees_save _ language workflow _) fun _ _ _ _ _ => .pure _

/--
A workflow that can be converted after others can be converted alone.  What
comes of it is the same, and so is what it changes.
-/
theorem converted_of_grown
    {languages : List Language}
    {one other : SetOrder}
    {base tree after : FileTree}
    {result : Option Bool}
    (inLanguages : ∀ workflow language, done workflow language →
      language ∈ languages)
    (sound : base.Sound)
    (staysOut : StaysOut base languages workflow language)
    (whole : base.prepared.CopiesWhole language)
    (same : Parameters.ofClass other workflow = Parameters.ofClass one workflow)
    (grown : Grown done base.prepared tree.prepared)
    (ended : (converted workflow language).among other tree =
      (.ok result, after)) :
    ∃ alone, (converted workflow language).among one base =
      (.ok result, alone) ∧ Joint base tree alone after := by
  obtain ⟨largeReady, generated, isGenerated, isSaved⟩ :=
    converted_eq_ok.mp ended
  have ready : base.prepared.Ready := grown.ready_iff.mp largeReady
  have alsoGenerated :=
    backs_generated inLanguages sound staysOut ready grown same generated
      isGenerated
  have ahead : Ahead done base.prepared tree.prepared language base.prepared
      tree.prepared :=
    ⟨⟨ready, grown, fun _ => .inl ⟨rfl, rfl⟩⟩, whole⟩
  obtain ⟨value, left, right, isLeft, isRight, along⟩ | ⟨fault, _, right, _,
    isRight, _⟩ :=
    agrees_saved workflow language generated one other _ _ ahead
  · rw [isSaved, Prod.mk.injEq, Except.ok.injEq] at isRight
    obtain ⟨rfl, rfl⟩ := isRight
    exact ⟨left, converted_eq_ok.mpr ⟨ready, generated, alsoGenerated, isLeft⟩,
      (Joint.prepared ready largeReady).trans along.joint⟩
  · rw [isSaved] at isRight
    cases isRight

end Program

end Flowgen
