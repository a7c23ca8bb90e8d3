import Flowgen.Proofs.TemplateLookups

namespace Flowgen

/-!
# How the output directory grows

Converting workflows makes the output directory and the directories of
languages, copies credentials that are missing from their templates, and
writes code.  A tree that has grown in this way holds the same as before at
all other places, and credentials that came to it are those that would come to
the smaller tree.
-/

namespace FileTree

variable {tree other small large : FileTree} {path : Path} {names : List String}

/-- Names without a way up are followed alike along the same directories. -/
theorem follow_congr
    {start : List String}
    (around : tree.SameAround other)
    (noUp : ".." ∉ names)
    (same : ∀ front, front <+: names.dropLast →
      tree.entry? (start ++ front) = other.entry? (start ++ front)) :
    tree.follow (tree.below start) names =
      other.follow (tree.below start) names := by
  induction names generalizing start with
  | nil =>
      rfl
  | cons name names inductionHypothesis =>
      obtain ⟨notUp, restNoUp⟩ := not_or.mp (List.mem_cons.not.mp noUp)
      have here : tree.entryAt? (tree.below start) =
          other.entryAt? (tree.below start) := by
        rw [entryAt?_below, ← around.below_eq, entryAt?_below]
        simpa using same [] List.nil_prefix
      have rest : tree.follow (tree.below (start ++ [name])) names =
          other.follow (tree.below (start ++ [name])) names := by
        cases names with
        | nil =>
            rfl
        | cons next names =>
            refine inductionHypothesis restNoUp fun front isFront => ?_
            rw [List.append_assoc, List.singleton_append]
            exact same (name :: front)
              (List.cons_prefix_cons.mpr ⟨rfl, isFront⟩)
      rw [follow, follow, directoryFault?, directoryFault?, here,
        child_below (Ne.symm notUp), rest]

theorem locate_congr
    (around : tree.SameAround other)
    (fromHere : path.root = "")
    (noUp : ".." ∉ path.parts)
    (same : ∀ front, front <+: path.parts.dropLast →
      tree.entry? front = other.entry? front) :
    tree.locate path = other.locate path := by
  have isTop : tree.rootPlace path.root = tree.below [] := by
    rw [rootPlace, if_pos fromHere, below_nil]
  rw [locate, locate, around.rootPlace_eq, isTop,
    @follow_congr tree other path.parts [] around noUp same]

theorem find_congr
    (around : tree.SameAround other)
    (noUp : ".." ∉ names)
    (same : ∀ front, front <+: names → tree.entry? front = other.entry? front) :
    tree.find ⟨"", names⟩ = other.find ⟨"", names⟩ := by
  have located : tree.locate ⟨"", names⟩ = other.locate ⟨"", names⟩ :=
    locate_congr around rfl noUp fun front isFront =>
      same front (isFront.trans (List.dropLast_prefix _))
  rw [find, find, ← located]
  cases reached : tree.locate ⟨"", names⟩ with
  | error fault =>
      rfl
  | ok place =>
      obtain rfl := eq_below_of_locate noUp reached
      have sameEntry :
          other.entryAt? (tree.below names) = tree.entry? names := by
        rw [← around.below_eq, entryAt?_below, same _ (List.prefix_refl _)]
      simp only [bind, Except.bind, entryAt?_below, sameEntry]

theorem makeDirectory_of_locate
    (located : tree.locate path = .ok (tree.below names)) :
    tree.makeDirectory path =
      match tree.entry? names with
      | some .directory => .ok tree
      | some (.file _) => .error (.file .taken path.text)
      | none => .ok (tree.set names .directory) := by
  rw [makeDirectory, located]
  cases isEntry : tree.entry? names with
  | none =>
      simp only [bind, Except.bind, entryAt?_below, isEntry, admits,
        setAt_below, namesTo?_below, Option.isSome_some, Bool.true_or, if_true]
  | some entry =>
      cases entry <;> simp only [bind, Except.bind, entryAt?_below, isEntry]

theorem write_of_locate
    {content : Content}
    (located : tree.locate path = .ok (tree.below names)) :
    tree.write path content =
      if tree.locked.contains names then .error (.file .denied path.text)
      else if tree.entry? names =
        some .directory then .error (.file .isDirectory path.text)
      else .ok (tree.set names
        (.file (tree.arriving (tree.below names) content))) := by
  rw [write, located]
  simp only [bind, Except.bind, refuses, namesTo?_below, entryAt?_below,
    setAt_below]
  split
  · rfl
  · split
    · rename_i isDirectory
      rw [if_pos isDirectory]
    · rename_i notDirectory
      rw [if_neg notDirectory]

/-- A tree with a directory at a place, unless something is there. -/
def withDirectory (tree : FileTree) (names : List String) : FileTree :=
  if (tree.entry? names).isSome then tree else tree.set names .directory

/-- Making a directory fails only where a file is. -/
theorem makeDirectory_cases
    (located : tree.locate path = .ok (tree.below names)) :
    (∃ content fault, tree.entry? names = some (.file content) ∧
        tree.makeDirectory path = .error fault) ∨
      FileTree.entry? (tree.withDirectory names) names = some .directory ∧
        tree.makeDirectory path = .ok (tree.withDirectory names) := by
  rw [makeDirectory_of_locate located, withDirectory]
  cases isEntry : tree.entry? names with
  | none =>
      have notNil := @ne_nil_of_not_directory tree names (by simp [isEntry])
      exact .inr ⟨by simp [entry?_set notNil], rfl⟩
  | some entry =>
      cases entry with
      | directory =>
          exact .inr ⟨isEntry, rfl⟩
      | file content =>
          exact .inl ⟨content, _, rfl, rfl⟩

/-- A tree with the directories that every conversion makes. -/
def prepared (tree : FileTree) : FileTree :=
  (tree.withDirectory ["output"]).withDirectory ["output", "credentials"]

/-- A tree that has the directories that every conversion makes. -/
structure Ready (tree : FileTree) : Prop where
  output : tree.entry? ["output"] = some .directory
  credentials : tree.entry? ["output", "credentials"] = some .directory

/-- The places of the directories that every conversion makes. -/
def sharedPlaces : List (List String) :=
  [["output"], ["output", "credentials"]]

theorem Ready.entry?_shared
    (ready : tree.Ready)
    (isShared : names ∈ sharedPlaces) :
    tree.entry? names = some .directory := by
  simp only [sharedPlaces, List.mem_cons, List.not_mem_nil, or_false]
    at isShared
  rcases isShared with rfl | rfl
  · exact ready.output
  · exact ready.credentials

/-- Preparing a tree makes the shared directories where nothing is. -/
theorem entry?_prepared
    (tree : FileTree)
    (names : List String) :
    tree.prepared.entry? names =
      if names ∈ sharedPlaces ∧ tree.entry? names = none then some .directory
      else tree.entry? names := by
  unfold prepared withDirectory
  rw [entry?_withDirectory (by simp), entry?_withDirectory (by simp),
    entry?_withDirectory (by simp)]
  by_cases isOutput : names = ["output"]
  · subst isOutput
    simp [sharedPlaces]
  · by_cases isCredentials : names = ["output", "credentials"]
    · subst isCredentials
      simp [sharedPlaces]
    · simp [sharedPlaces, isOutput, isCredentials]

theorem entry?_prepared_of_not_shared
    (notShared : names ∉ sharedPlaces) :
    tree.prepared.entry? names = tree.entry? names := by
  rw [entry?_prepared, if_neg fun isShared => notShared isShared.1]

theorem entry?_prepared_of_some
    {entry : Entry}
    (isThere : tree.entry? names = some entry) :
    tree.prepared.entry? names = some entry := by
  rw [entry?_prepared, if_neg (by simp [isThere]), isThere]

theorem sameAround_prepared
    (tree : FileTree) :
    tree.SameAround tree.prepared := by
  unfold prepared withDirectory
  split <;> split <;> rfl

/--
What is at a place is there after the directories for output are made, or is
one.
-/
theorem entryAt?_prepared_cases
    (tree : FileTree)
    (place : Place) :
    tree.prepared.entryAt? place = tree.entryAt? place ∨
      ∃ names ∈ sharedPlaces, place = tree.below names ∧
        tree.prepared.entryAt? place = some .directory := by
  cases leads : tree.namesTo? place with
  | none =>
      left
      rw [entryAt?, entryAt?, tree.sameAround_prepared.namesTo?_eq, leads]
      exact tree.sameAround_prepared.outer?_eq place
  | some names =>
      obtain rfl := namesTo?_eq_some.mp leads
      rw [← tree.sameAround_prepared.below_eq, entryAt?_below, entry?_prepared,
        tree.sameAround_prepared.below_eq, entryAt?_below]
      split
      · rename_i isNew
        exact .inr ⟨names, isNew.1, rfl, rfl⟩
      · exact .inl rfl

theorem Ready.prepared_eq
    (ready : tree.Ready) :
    tree.prepared = tree := by
  simp [prepared, withDirectory, ready.output, ready.credentials]

/-- Preparing a sound tree leaves it sound, if it makes it ready. -/
theorem Sound.prepared
    (sound : tree.Sound)
    (ready : tree.prepared.Ready) :
    tree.prepared.Sound := by
  intro names name isThere
  by_cases isShared : names ++ [name] ∈ sharedPlaces
  · have namesAre : names = [] ∨ names = ["output"] := by
      simp only [sharedPlaces, List.mem_cons, List.not_mem_nil, or_false]
        at isShared
      rcases isShared with isOutput | isCredentials
      · exact .inl (List.append_singleton_inj.mp
          (show names ++ [name] = [] ++ ["output"] from isOutput)).1
      · exact .inr (List.append_singleton_inj.mp
          (show names ++ [name] =
            ["output"] ++ ["credentials"] from isCredentials)).1
    rcases namesAre with rfl | rfl
    · rfl
    · exact ready.output
  · rw [entry?_prepared_of_not_shared isShared] at isThere
    have isDirectory := sound names name isThere
    rw [entry?_prepared, isDirectory]
    simp

/-- A template with its content, if it is there. -/
def templateContent
    (tree : FileTree)
    (template : Path) :
    Except Fault (Option (Path × Content)) :=
  tree.has template >>= fun isThere =>
    if isThere then (fun content => some (template, content)) <$>
      tree.read template
    else pure none

/-- What missing credentials for a language are copied from. -/
def credentialsSource
    (tree : FileTree)
    (language : Language) :
    Except Fault (Option (Path × Content)) :=
  tree.templateContent (Output.credentialsTemplate
    (Output.credentialsName language.code)) >>= fun found =>
      match found with
      | some source => pure (some source)
      | none =>
          if language.code = "php" then pure none
          else tree.templateContent
            (Output.credentialsTemplate "Credentials.php")

/-- The source of credentials depends on the templates alone. -/
theorem credentialsSource_congr
    (language : Language)
    (around : tree.SameAround other)
    (same : ∀ rest, tree.entry? ("templates" :: rest) =
      other.entry? ("templates" :: rest)) :
    tree.credentialsSource language = other.credentialsSource language := by
  have templates : ∀ name,
      Output.credentialsTemplate name =
        ⟨"", ["templates", "credentials", name]⟩ →
      ".." ≠ name →
      tree.templateContent (Output.credentialsTemplate name) =
        other.templateContent (Output.credentialsTemplate name) := by
    intro name pathIs notUp
    have found : tree.find (Output.credentialsTemplate name) =
        other.find (Output.credentialsTemplate name) := by
      rw [pathIs]
      refine find_congr around (by simpa using notUp) fun front isFront => ?_
      cases front with
      | nil =>
          rfl
      | cons first rest =>
          rw [(List.cons_prefix_cons.mp isFront).1]
          exact same rest
    rw [templateContent, templateContent, has, has, read, read, found]
  unfold credentialsSource
  rw [templates _ (by cases language <;> decide) (by cases language <;> decide),
    templates "Credentials.php" (by decide) (by decide)]

/-- Credentials for a language that are missing would arrive whole. -/
def CopiesWhole (tree : FileTree) (language : Language) : Prop :=
  ∀ source, tree.entry? (Output.credentialsPlace language) = none →
    tree.credentialsSource language = .ok (some source) →
    tree.locked.contains (Output.credentialsPlace language) = false →
    tree.setback? (tree.below (Output.credentialsPlace language)) = none

/-- Preparing a tree leaves the templates and what is around as they are. -/
theorem CopiesWhole.prepared
    {language : Language}
    (whole : tree.CopiesWhole language) :
    tree.prepared.CopiesWhole language := by
  have around := tree.sameAround_prepared
  have notShared : Output.credentialsPlace language ∉ sharedPlaces := by
    cases language <;> decide
  have sameSource : tree.credentialsSource language =
      tree.prepared.credentialsSource language :=
    credentialsSource_congr language around fun rest =>
      (entry?_prepared_of_not_shared (by simp [sharedPlaces])).symm
  intro source missing isSource unlocked
  rw [entry?_prepared_of_not_shared notShared] at missing
  rw [around.locked_eq] at unlocked
  rw [around.setback?_eq, around.below_eq]
  exact whole source missing (sameSource.trans isSource) unlocked

end FileTree

/-- The directories for output do not hide the templates. -/
theorem Template.Equipped.prepared
    {tree : FileTree}
    (equipped : Equipped tree) :
    Equipped tree.prepared where
  shipped file member :=
    FileTree.entry?_prepared_of_some (equipped.shipped file member)
  directories file member place isFront :=
    FileTree.entry?_prepared_of_some
      (equipped.directories file member place isFront)
  noOthers place name content isThere isXml := by
    simp only [tree.sameAround_prepared.below_eq]
    obtain same | ⟨_, _, _, isDirectory⟩ :=
      tree.entryAt?_prepared_cases (place ++ [name])
    · exact equipped.noOthers place name content (same ▸ isThere) isXml
    · cases isThere.symm.trans isDirectory
  plainNames place name isThere := by
    obtain same | ⟨names, isShared, isPlace, _⟩ :=
      tree.entryAt?_prepared_cases (place ++ [name])
    · exact equipped.plainNames place name (same ▸ isThere)
    · have plain :
          ∀ names ∈ FileTree.sharedPlaces, names ≠ [] ∧ ∀ name ∈ names.getLast?,
          '{' ∉ name.toList := by
        decide
      have last := congrArg List.getLast? isPlace
      rw [FileTree.below, List.getLast?_append_of_ne_nil _
        (plain names isShared).1, List.getLast?_concat] at last
      exact (plain names isShared).2 name last.symm

namespace Output

/-- The places that belong to a language. -/
def IsPlaceOf (language : Language) (names : List String) : Prop :=
  names = languagePlace language ∨ names = credentialsPlace language ∨
    ∃ text, names = codePlace language text

variable {language other : Language} {names : List String}

theorem IsPlaceOf.not_shared
    (isPlace : IsPlaceOf language names) :
    names ∉ FileTree.sharedPlaces := by
  rcases isPlace with rfl | rfl | ⟨text, rfl⟩
  · cases language <;> decide
  · simp [FileTree.sharedPlaces, credentialsPlace]
  · simp [FileTree.sharedPlaces, codePlace]

theorem IsPlaceOf.head_eq
    {first : String}
    {rest : List String}
    (isPlace : IsPlaceOf language (first :: rest)) :
    first = "output" := by
  rcases isPlace with same | same | ⟨text, same⟩
  · exact (List.cons.inj same).1
  · exact (List.cons.inj same).1
  · exact (List.cons.inj same).1

theorem IsPlaceOf.ne_nil
    (isPlace : IsPlaceOf language names) :
    names ≠ [] := by
  rcases isPlace with rfl | rfl | ⟨text, rfl⟩ <;> exact List.cons_ne_nil _ _

theorem credentialsPlace_inj
    (same : credentialsPlace language = credentialsPlace other) :
    language = other := by
  revert same
  cases language <;> cases other <;> decide

theorem code_eq_of_codePlace
    {text otherText : String}
    (same : codePlace language text = codePlace other otherText) :
    language = other ∧ workflowName language.code text =
      workflowName language.code otherText := by
  have code : language.code = other.code :=
    (List.cons.inj (List.cons.inj same).2).1
  have isSame : language = other := by
    revert code
    cases language <;> cases other <;> decide
  subst isSame
  exact ⟨rfl, (List.cons.inj (List.cons.inj (List.cons.inj same).2).2).1⟩

theorem not_endsInTemplate_codePlace
    (language : Language)
    (text : String) :
    ¬ FileTree.EndsInTemplate (codePlace language text) := by
  rw [show codePlace language text =
    ["output", language.code] ++ [workflowName language.code text]
    from rfl, FileTree.endsInTemplate_concat, workflowName,
    String.toList_append]
  rintro ⟨front, whole⟩
  have last := congrArg List.getLast? whole
  rw [List.getLast?_append, List.getLast?_append] at last
  cases language <;> cases last

theorem not_endsInTemplate_credentialsPlace
    (language : Language) :
    ¬ FileTree.EndsInTemplate (credentialsPlace language) := by
  rw [show credentialsPlace language =
    ["output", "credentials"] ++ ["Credentials" ++ language.extension]
    from rfl, FileTree.endsInTemplate_concat]
  cases language <;> decide

end Output

namespace FileTree

variable {done wider : Value → Language → Prop} {small middle large : FileTree}
  {names : List String}

/--
What may have become of the entry at a place, when workflows were converted.
-/
inductive Growth
    (done : Value → Language → Prop)
    (tree : FileTree)
    (names : List String)
    (entry : Option Entry) : Prop where
  | same (isSame : entry = tree.entry? names)
  | directory
      {workflow : Value}
      {language : Language}
      (isDone : done workflow language)
      (isPlace : names = Output.languagePlace language)
      (wasMissing : tree.entry? names = none)
      (isMade : entry = some .directory)
  | code
      {workflow : Value}
      {language : Language}
      {text : String}
      {content : Content}
      (isDone : done workflow language)
      (named : workflow.get "name" (.text "workflow") = .ok (.text text))
      (isPlace : names = Output.codePlace language text)
      (notDirectory : tree.entry? names ≠ some .directory)
      (isWritten : entry = some (.file content))
  | credentials
      {workflow : Value}
      {language : Language}
      {template : Path}
      {content : Content}
      (isDone : done workflow language)
      (isPlace : names = Output.credentialsPlace language)
      (wasMissing : tree.entry? names = none)
      (source : tree.credentialsSource language =
        .ok (some (template, content)))
      (unlocked : tree.locked.contains names = false)
      (isCopied : entry = some (.file
        (tree.arriving (tree.below names) content)))

namespace Growth

variable {tree : FileTree} {entry : Option Entry}

/-- Only places of languages that were converted to change. -/
theorem isPlaceOf
    (growth : Growth done tree names entry)
    (isChanged : entry ≠ tree.entry? names) :
    ∃ workflow language, done workflow language ∧
    Output.IsPlaceOf language names := by
  cases growth with
  | same isSame =>
      exact absurd isSame isChanged
  | directory isDone isPlace _ _ =>
      exact ⟨_, _, isDone, .inl isPlace⟩
  | code isDone _ isPlace _ _ =>
      exact ⟨_, _, isDone, .inr (.inr ⟨_, isPlace⟩)⟩
  | credentials isDone isPlace _ _ _ _ =>
      exact ⟨_, _, isDone, .inr (.inl isPlace)⟩

theorem mono
    (each : ∀ workflow language, done workflow language →
      wider workflow language)
    (growth : Growth done tree names entry) :
    Growth wider tree names entry := by
  cases growth with
  | same isSame =>
      exact .same isSame
  | directory isDone isPlace wasMissing isMade =>
      exact .directory (each _ _ isDone) isPlace wasMissing isMade
  | code isDone named isPlace notDirectory isWritten =>
      exact .code (each _ _ isDone) named isPlace notDirectory isWritten
  | credentials isDone isPlace wasMissing source unlocked isCopied =>
      exact .credentials (each _ _ isDone) isPlace wasMissing source unlocked
        isCopied

theorem eq_none
    (growth : Growth done tree names none) :
    tree.entry? names = none := by
  cases growth with
  | same isSame =>
      exact isSame.symm
  | directory _ _ wasMissing _ =>
      exact wasMissing
  | code _ _ _ _ isWritten =>
      cases isWritten
  | credentials _ _ wasMissing _ _ _ =>
      exact wasMissing

theorem ne_directory
    (growth : Growth done tree names entry)
    (notDirectory : entry ≠ some .directory) :
    tree.entry? names ≠ some .directory := by
  cases growth with
  | same isSame =>
      exact isSame ▸ notDirectory
  | directory _ _ _ isMade =>
      exact absurd isMade notDirectory
  | code _ _ _ wasNot _ =>
      exact wasNot
  | credentials _ _ wasMissing _ _ _ =>
      simp [wasMissing]

end Growth

/-- The languages whose directories are yet to be made. -/
def newLanguages
    (tree : FileTree)
    (languages : List Language) :
    List Language :=
  languages.filter fun language =>
    (tree.entry? (Output.languagePlace language)).isNone

theorem newLanguages_prepared
    (tree : FileTree)
    (languages : List Language) :
    tree.prepared.newLanguages languages = tree.newLanguages languages := by
  unfold newLanguages
  refine List.filter_congr fun language _ => ?_
  rw [entry?_prepared_of_not_shared (Output.IsPlaceOf.not_shared (.inl rfl))]

/-- A tree that has grown by converting workflows. -/
structure Grown (done : Value → Language → Prop) (small large : FileTree) :
  Prop where
  around : small.SameAround large
  entries : ∀ names, Growth done small names (large.entry? names)

namespace Grown

theorem refl
    (done : Value → Language → Prop)
    (tree : FileTree) :
    Grown done tree tree :=
  ⟨.refl tree, fun _ => .same rfl⟩

theorem mono
    (each : ∀ workflow language, done workflow language →
      wider workflow language)
    (grown : Grown done small large) :
    Grown wider small large :=
  ⟨grown.around, fun names => (grown.entries names).mono each⟩

theorem of_set
    {tree : FileTree}
    {entry : Entry}
    (notNil : names ≠ [])
    (growth : Growth done tree names (some entry)) :
    Grown done tree (tree.set names entry) where
  around := .set tree names entry
  entries place := by
    rw [entry?_set notNil]
    split
    · rename_i isPlace
      exact isPlace ▸ growth
    · exact .same rfl

/-- All that belongs to no language stays as it is. -/
theorem entry?_eq
    (grown : Grown done small large)
    (notPlace : ∀ language, ¬ Output.IsPlaceOf language names) :
    large.entry? names = small.entry? names := by
  by_contra isChanged
  obtain ⟨_, language, _, isPlace⟩ := (grown.entries names).isPlaceOf isChanged
  exact notPlace language isPlace

theorem ready_iff
    (grown : Grown done small large) :
    large.Ready ↔ small.Ready := by
  have shared :
      ∀ names ∈ sharedPlaces, large.entry? names = small.entry? names :=
    fun names isShared => grown.entry?_eq fun language isPlace =>
      isPlace.not_shared isShared
  have output := shared ["output"] (by decide)
  have credentials := shared ["output", "credentials"] (by decide)
  constructor
  · intro ready
    exact ⟨output ▸ ready.output, credentials ▸ ready.credentials⟩
  · intro ready
    exact ⟨output ▸ ready.output, credentials ▸ ready.credentials⟩

theorem ready
    (grown : Grown done small large)
    (ready : small.Ready) :
    large.Ready :=
  grown.ready_iff.mpr ready

/-- Credentials would come from the same source. -/
theorem credentialsSource_eq
    (grown : Grown done small large)
    (language : Language) :
    large.credentialsSource language = small.credentialsSource language := by
  refine (credentialsSource_congr language grown.around fun rest => ?_).symm
  refine (grown.entry?_eq fun other isPlace => ?_).symm
  exact absurd isPlace.head_eq (by decide)

theorem trans
    (first : Grown done small middle)
    (second : Grown done middle large) :
    Grown done small large where
  around := first.around.trans second.around
  entries names := by
    have before := first.entries names
    have missing : middle.entry? names = none → small.entry? names = none :=
      fun isMissing => (isMissing ▸ before).eq_none
    cases second.entries names with
    | same isSame =>
        exact isSame ▸ before
    | directory isDone isPlace wasMissing isMade =>
        exact .directory isDone isPlace (missing wasMissing) isMade
    | code isDone named isPlace notDirectory isWritten =>
        exact .code isDone named isPlace (before.ne_directory notDirectory)
          isWritten
    | credentials isDone isPlace wasMissing source unlocked isCopied =>
        rw [first.around.below_eq, first.around.arriving_eq] at isCopied
        exact .credentials isDone isPlace (missing wasMissing)
          (first.credentialsSource_eq _ ▸ source)
            (first.around.locked_eq ▸ unlocked) isCopied

/-- A tree that has grown finds the same templates. -/
theorem extends_newLanguages
    {languages : List Language}
    (grown : Grown done small large)
    (inLanguages : ∀ workflow language, done workflow language →
      language ∈ languages) :
    Extends (small.newLanguages languages) small large where
  around := grown.around
  entries names := by
    cases grown.entries names with
    | same isSame =>
        exact .inl isSame
    | directory isDone isPlace wasMissing isMade =>
        subst isPlace
        refine .inr (.inl ⟨_, List.mem_filter.mpr ⟨inLanguages _ _ isDone, ?_⟩,
          rfl, wasMissing, isMade⟩)
        rw [wasMissing]
        rfl
    | code isDone named isPlace notDirectory isWritten =>
        subst isPlace
        exact .inr (.inr ⟨Output.not_endsInTemplate_codePlace _ _, notDirectory,
          by simp [isWritten]⟩)
    | credentials isDone isPlace wasMissing source unlocked isCopied =>
        subst isPlace
        exact .inr (.inr ⟨Output.not_endsInTemplate_credentialsPlace _,
          by simp [wasMissing], by simp [isCopied]⟩)

end Grown

end FileTree

end Flowgen
