import Flowgen.Proofs.LocalSessions
import Flowgen.Proofs.SaveCalls

namespace Flowgen

/-!
# Looking for templates among generated files

A tree extends another if it has more directories of languages, and files that
are no templates.  A path to a template finds the same in both, unless it
enters one of the new directories and leaves it again.  What is generated in
the larger tree is then generated in the smaller one too.
-/

open Session

namespace Output

/-- The directory of the code in a language. -/
def languagePlace (language : Language) : List String :=
  ["output", language.code]

end Output

namespace FileTree

/-- A tree in which every entry lies in a directory. -/
def Sound (tree : FileTree) : Prop :=
  ∀ names name, (tree.entry? (names ++ [name])).isSome = true →
    tree.entry? names = some .directory

theorem sound_of_all
    {tree : FileTree}
    (all : (tree.entries.all fun entry =>
      tree.entry? entry.1.dropLast == some .directory) = true) :
    tree.Sound := by
  intro names name isThere
  obtain ⟨entry, isEntry⟩ := Option.isSome_iff_exists.mp isThere
  unfold FileTree.entry? at isEntry
  rw [if_neg (by simp)] at isEntry
  have member : (names ++ [name], entry) ∈ tree.entries := by
    rw [List.lookup_eq_some_iff] at isEntry
    obtain ⟨before, after, split, _⟩ := isEntry
    simp [split]
  have isDirectory := List.all_eq_true.mp all _ member
  simpa using isDirectory

/-- The entry that names lead to from a place. -/
def look
    (tree : FileTree)
    (place : Place)
    (names : List String) :
    Except FileCause Entry := do
  match tree.entryAt? (← tree.follow place names) with
  | some entry => .ok entry
  | none => .error .notFound

/--
Whether names from a place enter the directory of a language and leave it at
once.
-/
def turnsBack
    (tree : FileTree)
    (languages : List Language) :
    Place → List String → Bool
  | _, [] => false
  | place, name :: names =>
      let isEntered := languages.any fun language =>
        place == tree.below (Output.languagePlace language)
      name == ".." && isEntered ||
      turnsBack tree languages (child place name) names

/-- Names that do not lead up do not turn back. -/
theorem turnsBack_of_noUp
    {names : List String}
    (tree : FileTree)
    (languages : List Language)
    (place : Place)
    (noUp : ".." ∉ names) :
    tree.turnsBack languages place names = false := by
  induction names generalizing place with
  | nil =>
      rfl
  | cons name names inductionHypothesis =>
      obtain ⟨notUp, restNoUp⟩ := not_or.mp (List.mem_cons.not.mp noUp)
      rw [turnsBack, inductionHypothesis _ restNoUp,
        beq_false_of_ne (Ne.symm notUp)]
      rfl

theorem SameAround.turnsBack_eq
    {before after : FileTree}
    (same : before.SameAround after)
    (languages : List Language)
    (place : Place)
    (names : List String) :
    after.turnsBack languages place names =
      before.turnsBack languages place names := by
  induction names generalizing place with
  | nil =>
      rfl
  | cons name names inductionHypothesis =>
      simp only [turnsBack, same.below_eq, inductionHypothesis]

theorem look_cons
    (tree : FileTree)
    (place : Place)
    (name : String)
    (names : List String) :
    tree.look place (name :: names) =
      match tree.directoryFault? place with
      | some cause => .error cause
      | none =>
          if nameLimit < name.utf8ByteSize then .error .nameTooLong
          else tree.look (child place name) names := by
  rw [look, follow]
  cases tree.directoryFault? place with
  | some cause =>
      rfl
  | none =>
      dsimp only
      split <;> rfl

theorem find_eq_look
    (tree : FileTree)
    (path : Path) :
    tree.find path =
      if path.parts.any fun part => part.toList.contains '\x00' then
        .error .nullCharacter
      else if pathLimit < path.text.utf8ByteSize then
        .error (.file .nameTooLong path.text)
      else
        (tree.look (tree.rootPlace path.root) path.parts).mapError
          fun cause => .file cause path.text := by
  unfold find locate look
  split
  · rfl
  · split
    · rfl
    · cases tree.follow (tree.rootPlace path.root) path.parts with
      | error cause =>
          rfl
      | ok place =>
          simp only [Except.mapError, bind, Except.bind]
          cases tree.entryAt? place <;> rfl

/-- Names of which the last is that of a template. -/
def EndsInTemplate (names : List String) : Prop :=
  ∃ front name, names = front ++ [name] ∧ ".xml".toList <:+ name.toList

theorem not_endsInTemplate_nil : ¬ EndsInTemplate [] := by
  rintro ⟨front, name, isNil, _⟩
  simp at isNil

theorem endsInTemplate_concat
    {front : List String}
    {name : String} :
    EndsInTemplate (front ++ [name]) ↔ ".xml".toList <:+ name.toList := by
  constructor
  · rintro ⟨other, last, same, ends⟩
    obtain ⟨_, rfl⟩ := List.append_singleton_inj.mp same
    exact ends
  · intro ends
    exact ⟨front, name, rfl, ends⟩

theorem endsInTemplate_cons
    {name : String}
    {names : List String}
    (notNil : names ≠ []) :
    EndsInTemplate (name :: names) ↔ EndsInTemplate names := by
  obtain ⟨front, last, rfl⟩ :=
    List.eq_nil_or_concat' names |>.resolve_left notNil
  rw [← List.cons_append, endsInTemplate_concat, endsInTemplate_concat]

theorem not_endsInTemplate_languagePlace
    (language : Language) :
    ¬ EndsInTemplate (Output.languagePlace language) := by
  rw [show Output.languagePlace language =
    ["output"] ++ [language.code] from rfl, endsInTemplate_concat]
  cases language <;> decide

/--
A larger tree has more directories of languages, and other files that are no
templates.
-/
structure Extends (languages : List Language) (small large : FileTree) :
  Prop where
  around : small.SameAround large
  entries : ∀ names,
    large.entry? names = small.entry? names ∨
    (∃ language ∈ languages, names = Output.languagePlace language ∧
      small.entry? names = none ∧ large.entry? names = some .directory) ∨
    (¬ EndsInTemplate names ∧ small.entry? names ≠ some .directory ∧
      large.entry? names ≠ some .directory)

/-- An outcome that says that nothing is there. -/
def IsMissing (found : Except FileCause Entry) : Prop :=
  found = .error .notFound ∨ found = .error .notDirectory

variable {small large : FileTree} {languages : List Language}
variable {place : Place} {names : List String}

theorem isMissing_look
    {tree : FileTree}
    (notDirectory : tree.entryAt? place ≠ some .directory)
    (notNil : names ≠ []) :
    IsMissing (tree.look place names) := by
  cases names with
  | nil =>
      exact absurd rfl notNil
  | cons name names =>
      rw [look_cons, directoryFault?]
      cases isEntry : tree.entryAt? place with
      | none =>
          exact .inl rfl
      | some entry =>
          cases entry with
          | directory =>
              exact absurd isEntry notDirectory
          | file content =>
              exact .inr rfl

/-- Two trees that have the same at a place find the same there. -/
theorem look_nil_congr
    (same : large.entryAt? place = small.entryAt? place) :
    large.look place [] = small.look place [] := by
  simp only [look, follow, bind, Except.bind, same]

namespace Extends

/-- The entries at a place compare as those with the names that lead to it. -/
theorem entryAt?_cases
    (larger : Extends languages small large)
    (place : Place) :
    large.entryAt? place = small.entryAt? place ∨
    (∃ language ∈ languages, place =
      small.below (Output.languagePlace language) ∧
      small.entryAt? place = none ∧ large.entryAt? place = some .directory) ∨
    ((∀ names, place = small.below names → ¬ EndsInTemplate names) ∧
      small.entryAt? place ≠ some .directory ∧
      large.entryAt? place ≠ some .directory) := by
  cases leads : small.namesTo? place with
  | none =>
      left
      rw [entryAt?, entryAt?, larger.around.namesTo?_eq, leads]
      exact larger.around.outer?_eq place
  | some names =>
      obtain rfl := namesTo?_eq_some.mp leads
      have inLarge :
          large.entryAt? (small.below names) = large.entry? names := by
        rw [← larger.around.below_eq, entryAt?_below]
      rw [inLarge, entryAt?_below]
      obtain same | ⟨language, isOne, rfl, new⟩ | ⟨notTemplate, notDirectory⟩ :=
        larger.entries names
      · exact .inl same
      · exact .inr (.inl ⟨language, isOne, rfl, new⟩)
      · refine .inr (.inr ⟨fun others same => ?_, notDirectory⟩)
        rwa [← small.below_injective same]

/-- At the place of a template both trees have the same. -/
theorem entryAt?_template
    {name : String}
    (larger : Extends languages small large)
    (isTemplate : ".xml".toList <:+ name.toList) :
    large.entryAt? (place ++ [name]) = small.entryAt? (place ++ [name]) := by
  cases leads : small.namesTo? (place ++ [name]) with
  | none =>
      rw [entryAt?, entryAt?, larger.around.namesTo?_eq, leads]
      exact larger.around.outer?_eq _
  | some names =>
      have isPlace := namesTo?_eq_some.mp leads
      rw [isPlace, entryAt?_below, ← larger.around.below_eq, entryAt?_below]
      obtain rfl | ⟨front, last, rfl⟩ := List.eq_nil_or_concat' names
      · rfl
      · rw [below_append] at isPlace
        obtain ⟨_, rfl⟩ := List.append_singleton_inj.mp isPlace
        have ends : EndsInTemplate (front ++ [name]) :=
          endsInTemplate_concat.mpr isTemplate
        obtain same | ⟨language, _, isLanguage, _⟩ | ⟨notTemplate, _⟩ :=
          larger.entries (front ++ [name])
        · exact same
        · rw [isLanguage] at ends
          exact absurd ends (not_endsInTemplate_languagePlace language)
        · exact absurd ends notTemplate

/--
Where one name leads on from a new directory, there is neither a directory nor
a template.
-/
theorem look_new
    {language : Language}
    {name : String}
    (larger : Extends languages small large)
    (sound : small.Sound)
    (isNew : small.entry? (Output.languagePlace language) = none)
    (ends : EndsInTemplate (name :: names)) :
    IsMissing (large.look (small.below
      (Output.languagePlace language ++ [name])) names) := by
  have nothing :
      small.entry? (Output.languagePlace language ++ [name]) = none := by
    by_contra isThere
    have isDirectory := sound _ _ (Option.isSome_iff_ne_none.mpr isThere)
    rw [isNew] at isDirectory
    cases isDirectory
  by_cases isLast : names = []
  · subst isLast
    have isTemplate := (@endsInTemplate_concat [] name).mp ends
    have same :
        large.entryAt? (small.below (Output.languagePlace language ++ [name])) =
        none := by
      rw [below_append, larger.entryAt?_template isTemplate, ← below_append,
        entryAt?_below, nothing]
    left
    simp only [look, follow, bind, Except.bind, same]
  · refine isMissing_look ?_ isLast
    obtain same | ⟨other, _, isPlace, _⟩ | ⟨_, _, notDirectory⟩ :=
      larger.entryAt?_cases (small.below
        (Output.languagePlace language ++ [name]))
    · simp [same, nothing]
    · have isPlace := small.below_injective isPlace
      simp [Output.languagePlace] at isPlace
    · exact notDirectory

/--
A path to a template that does not turn back finds the same in both trees, or
nothing in the smaller one; in the larger one it may then meet a name that is
too long.
-/
theorem look_cases
    (larger : Extends languages small large)
    (sound : small.Sound)
    (ends : EndsInTemplate names)
    (straight : small.turnsBack languages place names = false) :
    large.look place names = small.look place names ∨
      IsMissing (small.look place names) ∧
        (IsMissing (large.look place names) ∨
          large.look place names = .error .nameTooLong) := by
  induction names generalizing place with
  | nil =>
      exact absurd ends not_endsInTemplate_nil
  | cons name names inductionHypothesis =>
      rw [turnsBack, Bool.or_eq_false_iff] at straight
      obtain ⟨notBack, straight⟩ := straight
      -- Where both trees let the name be followed, the rest of the names
      -- decides.
      have followed : large.look (child place name) names =
          small.look (child place name) names ∨
          IsMissing (small.look (child place name) names) ∧
            (IsMissing (large.look (child place name) names) ∨
              large.look (child place name) names = .error .nameTooLong) := by
        by_cases isLast : names = []
        · subst isLast
          have isTemplate := (@endsInTemplate_concat [] name).mp ends
          have notUp : name ≠ ".." := by
            rintro rfl
            exact absurd isTemplate (by decide)
          rw [child, if_neg notUp]
          exact .inl (look_nil_congr (larger.entryAt?_template isTemplate))
        · exact inductionHypothesis ((endsInTemplate_cons isLast).mp ends)
            straight
      obtain same | ⟨language, isOne, rfl, isNew, isMade⟩ | ⟨_, smallNot,
        largeNot⟩ :=
        larger.entryAt?_cases place
      · rw [look_cons, look_cons, directoryFault?, directoryFault?, same]
        split
        · exact .inl rfl
        · split
          · exact .inl rfl
          · exact followed
      · have notUp : name ≠ ".." := by
          rintro rfl
          have isBack : (languages.any fun other =>
              small.below (Output.languagePlace language) ==
                small.below (Output.languagePlace other)) = true :=
            List.any_eq_true.mpr ⟨language, isOne, by simp⟩
          simp [isBack] at notBack
        refine .inr ⟨isMissing_look (by simp [isNew]) (by simp), ?_⟩
        rw [look_cons, directoryFault?, isMade]
        dsimp only
        split
        · exact .inr rfl
        · left
          rw [child_below notUp]
          rw [entryAt?_below] at isNew
          exact larger.look_new sound isNew ends
      · exact .inr ⟨isMissing_look smallNot (by simp),
          .inl (isMissing_look largeNot (by simp))⟩

/-- What the larger tree says of a template, the smaller one says too. -/
theorem has_eq_ok
    {path : Path}
    {isThere : Bool}
    (larger : Extends languages small large)
    (sound : small.Sound)
    (ends : EndsInTemplate path.parts)
    (straight : small.turnsBack languages (small.rootPlace path.root)
      path.parts = false)
    (asked : large.has path = .ok isThere) :
    small.has path = .ok isThere ∧
    (isThere = true → small.read path = large.read path) := by
  have sameRoot : large.rootPlace path.root = small.rootPlace path.root := by
    exact larger.around.rootPlace_eq _
  have found := find_eq_look small path
  have alsoFound := find_eq_look large path
  rw [sameRoot] at alsoFound
  split at found
  · rename_i hasNull
    rw [if_pos hasNull] at alsoFound
    rw [has, alsoFound] at asked
    rw [has, found]
    cases asked
    exact ⟨rfl, by simp⟩
  · rename_i noNull
    rw [if_neg noNull] at alsoFound
    split at found
    · rename_i isLong
      rw [if_pos isLong] at alsoFound
      rw [has, alsoFound] at asked
      cases asked
    · rename_i short
      rw [if_neg short] at alsoFound
      obtain same | ⟨missing, alsoMissing | tooLong⟩ :=
        larger.look_cases sound ends straight
      · rw [same] at alsoFound
        rw [has, alsoFound] at asked
        rw [has, found]
        exact ⟨asked, fun _ => by rw [read, read, found, alsoFound]⟩
      · have isFalse : isThere = false := by
          rw [has, alsoFound] at asked
          rcases alsoMissing with
            same | same <;> rw [same] at asked <;> cases asked <;> rfl
        subst isFalse
        rw [has, found]
        refine ⟨?_, by simp⟩
        rcases missing with same | same <;> rw [same] <;> rfl
      · rw [has, alsoFound, tooLong] at asked
        cases asked

end Extends

end FileTree

namespace Path

/-- A path that is joined by the name of a template leads to a template. -/
theorem endsInTemplate_join
    (directory : Path)
    (name : String) :
    FileTree.EndsInTemplate (directory.join (name ++ ".xml")).parts := by
  obtain ⟨front, parts⟩ := directory.join_parts (name ++ ".xml")
  obtain ⟨between, last, split⟩ :=
    partsOf_append name.toList (by decide : '/' ∉ ".xml".toList) (by decide)
  rw [String.toList_append] at parts
  rw [parts, split, ← List.append_assoc, FileTree.endsInTemplate_concat,
    @String.toList_ofList (last ++ ".xml".toList)]
  exact List.suffix_append last _

end Path

namespace Session

/--
What comes of a session in the larger tree also comes of it in the smaller
one, with each an order in which sets are walked.
-/
def Backs
    (one other : SetOrder)
    (small large : FileTree)
    (session : Session α) :
    Prop :=
  ∀ value, (session.among other large).1 = .ok value →
    (session.among one small).1 = .ok value

namespace Backs

variable {one other : SetOrder} {small large : FileTree} {session : Session α}

theorem pure
    (value : α) :
    Backs one other small large (Pure.pure value : Session α) :=
  fun _ returned => returned

theorem lift
    (result : Except Fault α) :
    Backs one other small large (liftM result : Session α) := by
  intro value returned
  rwa [among_lift] at returned ⊢

theorem bind
    {next : α → Session β}
    (reports : Reports session)
    (reportNext : ∀ value, Reports (next value))
    (first : Backs one other small large session)
    (rest : ∀ value, Backs one other small large (next value)) :
    Backs one other small large (session >>= next) := by
  intro result returned
  rw [reports.among_bind_fst reportNext] at returned ⊢
  obtain ⟨value, came, returned⟩ := bind_eq_ok.mp returned
  exact bind_eq_ok.mpr ⟨value, first value came, rest value result returned⟩

theorem lift_bind
    {result : Except Fault α}
    {next : α → Session β}
    (rest : ∀ value, result = .ok value →
      Backs one other small large (next value)) :
    Backs one other small large ((liftM result : Session α) >>= next) := by
  intro value returned
  rw [among_lift_bind] at returned ⊢
  cases result with
  | error fault =>
      cases returned
  | ok first =>
      exact rest first rfl value returned

/-- A session that starts with a computation which takes both orders alike. -/
theorem setOrder_bind
    {compute : SetOrder → Except Fault α}
    {next : α → Session β}
    (same : compute other = compute one)
    (rest : ∀ value, Backs one other small large (next value)) :
    Backs one other small large (do
      let order ← Session.setOrder
      let value ← compute order
      next value) := by
  intro value returned
  have returned :
      (((liftM (compute other) : Session α) >>= next).among other large).1 =
      .ok value := returned
  rw [same] at returned
  exact lift_bind (fun value _ => rest value) value returned

end Backs

end Session

namespace Template.Store

variable {one other : SetOrder} {small large : FileTree}
  {languages : List Language}

/-- What comes of the template in a file, if there is one. -/
def loaded
    (files : FileTree)
    (file : Path)
    (use : Content → Except Fault (Option α)) :
    Except Fault (Option α) := do
  if ← files.has file then
    match files.read file >>= use with
    | .ok template => .ok template
    | .error fault => if fault.isUncatchable then .error fault else .ok none
  else
    .ok none

/-- What is loaded from the larger tree is loaded from the smaller one. -/
theorem loaded_of_extends
    {file : Path}
    {use : Content → Except Fault (Option α)}
    {template : Option α}
    (larger : FileTree.Extends languages small large)
    (sound : small.Sound)
    (ends : FileTree.EndsInTemplate file.parts)
    (straight : small.turnsBack languages (small.rootPlace file.root)
      file.parts = false)
    (isLoaded : loaded large file use = .ok template) :
    loaded small file use = .ok template := by
  obtain ⟨isThere, asked, rest⟩ := bind_eq_ok.mp isLoaded
  obtain ⟨alsoAsked, sameContent⟩ := larger.has_eq_ok sound ends straight asked
  refine bind_eq_ok.mpr ⟨isThere, alsoAsked, ?_⟩
  cases isThere with
  | false =>
      exact rest
  | true =>
      rw [sameContent rfl]
      exact rest

/-- What comes of a session that loads a template from a file. -/
theorem among_load
    {file : Path}
    {use : Content → Except Fault (Option α)}
    {reading missing : Session (Option α)}
    {handler : Fault → Session (Option α)}
    (reports : Reports reading)
    (reportsMissing : Reports missing)
    (reportsHandler : ∀ fault, Reports (handler fault))
    (isRead : ∀ order files, (reading.among order files).1 = files.read file >>=
      use)
    (isMissing : ∀ order files, (missing.among order files).1 = .ok none)
    (isHandled : ∀ fault order files,
      ((handler fault).among order files).1 = .ok none)
    (order : SetOrder)
    (files : FileTree) :
    ((Session.pathExists file >>= fun isThere =>
        if isThere = true then Session.guarded reading handler
          else missing).among order files).1 =
      loaded files file use := by
  have reportsNext : ∀ isThere : Bool,
      Reports (if isThere = true then Session.guarded reading handler
        else missing) := by
    intro isThere
    split
    · exact .guarded reports reportsHandler
    · exact reportsMissing
  rw [(Reports.pathExists file).among_bind_fst reportsNext, among_pathExists,
    loaded]
  congr 1
  funext isThere
  split
  · rw [among_guarded (.reports reports) fun fault =>
      .reports (reportsHandler fault), ← isRead]
    rcases reading.among order files with ⟨fault | template, between⟩
    · dsimp only
      split
      · rfl
      · exact isHandled fault order between
    · rfl
  · exact isMissing order files

/-- What comes of a class template depends on its file. -/
theorem among_loadClass
    (store : Store)
    (language : Value)
    (order : SetOrder)
    (files : FileTree) :
    ((store.loadClass language).among order files).1 =
      loaded files (store.classFile language)
        (fun content => Markup.parse content >>= classText) := by
  have reportsUse : ∀ content, Reports (do
      classText (← Markup.parse content) : Session (Option String)) :=
    fun content => .bind (.lift _) fun document => .lift _
  refine among_load (.bind (.readFile _) reportsUse)
    (.bind (.print _) fun _ => .pure _)
    (fun fault => .bind (.print _) fun _ => .pure _) (fun order files => ?_)
      (fun _ _ => rfl)
    (fun _ _ _ => rfl) order files
  rw [(Reports.readFile _).among_bind_fst reportsUse, among_readFile]
  congr 1
  funext content
  rw [Reports.among_bind_fst (.lift _) fun document => .lift _, among_lift]
  simp only [among_lift]

/-- What comes of a method template depends on its file. -/
theorem among_loadNode
    (store : Store)
    (type language : Value)
    (order : SetOrder)
    (files : FileTree) :
    ((store.loadNode type language).among order files).1 =
      ((store.nodeFile type language).among order files).1 >>= fun file =>
        loaded files file (fun content =>
          Markup.parse content >>= fun document =>
            pure (nodeTemplate type document)) := by
  have reportsUse : ∀ content, Reports (do
      return nodeTemplate type (← Markup.parse content) :
        Session (Option NodeTemplate)) :=
    fun content => .bind (.lift _) fun document => .pure _
  rw [loadNode, (reports_nodeFile store type language).among_bind_fst]
  · congr 1
    funext file
    refine among_load (.bind (.readFile _) reportsUse)
      (.bind (.print _) fun _ => .pure _)
      (fun fault => .bind (.print _) fun _ => .pure _) (fun order files => ?_)
        (fun _ _ => rfl)
      (fun _ _ _ => rfl) order files
    rw [(Reports.readFile _).among_bind_fst reportsUse, among_readFile]
    congr 1
    funext content
    rw [Reports.among_bind_fst (.lift _) fun document => .pure _, among_lift]
    rfl
  · intro file
    refine .bind (.pathExists file) fun isThere => ?_
    split
    · exact .guarded (.bind (.readFile file) reportsUse) fun fault =>
        .bind (.print _) fun _ => .pure none
    · exact .bind (.print _) fun _ => .pure none

/-- The files in which the method template for a type may lie. -/
def nodeFiles (store : Store) (type language : String) : List Path :=
  [store.ownFile type language, store.commonFile type]

theorem among_nodeFile
    (store : Store)
    (type language : String)
    (order : SetOrder)
    (files : FileTree) :
    ((store.nodeFile (.text type) (.text language)).among order files).1 =
      files.has (store.ownFile type language) >>= fun isThere =>
        pure (if isThere then store.ownFile type language
          else store.commonFile type) := by
  have display : (Value.text type).display = type := rfl
  rw [nodeFile, Path.partOfValue, display, among_lift_bind]
  dsimp only
  rw [(Reports.pathExists _).among_bind_fst, among_pathExists]
  · congr 1
    funext isThere
    cases isThere <;> rfl
  · intro isThere
    split
    · exact .pure _
    · exact .pure _

/--
The method template that is loaded in the larger tree is loaded in the smaller
one.
-/
theorem backs_loadNode
    {store : Store}
    {type language : String}
    (larger : FileTree.Extends languages small large)
    (sound : small.Sound)
    (straight : ∀ file ∈ store.nodeFiles type language,
      small.turnsBack languages (small.rootPlace file.root) file.parts =
        false) :
    Backs one other small large
      (store.loadNode (.text type) (.text language)) := by
  have ends : ∀ file ∈ store.nodeFiles type language,
      FileTree.EndsInTemplate file.parts := by
    simp [nodeFiles, ownFile, commonFile, Path.endsInTemplate_join]
  have isOwn : store.ownFile type language ∈ store.nodeFiles type language := by
    simp [nodeFiles]
  intro template returned
  rw [among_loadNode, among_nodeFile] at returned ⊢
  obtain ⟨file, isFile, returned⟩ := bind_eq_ok.mp returned
  obtain ⟨isThere, asked, isFile⟩ := bind_eq_ok.mp isFile
  have isOne : file ∈ store.nodeFiles type language := by
    rw [← pure_eq_ok.mp isFile]
    cases isThere <;> simp [nodeFiles]
  have alsoAsked :=
    (larger.has_eq_ok sound (ends _ isOwn) (straight _ isOwn) asked).1
  refine bind_eq_ok.mpr ⟨file, bind_eq_ok.mpr ⟨isThere, alsoAsked, isFile⟩, ?_⟩
  exact loaded_of_extends larger sound (ends file isOne) (straight file isOne)
    returned

end Template.Store

namespace ExecutionOrder

theorem mem_elements_of_ordered
    {nodes : Value}
    {inOrder : List Value}
    (isTruthy : nodes.isTruthy = true)
    (made : ordered nodes = .ok inOrder) :
    ∃ all, nodes.elements = .ok all ∧ ∀ node ∈ inOrder, node ∈ all := by
  unfold ordered at made
  obtain ⟨places, _, made⟩ := bind_eq_ok.mp made
  rw [if_pos isTruthy] at made
  obtain ⟨all, areAll, made⟩ := bind_eq_ok.mp made
  obtain rfl := pure_eq_ok.mp made
  refine ⟨all, areAll, fun node member => ?_⟩
  obtain ⟨place, _, isNode⟩ := List.mem_filterMap.mp member
  exact List.mem_of_getElem? isNode

end ExecutionOrder

namespace Method

open Template

/-- The files in which the method template for a node may lie. -/
def templateFiles
    (store : Store)
    (language : String)
    (node : Value) :
    List Path :=
  match node.get "type" (.text "") with
  | .ok (.text written) => store.nodeFiles (normalizedType written) language
  | _ => []

variable {one other : SetOrder} {small large : FileTree}
  {languages : List Language}
variable {store : Store} {language : String}

/-- The method that a node has in the larger tree it has in the smaller one. -/
theorem backs_ofNode
    {node : Value}
    (larger : FileTree.Extends languages small large)
    (sound : small.Sound)
    (straight : ∀ file ∈ templateFiles store language node,
      small.turnsBack languages (small.rootPlace file.root) file.parts =
        false) :
    Backs one other small large (ofNode store language node) := by
  unfold ofNode
  refine .lift_bind fun written got => .lift_bind fun text isText => ?_
  obtain rfl := Value.textFor_eq_ok.mp isText
  rw [templateFiles, got] at straight
  refine .bind (reports_loadNode store _ _) (fun template => ?_)
    (Store.backs_loadNode larger sound straight) fun template => ?_
  · cases template with
    | some template =>
        exact .lift _
    | none =>
        exact .lift _
  · cases template with
    | some template =>
        exact .lift _
    | none =>
        exact .lift _

end Method

namespace Class.Generator

variable {one other : SetOrder} {small large : FileTree}
  {languages : List Language}
variable {generator : Generator}

/--
The methods that nodes have in the larger tree they have in the smaller one.
-/
theorem backs_methods
    {nodes : List Value}
    (larger : FileTree.Extends languages small large)
    (sound : small.Sound)
    (straight : ∀ node ∈ nodes,
      ∀ file ∈ Method.templateFiles generator.store generator.language node,
        small.turnsBack languages (small.rootPlace file.root) file.parts =
          false) :
    Backs one other small large (generator.methods nodes) := by
  induction nodes with
  | nil =>
      exact .pure _
  | cons node nodes inductionHypothesis =>
      obtain ⟨first, others⟩ := List.forall_mem_cons.mp straight
      have rest := inductionHypothesis others
      have reportsRest := reports_methods generator nodes
      unfold methods
      refine .bind (Method.reports_ofNode _ _ _) (fun code => ?_)
        (Method.backs_ofNode larger sound first) fun code => ?_
      · split
        · exact reportsRest
        · exact .bind (.lift _) fun name => .bind reportsRest fun _ => .pure _
      · split
        · exact rest
        · exact .lift_bind fun name _ =>
            .bind reportsRest (fun _ => .pure _) rest fun _ => .pure _

/-- The files in which the method templates for a workflow may lie. -/
def templateFiles (generator : Generator) (workflow : Value) : List Path :=
  match workflow.get "nodes" (.list []) >>= Value.elements with
  | .ok nodes =>
      nodes.flatMap (Method.templateFiles generator.store generator.language)
  | .error _ => []

theorem backs_fillClass
    {template : String}
    {workflow nodes : Value}
    (larger : FileTree.Extends languages small large)
    (sound : small.Sound)
    (same : Parameters.ofClass other workflow = Parameters.ofClass one workflow)
    (areNodes : workflow.get "nodes" (.list []) = .ok nodes)
    (isTruthy : nodes.isTruthy = true)
    (straight : ∀ file ∈ generator.templateFiles workflow,
      small.turnsBack languages (small.rootPlace file.root) file.parts =
        false) :
    Backs one other small large
      (generator.fillClass template workflow nodes) := by
  unfold fillClass
  refine .setOrder_bind same fun names => .lift_bind fun inOrder areInOrder =>
    ?_
  obtain ⟨all, areAll, inAll⟩ :=
    ExecutionOrder.mem_elements_of_ordered isTruthy areInOrder
  have straightNodes : ∀ node ∈ inOrder,
      ∀ file ∈ Method.templateFiles generator.store generator.language node,
        small.turnsBack languages (small.rootPlace file.root) file.parts =
          false := by
    intro node member file isFile
    refine straight file ?_
    rw [templateFiles, areNodes]
    simp only [bind, Except.bind, areAll]
    exact List.mem_flatMap.mpr ⟨node, inAll node member, isFile⟩
  refine .bind (reports_methods generator inOrder) (fun methods => ?_)
    (backs_methods larger sound straightNodes) fun methods => ?_
  · exact .bind (.lift _) fun code => .bind (.lift _) fun imports =>
      .bind (.lift _) fun className => .bind (.lift _) fun name =>
      .bind (.lift _) fun workflowName => .pure _
  · exact .lift_bind fun code _ => .lift_bind fun imports _ =>
      .lift_bind fun className _ =>
      .lift_bind fun name _ => .lift_bind fun workflowName _ => .pure _

/--
The class that a workflow has in the larger tree it has in the smaller one.
-/
theorem backs_generate
    {workflow : Value}
    (larger : FileTree.Extends languages small large)
    (sound : small.Sound)
    (same : Parameters.ofClass other workflow = Parameters.ofClass one workflow)
    (straight : ∀ file ∈
        generator.store.classFile (.text generator.language) ::
        generator.templateFiles workflow,
      small.turnsBack languages (small.rootPlace file.root) file.parts =
        false) :
    Backs one other small large (generator.generate workflow) := by
  obtain ⟨straightClass, straightMethods⟩ := List.forall_mem_cons.mp straight
  have loads : Backs one other small large
      (generator.store.loadClass (.text generator.language)) := by
    intro template returned
    rw [Template.Store.among_loadClass] at returned ⊢
    exact Template.Store.loaded_of_extends larger sound
      (Path.endsInTemplate_join _ _) straightClass returned
  unfold generate
  refine .bind (reports_loadClass _ _) (fun template => ?_) loads
    fun template => ?_
  · split
    · exact .bind (.print _) fun _ => .pure none
    · exact .bind (.print _) fun _ => .pure none
    · refine .bind (.lift _) fun nodes => ?_
      split
      · rw [map_eq_pure_bind]
        exact .bind (reports_fillClass generator _ workflow nodes) fun code =>
          .pure _
      · exact .bind (.print _) fun _ => .pure none
  · have saysNone : ∀ text, Backs one other small large (do
        Session.print text
        return (none : Option String)) :=
      fun text _ returned => returned
    split
    · exact saysNone _
    · exact saysNone _
    · refine .lift_bind fun nodes areNodes => ?_
      split
      · rename_i isTruthy
        rw [map_eq_pure_bind]
        exact .bind (reports_fillClass generator _ workflow nodes)
          (fun _ => .pure _)
          (backs_fillClass larger sound same areNodes isTruthy straightMethods)
            fun _ => .pure _
      · exact saysNone _

end Class.Generator

end Flowgen
