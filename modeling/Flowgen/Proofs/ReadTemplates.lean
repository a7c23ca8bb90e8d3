import Flowgen.Proofs.TemplateDocuments
import Flowgen.Proofs.TemplateLookups

namespace Flowgen

/-!
# The files that are read for a method template

A session reads a file if what comes of it changes with the content of the
file.  For a type of nodes this is the file at the place that the path for the
language spells, or else the one at the place that the common path spells.  The
parts of a type are not checked: one that leads up or starts with a slash can
have a file read that lies anywhere in the file system.  A type that does
neither has files read in the directory of the method templates only.
-/

open Session

namespace FileTree

variable {tree : FileTree} {place final : Place} {names : List String}
  {path : Path} {old new : Content}

/-- The place that a path leads to if all its parts can be followed. -/
def spelled (tree : FileTree) (path : Path) : Place :=
  path.parts.foldl child (tree.rootPlace path.root)

theorem eq_foldl_of_follow
    (followed : tree.follow place names = .ok final) :
    final = names.foldl child place := by
  induction names generalizing place with
  | nil =>
      cases followed
      rfl
  | cons name names inductionHypothesis =>
      rw [follow] at followed
      split at followed
      · cases followed
      · split at followed
        · cases followed
        · exact inductionHypothesis followed

theorem eq_spelled_of_locate
    (located : tree.locate path = .ok place) :
    place = tree.spelled path :=
  eq_foldl_of_follow (follow_of_locate located)

theorem foldl_child_of_noUp
    (place : Place)
    (noUp : ".." ∉ names) :
    names.foldl child place = place ++ names := by
  induction names generalizing place with
  | nil =>
      simp
  | cons name names inductionHypothesis =>
      obtain ⟨notUp, restNoUp⟩ := not_or.mp (List.mem_cons.not.mp noUp)
      rw [List.foldl_cons, inductionHypothesis _ restNoUp, child,
        if_neg (Ne.symm notUp), List.append_assoc, List.singleton_append]

/-- Places are followed alike, whatever the file at one of them holds. -/
theorem locate_setAt_content
    (isFile : tree.entryAt? place = some (.file old))
    (path : Path) :
    (tree.setAt place (.file new)).locate path = tree.locate path := by
  have notDirectory : tree.entryAt? place ≠ some .directory := by
    simp [isFile]
  have sameFault : ∀ stop,
      (tree.setAt place (.file new)).directoryFault? stop =
        tree.directoryFault? stop := by
    intro stop
    rw [directoryFault?, directoryFault?, entryAt?_setAt notDirectory]
    by_cases same : stop = place
    · simp [same, isFile]
    · rw [if_neg same]
  have sameFollow : ∀ names start,
      (tree.setAt place (.file new)).follow start names =
        tree.follow start names := by
    intro names
    induction names with
    | nil =>
        exact fun _ => rfl
    | cons name names inductionHypothesis =>
        intro start
        rw [follow, follow, sameFault, inductionHypothesis]
  have sameRoot :
      (tree.setAt place (.file new)).rootPlace path.root =
        tree.rootPlace path.root := by
    rw [rootPlace, rootPlace, top, top, home_setAt]
  rw [locate, locate, sameRoot, sameFollow]

/-- A path that leads elsewhere finds the same, whatever a file holds. -/
theorem find_setAt_content
    (isFile : tree.entryAt? place = some (.file old))
    (elsewhere : tree.locate path ≠ .ok place) :
    (tree.setAt place (.file new)).find path = tree.find path := by
  have notDirectory : tree.entryAt? place ≠ some .directory := by
    simp [isFile]
  rw [find, find, locate_setAt_content isFile]
  cases located : tree.locate path with
  | error fault =>
      simp only [bind, Except.bind]
  | ok stop =>
      have isOther : stop ≠ place := by
        rintro rfl
        exact elsewhere located
      simp only [bind, Except.bind, entryAt?_setAt notDirectory, if_neg isOther]

/-- A path that leads to a file finds what the file holds. -/
theorem find_setAt_of_locate
    (isFile : tree.entryAt? place = some (.file old))
    (located : tree.locate path = .ok place)
    (new : Content) :
    (tree.setAt place (.file new)).find path = .ok (.file new) := by
  have notDirectory : tree.entryAt? place ≠ some .directory := by
    simp [isFile]
  rw [find, locate_setAt_content isFile, located]
  simp only [bind, Except.bind, entryAt?_setAt notDirectory, if_true]

theorem has_setAt_content
    (isFile : tree.entryAt? place = some (.file old))
    (path : Path) :
    (tree.setAt place (.file new)).has path = tree.has path := by
  by_cases located : tree.locate path = .ok place
  · have found : tree.find path = .ok (.file old) := by
      simp [find, located, isFile, bind, Except.bind]
    rw [has, has, found, find_setAt_of_locate isFile located]
  · rw [has, has, find_setAt_content isFile located]

end FileTree

namespace Session

/--
A session reads the file at a place if what comes of it changes with the content
there.
-/
def Reads (session : Session α) (files : FileTree) (place : Place) : Prop :=
  ∃ order old new, files.entryAt? place = some (.file old) ∧
    (session.among order (files.setAt place (.file new))).1 ≠
      (session.among order files).1

end Session

namespace Template.Store

variable {store : Store} {files : FileTree} {place : Place} {type : String}

/-- The file for a type of nodes, as there is one for the language or not. -/
def chosenFile
    (store : Store)
    (type language : String)
    (isThere : Bool) :
    Path :=
  if isThere then store.ownFile type language else store.commonFile type

/-- What comes of a method template depends on the two files for it. -/
theorem among_loadNode_text
    (store : Store)
    (type language : String)
    (order : SetOrder)
    (files : FileTree) :
    ((store.loadNode (.text type) (.text language)).among order files).1 =
      files.has (store.ownFile type language) >>= fun isThere =>
        loaded files (store.chosenFile type language isThere) fun content =>
          Markup.parse content >>= fun document =>
            pure (nodeTemplate (.text type) document) := by
  rw [among_loadNode, among_nodeFile]
  simp only [bind_assoc, pure_bind]
  rfl

/-- A file can have any line of code as its template. -/
theorem exists_loaded_eq
    {file : Path}
    {old : Content}
    {line : String}
    (isFile : files.entryAt? place = some (.file old))
    (located : files.locate file = .ok place)
    (isLine : CodeLine line.toList)
    (type : Value) :
    ∃ new, loaded (files.setAt place (.file new)) file
      (fun content => Markup.parse content >>= fun document =>
        pure (nodeTemplate type document)) =
      .ok (some ⟨.text (Text.trim "Node"),
        Text.trim (Text.ofLines [line])⟩) := by
  obtain ⟨document, parsed, isTemplate⟩ :=
    @nodeTemplate_methodDocument [line] "Node" (by decide) (by simp)
      (by simpa using isLine) 0
  refine ⟨.text (Shipped.methodDocument "Node" [line] 0), ?_⟩
  rw [loaded, FileTree.has, FileTree.read,
    FileTree.find_setAt_of_locate isFile located]
  simp only [bind, Except.bind, pure, Except.pure, if_true, parsed, isTemplate]

/-- The file that is read is the one that the chosen path leads to. -/
theorem reads_loadNode_iff_locate
    (language : String) :
    (store.loadNode (.text type) (.text language)).Reads files place ↔
      ∃ isThere content,
        files.has (store.ownFile type language) = .ok isThere ∧
        files.locate (store.chosenFile type language isThere) = .ok place ∧
        files.entryAt? place = some (.file content) := by
  constructor
  · rintro ⟨order, old, new, isFile, differs⟩
    rw [among_loadNode_text, among_loadNode_text,
      FileTree.has_setAt_content isFile] at differs
    cases asked : files.has (store.ownFile type language) with
    | error fault =>
        rw [asked] at differs
        exact absurd rfl differs
    | ok isThere =>
        refine ⟨isThere, old, rfl, ?_, isFile⟩
        by_contra elsewhere
        rw [asked] at differs
        dsimp only [bind, Except.bind] at differs
        rw [loaded, loaded, FileTree.has_setAt_content isFile, FileTree.read,
          FileTree.read, FileTree.find_setAt_content isFile elsewhere]
            at differs
        exact differs rfl
  · rintro ⟨isThere, old, asked, located, isFile⟩
    obtain ⟨first, firstLoaded⟩ :=
      @exists_loaded_eq _ _ _ _ "a" isFile located
        ⟨by decide, by decide, by decide⟩ (.text type)
    obtain ⟨second, secondLoaded⟩ :=
      @exists_loaded_eq _ _ _ _ "b" isFile located
        ⟨by decide, by decide, by decide⟩ (.text type)
    -- Two contents give different templates, so one of them changes something.
    by_contra same
    have unchanged : ∀ new,
        ((store.loadNode (.text type) (.text language)).among .asAdded
          (files.setAt place (.file new))).1 =
        ((store.loadNode (.text type) (.text language)).among .asAdded
          files).1 := by
      intro new
      by_contra differs
      exact same ⟨.asAdded, old, new, isFile, differs⟩
    have equal := (unchanged first).trans (unchanged second).symm
    rw [among_loadNode_text, among_loadNode_text,
      FileTree.has_setAt_content isFile, FileTree.has_setAt_content isFile,
      asked] at equal
    have trims :
        Text.trim (Text.ofLines ["a"]) = Text.trim (Text.ofLines ["b"]) := by
      simpa using (firstLoaded.symm.trans equal).trans secondLoaded
    exact absurd trims (by decide)

theorem isComponent_code
    (language : Language) :
    Path.IsComponent language.code := by
  cases language <;> exact ⟨by decide, by decide, by decide, by decide⟩

/--
Both files of a type that goes down only lie in the directory of templates.
-/
theorem nodes_prefix_spelled
    (relative : (Path.ofText (type ++ ".xml")).root = "")
    (noUp : ".." ∉ (Path.ofText (type ++ ".xml")).parts)
    (language : Language)
    (isThere : Bool)
    (files : FileTree) :
    files.spelled store.nodes <+:
      files.spelled (store.chosenFile type language.code isThere) := by
  obtain ⟨front, frontNoUp, fileIs⟩ : ∃ front, ".." ∉ front ∧
      store.chosenFile type language.code isThere =
        ⟨store.nodes.root, store.nodes.parts ++
          (front ++ (Path.ofText (type ++ ".xml")).parts)⟩ := by
    cases isThere with
    | true =>
        refine ⟨[language.code], ?_, ?_⟩
        · simpa using (isComponent_code language).notUp.symm
        · rw [chosenFile, if_pos rfl, ownFile,
            Path.join_component _ (isComponent_code language), Path.join,
            if_pos relative, List.append_assoc]
    | false =>
        refine ⟨[], by simp, ?_⟩
        rw [chosenFile, if_neg (by simp), commonFile, Path.join,
          if_pos relative, List.nil_append]
  have allNoUp : ".." ∉ front ++ (Path.ofText (type ++ ".xml")).parts := by
    simp [frontNoUp, noUp]
  rw [FileTree.spelled, FileTree.spelled, fileIs, List.foldl_append,
    FileTree.foldl_child_of_noUp _ allNoUp]
  exact List.prefix_append _ _

/--
In any file system, what is read for a type of nodes is the file at the place
that the chosen path spells, with `..` leading up and a leading slash leading
to the root, and nothing else.  If the type goes down only, then this lies in
the directory of the method templates.
-/
theorem loadNode_reads_iff_spelled
    (store : Store)
    (type : String)
    (language : Language)
    (files : FileTree) :
    (∀ place,
      (store.loadNode (.text type) (.text language.code)).Reads files place ↔
        ∃ isThere content,
          files.has (store.ownFile type language.code) = .ok isThere ∧
          files.find (store.chosenFile type language.code isThere) =
            .ok (.file content) ∧
          place = files.spelled (store.chosenFile type language.code isThere)) ∧
    ((Path.ofText (type ++ ".xml")).root = "" →
      ".." ∉ (Path.ofText (type ++ ".xml")).parts →
      ∀ place,
        (store.loadNode (.text type) (.text language.code)).Reads files place →
          files.spelled store.nodes <+: place) := by
  constructor
  · intro place
    rw [reads_loadNode_iff_locate]
    constructor
    · rintro ⟨isThere, content, asked, located, isFile⟩
      refine ⟨isThere, content, asked, ?_,
        FileTree.eq_spelled_of_locate located⟩
      simp [FileTree.find, located, isFile, bind, Except.bind]
    · rintro ⟨isThere, content, asked, found, rfl⟩
      rw [FileTree.find] at found
      obtain ⟨stop, located, found⟩ := bind_eq_ok.mp found
      obtain rfl := FileTree.eq_spelled_of_locate located
      split at found
      · rename_i isEntry
        cases found
        exact ⟨isThere, content, asked, located, isEntry⟩
      · cases found
  · intro relative noUp place reads
    obtain ⟨isThere, _, _, located, _⟩ :=
      (reads_loadNode_iff_locate language.code).mp reads
    rw [FileTree.eq_spelled_of_locate located]
    exact nodes_prefix_spelled relative noUp language isThere files

/-- A file system with a template in its place and with others elsewhere. -/
def strayTemplates : FileTree :=
  { FileTree.empty "/home" with
    entries :=
      [(["templates"], .directory),
       (["templates", "nodes"], .directory),
       (["templates", "nodes", "x.xml"], .file (.text "x")),
       (["templates", "segredo.xml"], .file (.text "s"))]
    elsewhere :=
      [(["segredo.xml"], .file (.text "s")),
       (["etc"], .directory),
       (["etc", "segredo.xml"], .file (.text "s"))] }

/--
A type can have a file read beside the directory of the method templates, one
above the directory of the program, and one under the root of the file system.
-/
theorem loadNode_reads_strayTemplates :
    strayTemplates.spelled Store.standard.nodes =
      ["home", "templates", "nodes"] ∧
      Method.normalizedType "../segredo" = "../segredo" ∧
      (Store.standard.loadNode (.text "../segredo")
        (.text Language.php.code)).Reads strayTemplates
          ["home", "templates", "segredo.xml"] ∧
      (Store.standard.loadNode (.text "../../../../segredo")
        (.text Language.php.code)).Reads strayTemplates ["segredo.xml"] ∧
      (Store.standard.loadNode (.text "/etc/segredo")
        (.text Language.php.code)).Reads strayTemplates ["etc", "segredo.xml"] ∧
      ∀ place, (Store.standard.loadNode (.text "x")
        (.text Language.php.code)).Reads strayTemplates place →
          ["home", "templates", "nodes"] <+: place := by
  have nodesAre :
      strayTemplates.spelled Store.standard.nodes =
        ["home", "templates", "nodes"] := by
    decide +kernel
  refine ⟨nodesAre, by decide +kernel, ?_, ?_, ?_, ?_⟩
  · exact ((loadNode_reads_iff_spelled _ _ _ _).1 _).mpr
      ⟨false, .text "s", eq_ok_of_toOption (by decide +kernel),
        eq_ok_of_toOption (by decide +kernel), by decide +kernel⟩
  · exact ((loadNode_reads_iff_spelled _ _ _ _).1 _).mpr
      ⟨false, .text "s", eq_ok_of_toOption (by decide +kernel),
        eq_ok_of_toOption (by decide +kernel), by decide +kernel⟩
  · exact ((loadNode_reads_iff_spelled _ _ _ _).1 _).mpr
      ⟨true, .text "s", eq_ok_of_toOption (by decide +kernel),
        eq_ok_of_toOption (by decide +kernel), by decide +kernel⟩
  · rw [← nodesAre]
    exact (loadNode_reads_iff_spelled _ _ _ _).2 (by decide +kernel)
      (by decide +kernel)

end Template.Store

end Flowgen
