import Flowgen.Proofs.Following
import Flowgen.Proofs.ShippedTemplates

namespace Flowgen.Template

/-!
# Where templates are found

A tree is equipped if the files that come with the program are in it and no
other templates are.  A class template is then found for every language, and a
method template that is found is one of those that come with the program.
-/

/--
A tree with the shipped files, without other templates or braces in names of
directories.
-/
structure Equipped (tree : FileTree) : Prop where
  shipped :
    ∀ file ∈ shippedFiles, tree.entry? file.1 = some (.file (.text file.2))
  directories : ∀ file ∈ shippedFiles, ∀ place, place <+: file.1.dropLast →
    tree.entry? place = some .directory
  noOthers : ∀ place name content,
    tree.entryAt? (place ++ [name]) = some (.file content) →
    Text.endsWith name ".xml" = true →
    ∃ file ∈ shippedFiles, place ++ [name] = tree.below file.1
  plainNames : ∀ place name, tree.entryAt? (place ++ [name]) = some .directory →
    '\x7b' ∉ name.toList

/-- The code of a class template, as it is used. -/
def classTemplate (language : Language) : String :=
  Text.trim (Text.ofLines (classCode language))

/-- A file with a template for a class or for a method. -/
inductive Templates : List String × String → Prop where
  | ofClass
      (place : List String)
      (language : Language) :
      Templates (place, Shipped.classDocument (classCode language))
  | ofMethod
      (place : List String)
      {name : String}
      {code : List String}
      (emptyLines : Nat)
      (plain : Markup.PlainName name.toList)
      (known : code ∈ methodCodes) :
      Templates (place, Shipped.methodDocument name code emptyLines)

/-- The shipped files that look like templates are templates. -/
theorem templates_of_endsWith :
    ∀ file ∈ shippedFiles, ∀ place name, file.1 = place ++ [name] →
      Text.endsWith name ".xml" = true → Templates file := by
  have methods : ∀ place name code emptyLines, Markup.PlainName name.toList →
      code ∈ methodCodes →
      Templates (place, Shipped.methodDocument name code emptyLines) :=
    fun place _ _ emptyLines plain known =>
      .ofMethod place emptyLines plain known
  have others : ∀ (file : List String × String) (path : List String),
      path.getLast?.all (fun name => !Text.endsWith name ".xml") = true →
      ∀ place name, path = place ++ [name] → Text.endsWith name ".xml" = true →
      Templates file := by
    intro file path isOther place name whole looks
    rw [whole, List.getLast?_concat, Option.all_some, looks] at isOther
    cases isOther
  simp only [shippedFiles, List.forall_mem_cons]
  refine ⟨?_, ?_, ?_, ?_, ?_, ?_, ?_, ?_, ?_,
    ?_, ?_, ?_, ?_, ?_, ?_, ?_, ?_, ?_,
    others _ _ (by decide), others _ _ (by decide), others _ _ (by decide),
    by simp⟩
  · exact fun _ _ _ _ => .ofClass _ .php
  · exact fun _ _ _ _ => .ofClass _ .python
  · exact fun _ _ _ _ => .ofClass _ .javascript
  all_goals
    exact fun _ _ _ _ => methods _ _ _ _ (by decide) (by simp [methodCodes])

theorem brace_not_mem_shippedFiles :
    ∀ file ∈ shippedFiles, ∀ name ∈ file.1, '\x7b' ∉ name.toList := by
  decide +kernel

theorem classCode_ne_nil
    (language : Language) :
    classCode language ≠ [] := by
  cases language <;> exact List.cons_ne_nil _ _

theorem methodCodes_ne_nil : ∀ code ∈ methodCodes, code ≠ [] := by
  simp only [methodCodes, List.forall_mem_cons]
  refine ⟨?_, ?_, ?_, ?_, ?_, ?_, ?_, ?_, ?_, ?_, ?_, ?_, ?_, ?_, ?_, by simp⟩
  all_goals exact List.cons_ne_nil _ _

section Loading

open Session

variable {template : NodeTemplate} {tree : FileTree} {path : Path}

variable {host after : Host}

theorem start_pathExists
    (path : Path) :
    (pathExists path).start host = (host.files.has path, host) :=
  start_lift (host.files.has path)

theorem start_readFile
    (path : Path) :
    (readFile path).start host = (host.files.read path, host) :=
  start_lift (host.files.read path)

theorem has_eq_true
    {entry : Entry}
    (found : tree.find path = .ok entry) :
    tree.has path = .ok true := by
  rw [FileTree.has, found]

theorem read_eq_ok
    {content : Content} :
    tree.read path = .ok content ↔ tree.find path = .ok (.file content) := by
  rw [FileTree.read, bind_eq_ok]
  constructor
  · rintro ⟨entry, found, isContent⟩
    cases entry with
    | directory =>
        cases isContent
    | file other =>
        cases isContent
        exact found
  · intro found
    exact ⟨.file content, found, rfl⟩

/-- The shipped files are found in an equipped tree. -/
theorem Equipped.find
    {file : List String × String}
    (equipped : Equipped tree)
    (isShipped : file ∈ shippedFiles) :
    tree.find ⟨"", file.1⟩ = .ok (.file (.text file.2)) := by
  have fits : ∀ file ∈ shippedFiles,
      file.1.any (fun part => part.toList.contains '\x00') = false ∧
      (Path.text ⟨"", file.1⟩).utf8ByteSize ≤ FileTree.pathLimit ∧
      (∀ name ∈ file.1, name ≠ ".." ∧ name.utf8ByteSize ≤ FileTree.nameLimit) ∧
      file.1 ≠ [] := by
    decide +kernel
  obtain ⟨noNull, short, namesFit, notNil⟩ := fits file isShipped
  exact FileTree.find_below rfl noNull short namesFit
    (equipped.directories file isShipped) notNil
    (equipped.shipped file isShipped)

/-- The class template of every language is found in an equipped tree. -/
theorem Equipped.loadClass
    (equipped : Equipped host.files)
    (language : Language) :
    (Store.standard.loadClass (.text language.code)).start host =
      (.ok (some (classTemplate language)), host) := by
  have place : Store.standard.classFile (.text language.code) =
      ⟨"", ["templates", "languages", language.code ++ ".xml"]⟩ := by
    cases language <;> decide +kernel
  have isShipped : (["templates", "languages", language.code ++ ".xml"],
      Shipped.classDocument (classCode language)) ∈ shippedFiles := by
    cases language <;> simp [shippedFiles, classCode, Language.code,
      Shipped.phpClass, Shipped.pythonClass, Shipped.javascriptClass]
  have found := equipped.find isShipped
  obtain ⟨document, parsed, isClass, _⟩ :=
    classText_classDocument (classCode_ne_nil language)
    fun line member => (fineLines_classCode language line member).1
  rw [Store.loadClass, place, start_bind, start_pathExists, has_eq_true found]
  simp only [if_true]
  rw [start_guarded, start_bind, start_readFile, read_eq_ok.mpr found]
  simp only [start_bind, start_lift, parsed, isClass, classTemplate]

/-- A method template has the code that its document was written with. -/
theorem method_of_parse
    {name : String}
    {code : List String}
    {emptyLines : Nat}
    {type : Value}
    {document : Markup.Element}
    (plain : Markup.PlainName name.toList)
    (known : code ∈ methodCodes)
    (parsed : Markup.parse (.text
      (Shipped.methodDocument name code emptyLines)) = .ok document)
    (isTemplate : Store.nodeTemplate type document = some template) :
    template.method = Text.trim (Text.ofLines code) := by
  obtain ⟨other, otherParsed, templateIs⟩ :=
    nodeTemplate_methodDocument plain (methodCodes_ne_nil code known)
      (fun line member => (fineLines_methodCodes code known line member).1)
        emptyLines
  rw [otherParsed, Except.ok.injEq] at parsed
  rw [← parsed, templateIs, Option.some.injEq] at isTemplate
  rw [← isTemplate]

/-- The last name of the place of a shipped file is that of the file. -/
theorem exists_front_of_below
    {place : Place}
    {name : String}
    {file : List String × String}
    (isShipped : file ∈ shippedFiles)
    (placeIs : place ++ [name] = tree.below file.1) :
    ∃ front, file.1 = front ++ [name] := by
  have notNil : ∀ file ∈ shippedFiles, file.1 ≠ [] := by
    decide +kernel
  refine ⟨file.1.dropLast, ?_⟩
  have last := congrArg List.getLast? placeIs
  rw [List.getLast?_concat, FileTree.below,
    List.getLast?_append_of_ne_nil _ (notNil file isShipped)] at last
  exact (List.dropLast_append_getLast? name last.symm).symm

/-- A method template that is found in an equipped tree is a shipped one. -/
theorem Equipped.method_of_find
    (equipped : Equipped tree)
    {type : String}
    {content : Content}
    {document : Markup.Element}
    (found : tree.find (path.join (type ++ ".xml")) = .ok (.file content))
    (parsed : Markup.parse content = .ok document)
    (isTemplate : Store.nodeTemplate (.text type) document = some template) :
    '\x7b' ∉ type.toList ∧
      ∃ code ∈ methodCodes, template.method =
        Text.trim (Text.ofLines code) := by
  obtain ⟨front, joined⟩ := path.join_parts (type ++ ".xml")
  have noSlash : '/' ∉ ".xml".toList := by decide
  obtain ⟨parts, last, partsAre⟩ :=
    Path.partsOf_append type.toList noSlash (by decide)
  have looks :
      Text.endsWith (String.ofList (last ++ ".xml".toList)) ".xml" = true := by
    have written : (String.ofList (last ++ ".xml".toList)).toList =
        last ++ ".xml".toList :=
      String.toList_ofList
    rw [Text.endsWith, written]
    exact List.isSuffixOf_iff_suffix.mpr (List.suffix_append _ _)
  have notUp : String.ofList (last ++ ".xml".toList) ≠ ".." := by
    intro isUp
    rw [isUp] at looks
    exact absurd looks (by decide)
  rw [String.toList_append, partsAre, ← List.append_assoc] at joined
  obtain ⟨⟨place, isEntry⟩, noBraces⟩ :=
    FileTree.find_eq_file joined notUp (by decide) equipped.plainNames found
  obtain ⟨file, isShipped, placeIs⟩ := equipped.noOthers _ _ _ isEntry looks
  have contentIs : content = .text file.2 := by
    have := equipped.shipped file isShipped
    rw [← FileTree.entryAt?_below, ← placeIs, isEntry] at this
    simpa using this
  obtain ⟨front, fileIs⟩ := exists_front_of_below isShipped placeIs
  refine ⟨fun member => ?_, ?_⟩
  · have inWhole : '\x7b' ∈ type.toList ++ ".xml".toList :=
      List.mem_append_left _ member
    obtain ⟨part, isPart, inPart⟩ :=
      Path.exists_mem_partsOf inWhole (by decide) (by decide)
    rw [partsAre, List.mem_append, List.mem_singleton] at isPart
    rcases isPart with isDirectory | isLast
    · exact noBraces part (List.mem_append_right _ isDirectory) inPart
    · refine brace_not_mem_shippedFiles file isShipped part ?_ inPart
      rw [fileIs, isLast]
      exact List.mem_append_right _ (List.mem_singleton.mpr rfl)
  · rw [contentIs] at parsed
    cases templates_of_endsWith file isShipped front _ fileIs looks with
    | ofClass _ language =>
        obtain ⟨other, otherParsed, _, noTemplate⟩ :=
          classText_classDocument (classCode_ne_nil language)
            fun line member => (fineLines_classCode language line member).1
        rw [otherParsed, Except.ok.injEq] at parsed
        rw [← parsed, noTemplate] at isTemplate
        cases isTemplate
    | @ofMethod _ _ code emptyLines plain known =>
        exact ⟨code, known, method_of_parse plain known parsed isTemplate⟩

theorem reports_nodeFile
    (store : Store)
    (type language : Value) :
    Reports (store.nodeFile type language) := by
  unfold Store.nodeFile
  refine .bind (.lift _) fun directory => .bind (.pathExists _) fun isThere =>
    ?_
  split
  · exact .pure _
  · exact .pure _

theorem reports_loadNode
    (store : Store)
    (type language : Value) :
    Reports (store.loadNode type language) := by
  unfold Store.loadNode
  refine .bind (reports_nodeFile store type language) fun file =>
    .bind (.pathExists file) fun isThere => ?_
  split
  · refine .guarded ?_ fun fault => .bind (.print _) fun _ => .pure none
    exact .bind (.readFile file) fun content => .bind (.lift _) fun document =>
      .pure _
  · exact .bind (.print _) fun _ => .pure none

/--
The file of a method template is the one for the language, if that is there.
-/
theorem nodeFile_eq_ok
    {store : Store}
    {type language : String}
    {file : Path}
    (found : (store.nodeFile (.text type) (.text language)).start host =
      (.ok file, after)) :
    (host.files.has (store.ownFile type language) = .ok true ∧
        file = store.ownFile type language) ∨
      (host.files.has (store.ownFile type language) = .ok false ∧
        file = store.commonFile type) := by
  unfold Store.nodeFile at found
  obtain ⟨directory, joined, found⟩ := lift_bind_start_eq_ok.mp found
  cases joined
  obtain ⟨isThere, between, asked, found⟩ := bind_start_eq_ok.mp found
  rw [start_pathExists, Prod.mk.injEq] at asked
  cases isThere with
  | true =>
      cases found
      exact .inl ⟨asked.1, rfl⟩
  | false =>
      cases found
      exact .inr ⟨asked.1, rfl⟩

/-- A method template that is loaded is what the document in its file says. -/
theorem loadNode_eq_some
    {store : Store}
    {type language : Value}
    (loaded : (store.loadNode type language).start host =
      (.ok (some template), after)) :
    ∃ file between content document,
      (store.nodeFile type language).start host = (.ok file, between) ∧
      host.files.find file = .ok (.file content) ∧
      Markup.parse content = .ok document ∧
      Store.nodeTemplate type document = some template := by
  unfold Store.loadNode at loaded
  obtain ⟨file, between, fileIs, loaded⟩ := bind_start_eq_ok.mp loaded
  have sameFiles : between.files = host.files := by
    have := (reports_nodeFile store type language).files_eq host
    rwa [fileIs] at this
  obtain ⟨isThere, there, asked, loaded⟩ := bind_start_eq_ok.mp loaded
  rw [start_pathExists, Prod.mk.injEq] at asked
  obtain ⟨_, rfl⟩ := asked
  cases isThere with
  | false =>
      obtain ⟨_, _, _, ended⟩ := bind_start_eq_ok.mp loaded
      cases ended
  | true =>
      rw [if_pos rfl, start_guarded] at loaded
      split at loaded
      · rename_i inner
        cases loaded
        obtain ⟨content, _, isRead, inner⟩ := bind_start_eq_ok.mp inner
        rw [start_readFile, Prod.mk.injEq, sameFiles] at isRead
        obtain ⟨document, isParsed, inner⟩ := lift_bind_start_eq_ok.mp inner
        rw [start_pure, Prod.mk.injEq, Except.ok.injEq] at inner
        exact ⟨file, between, content, document, fileIs, read_eq_ok.mp isRead.1,
          isParsed, inner.1⟩
      · split at loaded
        · cases loaded
        · obtain ⟨_, _, _, ended⟩ := bind_start_eq_ok.mp loaded
          cases ended

/-- A method template that is loaded from an equipped tree is a shipped one. -/
theorem Equipped.loadNode
    (equipped : Equipped host.files)
    {type language : String}
    (loaded : (Store.standard.loadNode (.text type) (.text language)).start
      host = (.ok (some template), after)) :
    '\x7b' ∉ type.toList ∧
      ∃ code ∈ methodCodes, template.method =
        Text.trim (Text.ofLines code) := by
  obtain ⟨file, between, content, document, fileIs, found, parsed,
    isTemplate⟩ :=
    loadNode_eq_some loaded
  have joined : ∃ path : Path, file = path.join (type ++ ".xml") := by
    obtain ⟨_, isOwn⟩ | ⟨_, isCommon⟩ := nodeFile_eq_ok fileIs
    · exact ⟨_, isOwn⟩
    · exact ⟨_, isCommon⟩
  obtain ⟨path, rfl⟩ := joined
  exact equipped.method_of_find found parsed isTemplate

end Loading

end Flowgen.Template
