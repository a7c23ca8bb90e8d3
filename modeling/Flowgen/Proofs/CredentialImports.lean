import Flowgen.Proofs.ClassLines
import Flowgen.Proofs.SavedCredentials

namespace Flowgen

/-!
# The files that a class loads its credentials from

A class has a line for each credential class that its agents need, and such a
line names a file.  After the class is saved that file is there in PHP, where
all credentials are in one file.  In Python it is there only if it was before,
and in JavaScript it never is: the line is written with a path that is not
filled in.
-/

open Template Session

namespace Class

/-- The text between the first two places of a mark in a line. -/
def enclosed (mark : Char) (line : String) : String :=
  String.ofList (((line.toList.dropWhile (· ≠ mark)).drop 1).takeWhile
    (· ≠ mark))

/--
The path that a line of a class loads, from the directory of the class in PHP
and in JavaScript, and by the name of a module in Python, which looks for it
among the credentials.
-/
def loadedPath : Language → String → Path
  | .php, line => .ofText ("output/php" ++ enclosed '\x27' line)
  | .python, line => .ofText
      ("output/credentials/" ++ enclosed ' ' line ++ ".py")
  | .javascript, line => .ofText ("output/javascript/" ++ enclosed '\x27' line)

/-- The line of a class that loads the credentials for a provider. -/
def loadLine : Language → Provider → String
  | .php, _ => "require_once __DIR__ . '/../credentials/Credentials.php';"
  | .python, provider => importLine Language.python.code
      provider.credentialClass
  | .javascript, provider =>
      importLine Language.javascript.code provider.credentialClass

/-- The lines of a class for the credentials that its providers need. -/
def importLines (language : Language) (used : List Provider) : List String :=
  (Provider.byClass.filter used.contains).map fun provider =>
    importLine language.code provider.credentialClass

/-- A path that leads to a file among the credentials. -/
def NamesCredentials (tree : FileTree) (path : Path) : Prop :=
  ∃ names content, names ≠ [] ∧
    tree.locate path = .ok (tree.below ("output" :: "credentials" :: names)) ∧
    tree.entry? ("output" :: "credentials" :: names) = some (.file content)

/--
The credentials for a provider can be loaded by a class that is saved in a
tree: in PHP unless a directory stands in the place of their file, in Python
if their module is there, and in JavaScript never.
-/
def Loadable (tree : FileTree) : Language → Provider → Prop
  | .php, _ => tree.entry? (Output.credentialsPlace .php) ≠ some .directory
  | .python, provider => ∃ content,
      tree.entry? ["output", "credentials", provider.credentialClass ++ ".py"] =
        some (.file content)
  | .javascript, _ => False

section Lines

variable {language : Language} {parts : Parts} {provider : Provider}
  {used : List Provider}

/-- The name of the placeholder for the imports. -/
def importName : Language → String
  | .php => "credentials_use"
  | .python => "credentials_import"
  | .javascript => "credentials_require"

theorem Parts.filled_importName
    (language : Language)
    (free : TagFree parts.imports.toList) :
    filled (parts.slots language) (tag (importName language).toList) =
      parts.imports.toList := by
  have member :
      ⟨importName language, parts.imports⟩ ∈ parts.slots language := by
    cases language <;> simp [slots, closingSlots, credentialSlots, importName]
  exact filled_tag_of_mem member free

/-- The imports stand in the class, on lines of their own. -/
theorem Parts.imports_infix_fill
    (language : Language)
    (free : TagFree parts.imports.toList) :
    '\n' :: (parts.imports.toList ++ ['\n']) <:+:
      (fill (classTemplate language) (parts.slots language)).toList := by
  have codeIs : ∃ front back, front ≠ [] ∧ back ≠ [] ∧ classCode language =
      front ++ ([placeholder (importName language)] ++ back) := by
    cases language with
    | php =>
        exact ⟨(classCode .php).take 4, (classCode .php).drop 5,
          List.cons_ne_nil _ _, List.cons_ne_nil _ _, rfl⟩
    | python =>
        exact ⟨(classCode .python).take 18, (classCode .python).drop 19,
          List.cons_ne_nil _ _, List.cons_ne_nil _ _, rfl⟩
    | javascript =>
        exact ⟨(classCode .javascript).take 9, (classCode .javascript).drop 10,
          List.cons_ne_nil _ _, List.cons_ne_nil _ _, rfl⟩
  obtain ⟨front, back, frontNotNil, backNotNil, codeIs⟩ := codeIs
  have found := rows_infix_fill (parts.named_slots language) codeIs
    ⟨frontNotNil, List.cons_ne_nil _ _, backNotNil⟩
  rwa [ofLines_singleton, placeholder_toList, filled_importName language free]
    at found

theorem Parts.require_infix_fill
    (parts : Parts)
    (provider : Provider) :
    '\n' :: ((loadLine .php provider).toList ++ ['\n']) <:+:
      (fill (classTemplate .php) (parts.slots .php)).toList := by
  have named := parts.named_slots .php
  have codeIs : classCode .php = (classCode .php).take 2 ++
      (["require_once __DIR__ . '/\x7b\x7bcredentials_path\x7d\x7d';"] ++
        (classCode .php).drop 3) :=
    rfl
  have found := rows_infix_fill named codeIs
    ⟨List.cons_ne_nil _ _, List.cons_ne_nil _ _, List.cons_ne_nil _ _⟩
  have pathFilled : filled (parts.slots .php) (tag "credentials_path".toList) =
      ("../credentials/Credentials" ++ Language.php.extension).toList :=
    filled_tag_of_mem (by simp [slots, closingSlots, credentialSlots])
      (.of_not_mem (by decide))
  have rowIs :
      "require_once __DIR__ . '/\x7b\x7bcredentials_path\x7d\x7d';".toList =
      "require_once __DIR__ . '".toList ++ '/' ::
        (tag "credentials_path".toList ++ '\x27' :: [';']) := by
    decide
  have startFree : TagFree "require_once __DIR__ . '".toList :=
    .of_not_mem (by decide)
  have endFree : TagFree [';'] := .of_not_mem (by decide)
  rw [ofLines_singleton, rowIs, filled_append_cons named (by decide),
    filled_append_cons named (by decide), pathFilled,
    filled_eq_self_of_tagFree named startFree,
    filled_eq_self_of_tagFree named endFree] at found
  have lineIs : (loadLine .php provider).toList =
      "require_once __DIR__ . '".toList ++ '/' ::
      (("../credentials/Credentials" ++ Language.php.extension).toList ++
        '\x27' :: [';']) := by
    rw [loadLine]
    decide
  rwa [lineIs]

theorem importLine_no_break
    (language : Language)
    (provider : Provider) :
    '\n' ∉ (importLine language.code provider.credentialClass).toList := by
  have inClass : '\n' ∉ provider.credentialClass.toList := by
    cases provider <;> decide
  cases language <;> simp [importLine, Language.code, inClass]

/-- The line for each provider that is used is a line of the imports. -/
theorem mem_splitOn_imports
    (language : Language)
    (isUsed : provider ∈ used) :
    (importLine language.code provider.credentialClass).toList ∈
      (Text.ofLines (importLines language used)).toList.splitOn '\n' := by
  have isNeeded : provider ∈ Provider.byClass.filter used.contains := by
    have known : provider ∈ Provider.byClass := by
      cases provider <;> decide
    exact List.mem_filter.mpr ⟨known, List.contains_iff_mem.mpr isUsed⟩
  have isLine : importLine language.code provider.credentialClass ∈
      importLines language used :=
    List.mem_map_of_mem (f := fun provider : Provider =>
      importLine language.code provider.credentialClass) isNeeded
  have noBreak :
      ∀ line ∈ (importLines language used).map String.toList, '\n' ∉ line := by
    simp only [importLines, List.forall_mem_map]
    exact fun provider _ => importLine_no_break language provider
  have notNil : (importLines language used).map String.toList ≠ [] :=
    List.ne_nil_of_mem (List.mem_map_of_mem isLine)
  rw [Text.ofLines, Text.join_toList, show "\n".toList = ['\n'] by decide,
    List.splitOn_intercalate '\n' noBreak notNil]
  exact List.mem_map_of_mem isLine

/--
The line that loads the credentials for a provider is a line of the class.
-/
theorem Parts.loadLine_mem_fill
    (free : TagFree parts.imports.toList)
    (importsAre : parts.imports = Text.ofLines (importLines language used))
    (isUsed : provider ∈ used) :
    (loadLine language provider).toList ∈
      (fill (classTemplate language) (parts.slots language)).toList.splitOn
        '\n' := by
  have isLine := Text.mem_splitOn_of_infix (imports_infix_fill language free)
    (importsAre ▸ mem_splitOn_imports language isUsed)
  cases language with
  | php =>
      refine Text.mem_splitOn_of_infix (parts.require_infix_fill provider) ?_
      rw [loadLine]
      decide
  | python =>
      exact isLine
  | javascript =>
      exact isLine

end Lines

section Files

variable {language : Language} {tree before after : FileTree}
  {provider : Provider}

/-- A path that leads to a place among the credentials names what is there. -/
theorem namesCredentials_of_locate
    {path : Path}
    {name : String}
    (located : tree.locate path =
      .ok (tree.below ["output", "credentials", name])) :
    NamesCredentials tree path ↔
      ∃ content, tree.entry? ["output", "credentials", name] =
        some (.file content) := by
  constructor
  · rintro ⟨names, content, _, otherLocated, isFile⟩
    have placeIs := List.append_cancel_left
      (Except.ok.inj (located.symm.trans otherLocated))
    rw [← placeIs] at isFile
    exact ⟨content, isFile⟩
  · rintro ⟨content, isFile⟩
    exact ⟨[name], content, List.cons_ne_nil _ _, located, isFile⟩

/--
From the directory of PHP classes the way leads up and to the credentials.
-/
theorem locate_required
    (ready : tree.Ready)
    (isDirectory : tree.entry? (Output.languagePlace .php) = some .directory) :
    tree.locate ⟨"", ["output", "php", "..", "credentials",
      "Credentials.php"]⟩ =
      .ok (tree.below ["output", "credentials", "Credentials.php"]) := by
  have down :
      ∀ {names rest} (name : String), tree.entry? names = some .directory →
      name ≠ ".." → name.utf8ByteSize ≤ FileTree.nameLimit →
      tree.follow (tree.below names) (name :: rest) =
        tree.follow (tree.below (names ++ [name])) rest := by
    intro names rest name here notUp short
    rw [← FileTree.entryAt?_below] at here
    rw [FileTree.follow_cons_of_directory here short,
      FileTree.child_below notUp]
  have up : tree.follow (tree.below ["output", "php"])
        ["..", "credentials", "Credentials.php"] =
      tree.follow (tree.below ["output"])
        ["credentials", "Credentials.php"] := by
    have here : tree.entry? ["output", "php"] = some .directory := isDirectory
    rw [← FileTree.entryAt?_below] at here
    have above :
        (tree.below ["output", "php"]).dropLast = tree.below ["output"] := by
      rw [← List.singleton_append, FileTree.below_append, List.dropLast_concat]
    rw [FileTree.follow_cons_of_directory here (by decide), FileTree.child,
      if_pos rfl, above]
  have followed : tree.follow (tree.rootPlace "")
      ["output", "php", "..", "credentials", "Credentials.php"] =
        .ok (tree.below ["output", "credentials", "Credentials.php"]) := by
    rw [FileTree.rootPlace, if_pos rfl, ← FileTree.below_nil]
    calc tree.follow (tree.below [])
          ["output", "php", "..", "credentials", "Credentials.php"]
        = tree.follow (tree.below ["output"])
            ["php", "..", "credentials", "Credentials.php"] :=
          down "output" rfl (by decide) (by decide)
      _ = tree.follow (tree.below ["output", "php"])
            ["..", "credentials", "Credentials.php"] :=
          down "php" ready.output (by decide) (by decide)
      _ = tree.follow (tree.below ["output"])
        ["credentials", "Credentials.php"] :=
          up
      _ = tree.follow (tree.below ["output", "credentials"])
        ["Credentials.php"] :=
          down "credentials" ready.output (by decide) (by decide)
      _ = tree.follow (tree.below ["output", "credentials", "Credentials.php"])
        [] :=
          down "Credentials.php" ready.credentials (by decide) (by decide)
      _ = .ok (tree.below ["output", "credentials", "Credentials.php"]) :=
          rfl
  rw [FileTree.locate, followed]
  rfl

theorem locate_module
    (ready : tree.Ready)
    (provider : Provider) :
    tree.locate (loadedPath .python (loadLine .python provider)) =
      .ok (tree.below ["output", "credentials",
        provider.credentialClass ++ ".py"]) := by
  have pathIs : loadedPath .python (loadLine .python provider) =
      ⟨"", ["output", "credentials", provider.credentialClass ++ ".py"]⟩ := by
    cases provider <;> decide +kernel
  rw [pathIs]
  exact ready.locate_in_credentials (by cases provider <;> decide)
    (by cases provider <;> decide) (by cases provider <;> decide)

/-- A path that is not filled in does not lead to the credentials. -/
theorem not_namesCredentials_javascript
    (tree : FileTree)
    (provider : Provider) :
    ¬ NamesCredentials tree (loadedPath .javascript
      (loadLine .javascript provider)) := by
  have pathIs : loadedPath .javascript (loadLine .javascript provider) =
      ⟨"", ["output", "javascript", "\x7bcredentials_path_base\x7d",
        provider.credentialClass ++ ".js"]⟩ := by
    cases provider <;> decide +kernel
  rw [pathIs]
  rintro ⟨names, _, _, located, _⟩
  have placeIs := FileTree.eq_append_of_locate (by cases provider <;> decide)
    located
  rw [FileTree.rootPlace, if_pos rfl] at placeIs
  simpa using List.append_cancel_left placeIs

/--
After code is saved, the line of its class for a provider names a file if it
is loadable.
-/
theorem namesCredentials_iff
    (beside : Generator.Beside language before after) :
    NamesCredentials after (loadedPath language (loadLine language provider)) ↔
      Loadable before language provider := by
  cases language with
  | php =>
      have pathIs : loadedPath .php (loadLine .php provider) =
          ⟨"", ["output", "php", "..", "credentials", "Credentials.php"]⟩ := by
        rw [loadLine]
        decide +kernel
      obtain ⟨entry, isEntry, wasDirectory⟩ := beside.credentials
      have isEntry : after.entry? ["output", "credentials", "Credentials.php"] =
          some entry :=
        isEntry
      rw [pathIs, namesCredentials_of_locate
        (locate_required beside.ready beside.directory),
        isEntry, Loadable, ne_eq, ← wasDirectory]
      cases entry <;> simp
  | python =>
      have isOther : provider.credentialClass ++ ".py" ≠
          "Credentials" ++ Language.python.extension := by
        cases provider <;> decide
      rw [namesCredentials_of_locate (locate_module beside.ready provider),
        beside.others _ isOther]
      rfl
  | javascript =>
      exact iff_of_false (not_namesCredentials_javascript after provider)
        not_false

end Files

namespace Generator

variable {language : Language} {workflow : Value} {code : String}
  {host between after : Host}

theorem files_of_generate
    {generator : Generator}
    {result : Except Fault (Option String)}
    (made : (generator.generate workflow).start host = (result, after)) :
    after.files = host.files := by
  have same := (reports_generate generator workflow).files_eq host
  rwa [made] at same

/--
A class that was generated and saved has the lines for the credentials of its
providers.  The line for a provider names a file among the credentials if and
only if these could be loaded from what was there before.
-/
theorem generate_save_loads_iff
    (equipped : Equipped host.files)
    (made : ((standard language .standard).generate workflow).start host =
      (.ok (some code), between))
    (saved : ((standard language .standard).save workflow (.text code)).start
      between = (.ok true, after)) :
    ∃ nodes elements used,
      workflow.get "nodes" (.list []) = .ok nodes ∧
      nodes.elements = .ok elements ∧
      providersOf elements = .ok used ∧
      '\n' :: ((Text.ofLines (importLines language used)).toList ++ ['\n']) <:+:
        code.toList ∧
      ∀ provider ∈ used,
        (loadLine language provider).toList ∈ code.toList.splitOn '\n' ∧
        (NamesCredentials after.files
          (loadedPath language (loadLine language provider)) ↔
          Loadable host.files language provider) := by
  have sameFiles := files_of_generate made
  rw [← sameFiles] at equipped
  have beside := beside_of_save equipped saved
  rw [sameFiles] at equipped beside
  obtain ⟨parts, madeOf, rfl⟩ := generate_eq_ok equipped made
  have importsMade : imports language.code workflow = .ok parts.imports :=
    madeOf.imports
  have free := tagFree_imports importsMade
  simp only [imports, bind_eq_ok, pure_eq_ok] at importsMade
  obtain ⟨nodes, areNodes, elements, areElements, used, areUsed, importsAre⟩ :=
    importsMade
  have importsAre : parts.imports = Text.ofLines (importLines language used) :=
    importsAre.symm
  have stands := Parts.imports_infix_fill language free
  rw [importsAre] at stands
  exact ⟨nodes, elements, used, areNodes, areElements, areUsed, stands,
    fun provider isUsed =>
      ⟨Parts.loadLine_mem_fill free importsAre isUsed,
        namesCredentials_iff beside⟩⟩

/--
Surroundings with the files that come with the program and the directories for
output.
-/
def readyHost : Host :=
  { freshHost with files := freshHost.files.prepared }

theorem equipped_readyHost : Equipped readyHost.files := by
  dsimp only [readyHost]
  exact equipped_freshHost.prepared

theorem exists_saved_question :
    ∃ code between after,
      ((standard .python .standard).generate question).start readyHost =
        (.ok (some code), between) ∧
      ((standard .python .standard).save question (.text code)).start between =
        (.ok true, after) := by
  have noOwn : NoOwn readyHost.files .python "aiAgent" := by
    intro isPhp
    cases isPhp
  have coded : ∃ code,
      ((Method.ofNode .standard Language.python.code asker).start readyHost).1 =
        .ok code :=
    Method.exists_ofNode_eq equipped_readyHost noOwn rfl (by decide +kernel)
      (show ("aiAgent", Shipped.pythonAgentCode) ∈ typedCodes .python by
        simp [typedCodes])
      (by decide +kernel)
  obtain ⟨code, between, made⟩ :=
    exists_generate_of_coded equipped_readyHost .standard coded
  -- Saving goes as well for one code as for another, so an empty one is
  -- enough to evaluate.
  have savedAmong :
      (((standard .python .standard).save question (.text "")).among .asAdded
        readyHost.files).1 = .ok true :=
    eq_ok_of_toOption (by decide +kernel)
  have savedEmpty :
      (((standard .python .standard).save question (.text "")).start
        between).1 = .ok true := by
    obtain ⟨printed, ended⟩ :=
      (reports_generate _ question).exists_printed readyHost
    rw [made] at ended
    have sameOrder : between.setOrder = .asAdded := congrArg Host.setOrder ended
    rw [((local_save _ question "").start_facts between).1,
      files_of_generate made, sameOrder, savedAmong]
  obtain ⟨after, saved⟩ := exists_save_eq_ok (Prod.ext savedEmpty rfl) code
  exact ⟨code, between, after, made, saved⟩

/--
The class for the question loads credentials from a file that is not there.
-/
theorem generate_save_question_loads_nothing :
    Equipped readyHost.files ∧
    ∃ code between after,
      ((standard .python .standard).generate question).start readyHost =
        (.ok (some code), between) ∧
      ((standard .python .standard).save question (.text code)).start between =
        (.ok true, after) ∧
      "from OpenAICredentials import OpenAICredentials".toList ∈
      code.toList.splitOn '\n' ∧
      ¬ NamesCredentials after.files
        (loadedPath .python
          "from OpenAICredentials import OpenAICredentials") := by
  obtain ⟨code, between, after, made, saved⟩ := exists_saved_question
  obtain ⟨nodes, elements, used, areNodes, areElements, areUsed, _, loads⟩ :=
    generate_save_loads_iff equipped_readyHost made saved
  cases areNodes
  cases areElements
  have usedIs : providersOf [asker] = .ok [.openAI] :=
    eq_ok_of_toOption (by decide +kernel)
  obtain rfl := Except.ok.inj (usedIs.symm.trans areUsed)
  have lineIs : loadLine .python .openAI =
      "from OpenAICredentials import OpenAICredentials" := by
    decide
  obtain ⟨isLine, names_iff⟩ := loads .openAI List.mem_cons_self
  rw [lineIs] at isLine names_iff
  refine ⟨equipped_readyHost, code, between, after, made, saved, isLine, ?_⟩
  rw [names_iff]
  rintro ⟨content, isThere⟩
  have nothing : readyHost.files.entry?
      ["output", "credentials", Provider.openAI.credentialClass ++ ".py"] =
        none := by
    decide +kernel
  rw [nothing] at isThere
  cases isThere

end Generator

end Class

end Flowgen
