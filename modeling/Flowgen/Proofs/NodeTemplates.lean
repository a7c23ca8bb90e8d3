import Flowgen.Proofs.FileNames
import Flowgen.Proofs.GeneratedMethods
import Flowgen.Proofs.Permissions

namespace Flowgen

/-!
# The templates that nodes have

A node has the template that is found for its type, or none.  Every template
is written in one language, and a type that is a plain name only ever finds a
template in the language that is asked for: the templates of other languages
can be reached by types that are written like paths.
-/

open Template Session

namespace Template

open Shipped in
/-- The codes of the method templates that are written in a language. -/
def codesOf : Language → List (List String)
  | .php =>
      [phpFunctionCode, phpHttpRequestCode, phpIfCode, phpSetCode, phpAgentCode]
  | .python =>
      [pythonFunctionCode, pythonHttpRequestCode, pythonIfCode, pythonSetCode,
        pythonAgentCode]
  | .javascript =>
      [javascriptFunctionCode, javascriptHttpRequestCode, javascriptIfCode,
       javascriptSetCode, javascriptAgentCode]

variable {lines : List String} {language : Language}

theorem methodCodes_eq :
    methodCodes = codesOf .php ++ (codesOf .python ++ codesOf .javascript) :=
  rfl

theorem exists_mem_codesOf
    (known : lines ∈ methodCodes) :
    ∃ language, lines ∈ codesOf language := by
  rw [methodCodes_eq, List.mem_append, List.mem_append] at known
  rcases known with isPhp | isPython | isJavascript
  · exact ⟨.php, isPhp⟩
  · exact ⟨.python, isPython⟩
  · exact ⟨.javascript, isJavascript⟩

open Shipped in
/--
The types of nodes that have a template in a language, with the code of the
template.
-/
def typedCodes : Language → List (String × List String)
  | .php =>
      [("function", phpFunctionCode), ("httpRequest", phpHttpRequestCode),
       ("if", phpIfCode), ("set", phpSetCode), ("aiAgent", phpAgentCode)]
  | .python =>
      [("function", pythonFunctionCode), ("httpRequest", pythonHttpRequestCode),
       ("if", pythonIfCode), ("set", pythonSetCode),
       ("aiAgent", pythonAgentCode)]
  | .javascript =>
      [("function", javascriptFunctionCode),
        ("httpRequest", javascriptHttpRequestCode),
       ("if", javascriptIfCode), ("set", javascriptSetCode),
       ("aiAgent", javascriptAgentCode)]

theorem mem_codesOf
    {type : String}
    (known : (type, lines) ∈ typedCodes language) :
    lines ∈ codesOf language := by
  have codes : (typedCodes language).map Prod.snd = codesOf language := by
    cases language <;> rfl
  rw [← codes]
  exact List.mem_map_of_mem known

theorem mem_methodCodes
    (known : lines ∈ codesOf language) :
    lines ∈ methodCodes := by
  rw [methodCodes_eq, List.mem_append, List.mem_append]
  cases language with
  | php =>
      exact .inl known
  | python =>
      exact .inr (.inl known)
  | javascript =>
      exact .inr (.inr known)

/--
The files of the method templates in a language, by their names in its
directory.
-/
def methodFiles : Language → List (String × String)
  | .php =>
      [("function.xml", Shipped.phpFunction),
        ("httpRequest.xml", Shipped.phpHttpRequest),
       ("if.xml", Shipped.phpIf), ("set.xml", Shipped.phpSet),
       ("aiAgent.xml", Shipped.phpAgent)]
  | .python =>
      [("function.xml", Shipped.pythonFunction),
        ("httpRequest.xml", Shipped.pythonHttpRequest),
       ("if.xml", Shipped.pythonIf), ("set.xml", Shipped.pythonSet),
       ("aiAgent.xml", Shipped.pythonAgent)]
  | .javascript =>
      [("function.xml", Shipped.javascriptFunction),
       ("httpRequest.xml", Shipped.javascriptHttpRequest),
       ("if.xml", Shipped.javascriptIf),
       ("set.xml", Shipped.javascriptSet),
       ("aiAgent.xml", Shipped.javascriptAgent)]

/--
The directory of the method templates in a language; those in PHP are for all
languages.
-/
def methodDirectory : Language → List String
  | .php => ["templates", "nodes"]
  | .python => ["templates", "nodes", "python"]
  | .javascript => ["templates", "nodes", "javascript"]

/-- The files of the method templates in a language, by their places. -/
def placedFiles (language : Language) : List (List String × String) :=
  (methodFiles language).map fun file =>
    (methodDirectory language ++ [file.1], file.2)

theorem shippedFiles_eq :
    shippedFiles = shippedFiles.take 3 ++
      (placedFiles .php ++ (placedFiles .python ++ (placedFiles .javascript ++
        shippedFiles.drop 18))) :=
  rfl

theorem methodFiles_names
    (language : Language) :
    (methodFiles language).map Prod.fst =
      ["function.xml", "httpRequest.xml", "if.xml", "set.xml",
        "aiAgent.xml"] := by
  cases language <;> rfl

theorem mem_shippedFiles
    {file : String × String}
    (member : file ∈ methodFiles language) :
    (methodDirectory language ++ [file.1], file.2) ∈ shippedFiles := by
  have isPlaced :
      (methodDirectory language ++ [file.1], file.2) ∈ placedFiles language :=
    List.mem_map_of_mem (f := fun file : String × String =>
      (methodDirectory language ++ [file.1], file.2)) member
  rw [shippedFiles_eq]
  simp only [List.mem_append]
  cases language with
  | php =>
      exact .inr (.inl isPlaced)
  | python =>
      exact .inr (.inr (.inl isPlaced))
  | javascript =>
      exact .inr (.inr (.inr (.inl isPlaced)))

/-- Only method templates lie in the directories of method templates. -/
theorem exists_methodFile_of_place
    {file : List String × String}
    (isShipped : file ∈ shippedFiles)
    (inNodes : file.1[1]? = some "nodes") :
    ∃ language, file ∈ placedFiles language := by
  have others : ∀ other ∈ shippedFiles.take 3 ++ shippedFiles.drop 18,
      other.1[1]? ≠ some "nodes" := by
    decide +kernel
  rw [shippedFiles_eq] at isShipped
  simp only [List.mem_append] at isShipped others
  rcases isShipped with isFirst | isPhp | isPython | isJavascript | isLast
  · exact absurd inNodes (others file (.inl isFirst))
  · exact ⟨.php, isPhp⟩
  · exact ⟨.python, isPython⟩
  · exact ⟨.javascript, isJavascript⟩
  · exact absurd inNodes (others file (.inr isLast))

theorem exists_code_of_mem_methodFiles
    (language : Language) :
    ∀ file ∈ methodFiles language, ∃ type name lines emptyLines,
      file.1 = type ++ ".xml" ∧ (type, lines) ∈ typedCodes language ∧
      Markup.PlainName name.toList ∧
      file.2 = Shipped.methodDocument name lines emptyLines := by
  cases language
  all_goals
    simp only [methodFiles, typedCodes, List.forall_mem_cons]
    refine ⟨⟨"function", ?_⟩, ⟨"httpRequest", ?_⟩, ⟨"if", ?_⟩, ⟨"set", ?_⟩,
      ⟨"aiAgent", ?_⟩, by simp⟩
    all_goals exact ⟨_, _, _, by decide +kernel, by simp, by decide, rfl⟩

open Shipped in
/--
The types with a template are plain, and there is a file for each of them.
-/
theorem exists_file_of_mem_typedCodes
    (language : Language) :
    ∀ typed ∈ typedCodes language, '/' ∉ typed.1.toList ∧
      ∃ name emptyLines, Markup.PlainName name.toList ∧
        (typed.1 ++ ".xml", methodDocument name typed.2 emptyLines) ∈
        methodFiles language := by
  cases language with
  | php =>
      simp only [typedCodes, methodFiles, List.forall_mem_cons]
      refine ⟨⟨by decide, "function", 2, ?_⟩, ⟨by decide, "httpRequest", 2, ?_⟩,
        ⟨by decide, "if", 2, ?_⟩, ⟨by decide, "set", 2, ?_⟩,
        ⟨by decide, "aiAgent", 1, ?_⟩, by simp⟩
      all_goals exact ⟨by decide, by
        simp [phpFunction, phpHttpRequest, phpIf, phpSet, phpAgent]⟩
  | python =>
      simp only [typedCodes, methodFiles, List.forall_mem_cons]
      refine ⟨⟨by decide, "function", 2, ?_⟩, ⟨by decide, "httpRequest", 2, ?_⟩,
        ⟨by decide, "if", 2, ?_⟩, ⟨by decide, "set", 2, ?_⟩,
        ⟨by decide, "aiAgent", 2, ?_⟩, by simp⟩
      all_goals exact ⟨by decide, by
        simp [pythonFunction, pythonHttpRequest, pythonIf, pythonSet,
          pythonAgent]⟩
  | javascript =>
      simp only [typedCodes, methodFiles, List.forall_mem_cons]
      refine ⟨⟨by decide, "function", 2, ?_⟩, ⟨by decide, "httpRequest", 2, ?_⟩,
        ⟨by decide, "if", 2, ?_⟩, ⟨by decide, "set", 2, ?_⟩,
        ⟨by decide, "aiAgent", 2, ?_⟩, by simp⟩
      all_goals exact ⟨by decide, by
        simp [javascriptFunction, javascriptHttpRequest, javascriptIf,
          javascriptSet, javascriptAgent]⟩

theorem entry?_of_find
    {tree : FileTree}
    {parts : List String}
    {content : Content}
    (noUp : ".." ∉ parts)
    (found : tree.find ⟨"", parts⟩ = .ok (.file content)) :
    tree.entry? parts = some (.file content) := by
  unfold FileTree.find at found
  obtain ⟨place, located, isEntry⟩ := bind_eq_ok.mp found
  obtain rfl := FileTree.eq_below_of_locate noUp located
  rw [FileTree.entryAt?_below] at isEntry
  split at isEntry
  · rename_i entry isThere
    cases isEntry
    exact isThere
  · cases isEntry

section Loading

variable {host after : Host} {type : String} {template : NodeTemplate}

/--
A template with a plain name is looked for in the directory of the language
first.
-/
theorem join_plain
    (noSlash : '/' ∉ type.toList)
    (language : Language) :
    Store.standard.ownFile type language.code =
        ⟨"", ["templates", "nodes", language.code, type ++ ".xml"]⟩ ∧
      Store.standard.commonFile type =
        ⟨"", ["templates", "nodes", type ++ ".xml"]⟩ ∧
      type ++ ".xml" ≠ ".." := by
  have long :
      ∀ short : String, short.toList.length ≤ 2 → type ++ ".xml" ≠ short := by
    rintro _ isShort rfl
    rw [String.toList_append, List.length_append] at isShort
    have : ".xml".toList.length = 4 := by decide
    omega
  have isComponent : Path.IsComponent (type ++ ".xml") := by
    refine ⟨?_, long _ (by decide), long _ (by decide), long _ (by decide)⟩
    rw [String.toList_append, List.mem_append, not_or]
    exact ⟨noSlash, by decide⟩
  have own : Store.standard.nodes.join language.code =
      ⟨"", ["templates", "nodes", language.code]⟩ := by
    cases language <;> decide +kernel
  have common : Store.standard.nodes = ⟨"", ["templates", "nodes"]⟩ := by
    decide +kernel
  refine ⟨?_, ?_, isComponent.notUp⟩
  · rw [Store.ownFile, own, Path.join_component _ isComponent]
    rfl
  · rw [Store.commonFile, common, Path.join_component _ isComponent]
    rfl

/--
A file that looks like a template, in a directory of templates, is one of a
known language.
-/
theorem Equipped.exists_methodFile
    {tree : FileTree}
    {place : List String}
    {name : String}
    {content : Content}
    (equipped : Equipped tree)
    (inNodes : (place ++ [name])[1]? = some "nodes")
    (looks : Text.endsWith name ".xml" = true)
    (isEntry : tree.entry? (place ++ [name]) = some (.file content)) :
    ∃ language, ∃ file ∈ methodFiles language,
    place = methodDirectory language ∧
      name = file.1 ∧ content = .text file.2 := by
  have isThere :
      tree.entryAt? (tree.below place ++ [name]) = some (.file content) := by
    rwa [← FileTree.below_append, FileTree.entryAt?_below]
  obtain ⟨shipped, isShipped, placeIs⟩ :=
    equipped.noOthers _ name content isThere looks
  have shippedIs : shipped.1 = place ++ [name] :=
    tree.below_injective (placeIs.symm.trans
      (tree.below_append place [name]).symm)
  have contentIs : content = .text shipped.2 := by
    have sameEntry := equipped.shipped shipped isShipped
    rw [shippedIs, isEntry] at sameEntry
    simpa using sameEntry
  obtain ⟨language, isPlaced⟩ :=
    exists_methodFile_of_place isShipped (shippedIs ▸ inNodes)
  obtain ⟨file, isFile, rfl⟩ := List.mem_map.mp isPlaced
  obtain ⟨samePlace, sameName⟩ := List.append_inj' shippedIs rfl
  exact ⟨language, file, isFile, samePlace.symm,
    (List.singleton_inj.mp sameName).symm, contentIs⟩

theorem methodDirectory_eq
    {other : Language}
    (same : ["templates", "nodes", language.code] = methodDirectory other) :
    language = other := by
  cases language <;> cases other <;> first | rfl | exact absurd same (by decide)

theorem methodDirectory_of_ne
    (isOther : language ≠ .php) :
    methodDirectory language = ["templates", "nodes", language.code] := by
  cases language with
  | php =>
      exact absurd rfl isOther
  | python =>
      rfl
  | javascript =>
      rfl

/--
A template that is found under a plain name is the one of that name in the
language.
-/
theorem Equipped.exists_own_code
    (equipped : Equipped host.files)
    (noSlash : '/' ∉ type.toList)
    (loaded : (Store.standard.loadNode (.text type) (.text language.code)).start
      host = (.ok (some template), after)) :
    ∃ lines, (type, lines) ∈ typedCodes language ∧
      template.method = Text.trim (Text.ofLines lines) := by
  obtain ⟨file, between, content, document, fileIs, found, parsed,
    isTemplate⟩ :=
    loadNode_eq_some loaded
  obtain ⟨own, common, notUp⟩ := join_plain noSlash language
  have looks : Text.endsWith (type ++ ".xml") ".xml" = true := by
    rw [Text.endsWith, String.toList_append]
    exact List.isSuffixOf_iff_suffix.mpr (List.suffix_append _ _)
  have fileFor : ∃ other ∈ methodFiles language, type ++ ".xml" = other.1 ∧
      content = .text other.2 := by
    obtain ⟨_, rfl⟩ | ⟨missing, rfl⟩ := nodeFile_eq_ok fileIs
    · rw [own] at found
      have noUp :
          ".." ∉ ["templates", "nodes", language.code, type ++ ".xml"] := by
        cases language <;> simp [Language.code, notUp.symm]
      obtain ⟨source, other, isFile, placeIs, nameIs, contentIs⟩ :=
        @Equipped.exists_methodFile _ ["templates", "nodes", language.code] _ _
          equipped rfl looks (entry?_of_find noUp found)
      obtain rfl := methodDirectory_eq placeIs
      exact ⟨other, isFile, nameIs, contentIs⟩
    · rw [common] at found
      have noUp : ".." ∉ ["templates", "nodes", type ++ ".xml"] := by
        simp [notUp.symm]
      obtain ⟨source, other, isFile, placeIs, nameIs, contentIs⟩ :=
        @Equipped.exists_methodFile _ ["templates", "nodes"] _ _ equipped rfl
          looks (entry?_of_find noUp found)
      obtain rfl : source = .php := by
        cases source <;> first | rfl | exact absurd placeIs (by decide)
      by_cases isPhp : language = .php
      · exact ⟨other, isPhp ▸ isFile, nameIs, contentIs⟩
      · -- A language with templates of its own has one for this type, so the
        -- common one is not used.
        have named : other.1 ∈ (methodFiles language).map Prod.fst := by
          rw [methodFiles_names, ← methodFiles_names .php]
          exact List.mem_map_of_mem isFile
        obtain ⟨mine, isMine, sameName⟩ := List.mem_map.mp named
        have isThere := has_eq_true (equipped.find (mem_shippedFiles isMine))
        rw [methodDirectory_of_ne isPhp, sameName, ← nameIs] at isThere
        rw [own] at missing
        cases isThere.symm.trans missing
  obtain ⟨other, isFile, nameIs, rfl⟩ := fileFor
  obtain ⟨ownType, name, lines, emptyLines, fileName, known, plain,
    documentIs⟩ :=
    exists_code_of_mem_methodFiles language other isFile
  obtain rfl : type = ownType :=
    (String.append_left_inj _).mp (nameIs.trans fileName)
  rw [documentIs] at parsed
  exact ⟨lines, known, method_of_parse plain
    (mem_methodCodes (mem_codesOf known)) parsed isTemplate⟩

/--
Nothing is kept for PHP alone under the name of a type, whose template is for
all languages.
-/
def NoOwn (tree : FileTree) (language : Language) (type : String) : Prop :=
  language = .php →
    tree.has ⟨"", ["templates", "nodes", language.code, type ++ ".xml"]⟩ =
      .ok false

/-- The file of a template is looked for in the directory of its language. -/
theorem Equipped.nodeFile_eq
    (equipped : Equipped host.files)
    (noOwn : NoOwn host.files language type)
    (known : (type, lines) ∈ typedCodes language) :
    (Store.standard.nodeFile (.text type) (.text language.code)).start host =
      (.ok ⟨"", methodDirectory language ++ [type ++ ".xml"]⟩, host) := by
  obtain ⟨noSlash, _, _, _, isFile⟩ :=
    exists_file_of_mem_typedCodes language _ known
  obtain ⟨own, common, _⟩ := join_plain noSlash language
  have part : Path.partOfValue (.text language.code) = .ok language.code := rfl
  have display : (Value.text type).display = type := rfl
  rw [Store.nodeFile, display, part, start_bind, start_lift]
  dsimp only
  rw [own, start_bind, start_pathExists]
  by_cases isPhp : language = .php
  · rw [noOwn isPhp, common, isPhp]
    rfl
  · have isThere := has_eq_true (equipped.find (mem_shippedFiles isFile))
    rw [methodDirectory_of_ne isPhp] at isThere ⊢
    dsimp only [List.cons_append, List.nil_append] at isThere ⊢
    rw [isThere]
    rfl

/-- A method template is what the document in its file says. -/
theorem loadNode_of_find
    {store : Store}
    {type language : Value}
    {file : Path}
    {content : Content}
    {document : Markup.Element}
    (fileIs : (store.nodeFile type language).start host = (.ok file, host))
    (found : host.files.find file = .ok (.file content))
    (parsed : Markup.parse content = .ok document) :
    (store.loadNode type language).start host =
      (.ok (Store.nodeTemplate type document), host) := by
  rw [Store.loadNode, start_bind, fileIs]
  dsimp only
  rw [start_bind, start_pathExists, has_eq_true found]
  simp only [if_true]
  rw [start_guarded, start_bind, start_readFile, read_eq_ok.mpr found]
  simp only [start_bind, start_lift, start_pure, parsed]

/-- The template for a type is found in an equipped tree. -/
theorem Equipped.exists_loadNode_eq
    (equipped : Equipped host.files)
    (noOwn : NoOwn host.files language type)
    (known : (type, lines) ∈ typedCodes language) :
    ∃ name, (Store.standard.loadNode (.text type) (.text language.code)).start
      host = (.ok (some ⟨name, Text.trim (Text.ofLines lines)⟩), host) := by
  obtain ⟨_, name, emptyLines, plain, isFile⟩ :=
    exists_file_of_mem_typedCodes language _ known
  have isCode := mem_methodCodes (mem_codesOf known)
  obtain ⟨document, parsed, isTemplate⟩ := nodeTemplate_methodDocument plain
    (methodCodes_ne_nil _ isCode)
    (fun line member => (fineLines_methodCodes _ isCode line member).1)
      emptyLines
  have found := equipped.find (mem_shippedFiles isFile)
  exact ⟨_, by
    rw [loadNode_of_find (equipped.nodeFile_eq noOwn known) found parsed,
      isTemplate]⟩

end Loading

end Template

namespace Method

variable {host : Host} {language : Language} {node : Value} {code : String}
  {lines : List String}

/-- The template with some lines is found for the type of a node. -/
structure HasTemplate
    (host : Host)
    (language : Language)
    (node : Value)
    (lines : List String) : Prop where
  known : lines ∈ methodCodes
  found : ∃ written template after,
    node.get "type" (.text "") = .ok (.text written) ∧
    (Store.standard.loadNode (.text (normalizedType written))
      (.text language.code)).start host = (.ok (some template), after) ∧
    template.method = Text.trim (Text.ofLines lines)

/-- No template is found for the type of a node. -/
def LacksTemplate (host : Host) (language : Language) (node : Value) : Prop :=
  ∃ written after,
    node.get "type" (.text "") = .ok (.text written) ∧
    (Store.standard.loadNode (.text (normalizedType written))
      (.text language.code)).start host = (.ok none, after)

/--
The method of a node is its template with the placeholders filled, or the
plain method.
-/
theorem ofNode_cases
    (equipped : Equipped host.files)
    (made : ((ofNode .standard language.code node).start host).1 = .ok code) :
    (∃ lines type slots, HasTemplate host language node lines ∧
        '\x7b' ∉ type.toList ∧ Method.slots node type = .ok slots ∧
        code = fill (Text.trim (Text.ofLines lines)) slots) ∨
      (LacksTemplate host language node ∧ defaultMethod node = .ok code) := by
  obtain ⟨written, _, between, typed, loaded,
    ⟨template, rfl, made⟩ | ⟨rfl, made⟩⟩ :=
    ofNode_eq_ok made
  · obtain ⟨noBrace, lines, known, templateIs⟩ := equipped.loadNode loaded
    rw [templateIs] at made
    obtain ⟨slots, slotsMade, made⟩ := bind_eq_ok.mp made
    exact .inl ⟨lines, _, slots,
      ⟨known, written, template, between, typed, loaded, templateIs⟩,
      noBrace, slotsMade, (pure_eq_ok.mp made).symm⟩
  · exact .inr ⟨⟨written, between, typed, loaded⟩, made⟩

/-- A node of a type with a template has the method that the template gives. -/
theorem start_ofNode_eq
    {written type : String}
    (equipped : Equipped host.files)
    (noOwn : NoOwn host.files language type)
    (typed : node.get "type" (.text "") = .ok (.text written))
    (isType : normalizedType written = type)
    (known : (type, lines) ∈ typedCodes language) :
    ((ofNode .standard language.code node).start host).1 =
      ofTemplate (Text.trim (Text.ofLines lines)) node type := by
  obtain ⟨name, loaded⟩ := equipped.exists_loadNode_eq noOwn known
  rw [← isType] at loaded ⊢
  rw [start_ofNode_of_load typed loaded, Option.elim_some]

/--
A node of a type with a template has a method if its placeholders can be
filled.
-/
theorem exists_ofNode_eq
    {written type : String}
    (equipped : Equipped host.files)
    (noOwn : NoOwn host.files language type)
    (typed : node.get "type" (.text "") = .ok (.text written))
    (isType : normalizedType written = type)
    (known : (type, lines) ∈ typedCodes language)
    (filled : (Method.slots node type).isOk = true) :
    ∃ code, ((ofNode .standard language.code node).start host).1 =
      .ok code := by
  obtain ⟨slots, made⟩ := exists_eq_ok_of_isOk filled
  rw [start_ofNode_eq equipped noOwn typed isType known, ofTemplate, made]
  exact ⟨_, rfl⟩

theorem hasTemplate_of_typed
    {written type : String}
    (equipped : Equipped host.files)
    (noOwn : NoOwn host.files language type)
    (typed : node.get "type" (.text "") = .ok (.text written))
    (isType : normalizedType written = type)
    (known : (type, lines) ∈ typedCodes language) :
    HasTemplate host language node lines := by
  obtain ⟨name, loaded⟩ := equipped.exists_loadNode_eq noOwn known
  rw [← isType] at loaded
  exact ⟨mem_methodCodes (mem_codesOf known), written, _, host, typed, loaded,
    rfl⟩

theorem HasTemplate.unique
    {others : List String}
    (found : HasTemplate host language node lines)
    (alsoFound : HasTemplate host language node others) :
    Text.trim (Text.ofLines lines) = Text.trim (Text.ofLines others) := by
  obtain ⟨written, template, _, typed, loaded, templateIs⟩ := found.found
  obtain ⟨other, otherTemplate, _, otherTyped, otherLoaded, otherIs⟩ :=
    alsoFound.found
  obtain rfl := Value.text.inj (Except.ok.inj (typed.symm.trans otherTyped))
  have sameTemplate := congrArg Prod.fst (loaded.symm.trans otherLoaded)
  obtain rfl := Option.some.inj (Except.ok.inj sameTemplate)
  exact templateIs.symm.trans otherIs

theorem HasTemplate.not_lacksTemplate
    (found : HasTemplate host language node lines) :
    ¬ LacksTemplate host language node := by
  rintro ⟨other, _, otherTyped, missing⟩
  obtain ⟨written, template, _, typed, loaded, _⟩ := found.found
  obtain rfl := Value.text.inj (Except.ok.inj (typed.symm.trans otherTyped))
  cases loaded.symm.trans missing

/--
A template for a plain type is the one for that type in the language that is
asked for.
-/
theorem HasTemplate.own
    {written : String}
    (equipped : Equipped host.files)
    (hasTemplate : HasTemplate host language node lines)
    (typed : node.get "type" (.text "") = .ok (.text written))
    (noSlash : '/' ∉ (normalizedType written).toList) :
    ∃ own, (normalizedType written, own) ∈ typedCodes language ∧
      HasTemplate host language node own := by
  obtain ⟨other, template, after, isOther, loaded, _⟩ := hasTemplate.found
  obtain rfl := Value.text.inj (Except.ok.inj (typed.symm.trans isOther))
  obtain ⟨own, isOwn, templateIs⟩ := equipped.exists_own_code noSlash loaded
  exact ⟨own, isOwn, mem_methodCodes (mem_codesOf isOwn), written, template,
    after, typed, loaded, templateIs⟩

end Method

end Flowgen
