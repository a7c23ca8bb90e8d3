import Flowgen.Proofs.GeneratedClass

namespace Flowgen

/-!
# Methods that are declared twice

The names of nodes may differ where their methods do not.  Two methods have
the same name if and only if the names of their nodes have the same parts, and
a method has the name of one in the class template, up to case, if and only if
the words of the node's name spell it.
-/

namespace Naming

variable {text : String} {node : Value}

/-- The method for a node that goes by a text. -/
def methodFor (text : String) : String :=
  methodNameOf (String.ofList (camelCase text.toList))

theorem methodFor_eq_iff
    (first second : String) :
    methodFor first = methodFor second ↔
    nameParts first.toList = nameParts second.toList :=
  methodNameOf_eq_iff first.toList second.toList

theorem lowerWord_methodFor
    (text : String) :
    lowerWord (methodFor text).toList = (nameParts text.toList).flatten := by
  rw [methodFor, methodNameOf_camelCase, lowerWord_camelWords,
    lowerWord_flatten (isPart_of_mem_nameParts text.toList)]

theorem sourceName_of_name
    (named : node.get "name" (.text "node") = .ok (.text text))
    (notBlank : Text.trim text ≠ "") :
    sourceName node = .ok (.text text) := by
  have notEmpty : text ≠ "" := by
    rintro rfl
    exact notBlank (by decide)
  have isTruthy : (Value.text text).isTruthy = true := by
    simp [Value.isTruthy, notEmpty]
  simp [sourceName, named, isTruthy, Value.textFor, notBlank, bind, Except.bind,
    pure, Except.pure, Except.map]

theorem methodName_of_source
    (source : sourceName node = .ok (.text text)) :
    methodName node = .ok (methodFor text) := by
  have camel : camelCaseOf (.text text) =
      .ok (String.ofList (camelCase text.toList)) := by
    by_cases isEmpty : text = ""
    · subst isEmpty
      decide
    · simp [camelCaseOf, Value.isTruthy, isEmpty, Value.textAs, Except.map]
  simp [methodName, source, camel, methodFor, bind, Except.bind, pure,
    Except.pure]

/-- A node goes by its name if that is a text which is not blank. -/
theorem methodName_of_name
    (named : node.field? "name" = some (.text text))
    (notBlank : Text.trim text ≠ "") :
    methodName node = .ok (methodFor text) := by
  have isName : node.get "name" (.text "node") = .ok (.text text) := by
    refine Value.get_eq_ok.mpr ⟨?_, by rw [named, Option.getD_some]⟩
    cases node <;> first | rfl | cases named
  exact methodName_of_source (sourceName_of_name isName notBlank)

/--
The parts of a name spell a word, unless that is reserved or starts or ends
like the fallback, if and only if the words of the name do.
-/
theorem flatten_nameParts_eq_iff
    {text word : List Char}
    (starts : startsWithLetter word = true)
    (isFree : reservedWords.contains (String.ofList word) = false)
    (notPrefix : ¬ fallbackName <+: word)
    (notSuffix : ¬ fallbackName <:+ word) :
    (nameParts text).flatten = word ↔
    lowerWord (nameWords text).flatten = word := by
  have started : (startedParts (nameWords text)).flatten = word ↔
      lowerWord (nameWords text).flatten = word := by
    cases listed : nameWords text with
    | nil =>
        have notFallback : fallbackName ≠ word := by
          rintro rfl; exact notPrefix (List.prefix_refl _)
        have notNil : [] ≠ word := by rintro rfl; cases starts
        simpa [startedParts, lowerWord, notFallback] using notNil
    | cons first words =>
        have isWord : IsWord first :=
          isWord_of_mem_nameWords (by rw [listed]; exact List.mem_cons_self)
        rw [startedParts]
        split
        · rw [flatten_joinedWords]
        · -- A name that starts with a digit is written below the fallback.
          rename_i digit
          rw [List.flatten_singleton]
          refine iff_of_false (fun same =>
            notPrefix (same ▸ List.prefix_append _ _)) ?_
          rintro rfl
          rw [startsWithLetter_lowerWord, List.flatten_cons,
            startsWithLetter_append isWord.notNil] at starts
          exact digit starts
  rw [nameParts]
  split
  · rename_i isReserved
    rw [List.flatten_append, List.flatten_singleton]
    refine iff_of_false (fun same => notSuffix (same ▸ List.suffix_append _ _))
      fun same => ?_
    rw [started.mpr same, isFree] at isReserved
    cases isReserved
  · exact started

end Naming

namespace ExecutionOrder

theorem mem_of_mem_ordered
    {nodes inOrder : List Value}
    (made : ordered (.list nodes) = .ok inOrder) :
    ∀ node ∈ inOrder, node ∈ nodes := by
  unfold ordered at made
  obtain ⟨places, _, made⟩ := bind_eq_ok.mp made
  split at made
  all_goals
    obtain ⟨all, areAll, made⟩ := bind_eq_ok.mp made
    obtain rfl := pure_eq_ok.mp made
    cases areAll
    intro node member
    obtain ⟨place, _, found⟩ := List.mem_filterMap.mp member
  · exact List.mem_of_getElem? found
  · cases found

end ExecutionOrder

namespace Class

open Naming

/-- The names of the functions that a line of code declares. -/
def functionNames (line : List Char) : List (List Char) :=
  line.tails.filterMap fun rest =>
    (Text.after? "function ".toList rest).map (List.takeWhile isWordCharacter)

/-- The names of the methods that the class template of a language declares. -/
def templateMethods (language : Language) : List (List Char) :=
  (Template.classCode language).flatMap fun line => functionNames line.toList

/-- The functions in lines are those in their characters. -/
theorem functionNames_of_rows
    {rows : List (List Char)}
    {code : List String}
    {names : List (List Char)}
    (written : List.Forall₂ (fun row line => String.ofList row = line) rows
      code)
    (checked : rows.flatMap functionNames = names) :
    (code.flatMap fun line => functionNames line.toList) = names := by
  rw [← checked]
  clear checked
  induction written with
  | nil =>
      rfl
  | cons same _ inductionHypothesis =>
      rw [List.flatMap_cons, List.flatMap_cons, inductionHypothesis, ← same,
        String.toList_ofList]

theorem templateMethods_php :
    templateMethods .php =
      ["run".toList, "getContext".toList, "setContext".toList,
       "getContextValue".toList, "clearContext".toList] := by
  apply functionNames_of_rows
  · dsimp only [Template.classCode, Template.Shipped.phpClassCode]
    repeat' first
      | exact List.Forall₂.nil
      | apply List.Forall₂.cons
      | rfl
  · decide +kernel

/--
Template methods in lower case are no names that a node can only have changed.
-/
theorem templateMethods_php_free :
    ∀ method ∈ templateMethods .php,
      startsWithLetter (lowerWord method) = true ∧
      reservedWords.contains (String.ofList (lowerWord method)) = false ∧
      ¬ fallbackName <+: lowerWord method ∧
      ¬ fallbackName <:+ lowerWord method := by
  rw [templateMethods_php]
  decide

/-- A node has the method of the template, up to case, if its words spell it. -/
theorem lowerWord_methodFor_eq_iff
    {method : List Char}
    (text : String)
    (isMethod : method ∈ templateMethods .php) :
    lowerWord (methodFor text).toList = lowerWord method ↔
      lowerWord (nameWords text.toList).flatten = lowerWord method := by
  obtain ⟨starts, isFree, notPrefix, notSuffix⟩ :=
    templateMethods_php_free method isMethod
  rw [lowerWord_methodFor, flatten_nameParts_eq_iff starts isFree notPrefix
    notSuffix]

theorem nodup_map_iff
    {α β γ : Type}
    {first : α → β}
    {second : α → γ}
    (same : ∀ one other, first one = first other ↔ second one = second other)
    (items : List α) :
    (items.map first).Nodup ↔ (items.map second).Nodup := by
  simp only [List.Nodup, List.pairwise_map, ne_eq, same]

namespace Generator

open Template

variable {nodes : List Value}

variable {output : Output} {host after : Host} {workflow : Value}
  {code : String}

theorem mem_codes
    {generator : Generator}
    {parts : Parts}
    (madeOf : IsMadeOf generator host workflow parts)
    (areNodes : workflow.get "nodes" (.list []) = .ok (.list nodes)) :
    ∀ method ∈ parts.codes, ∃ node ∈ nodes,
      ((Method.ofNode generator.store generator.language node).start host).1 =
        .ok method := by
  obtain ⟨found, inOrder, mapping, areFound, _, areInOrder, codesAre, _⟩ :=
    madeOf.methods
  obtain rfl := Except.ok.inj (areNodes.symm.trans areFound)
  rw [codesAre]
  intro method member
  obtain ⟨entry, isKept, rfl⟩ := List.mem_map.mp member
  have isEntry := List.mem_of_mem_filter isKept
  refine ⟨entry.1, ?_, mapping.coded entry isEntry⟩
  apply ExecutionOrder.mem_of_mem_ordered areInOrder
  rw [← mapping.ofNodes]
  exact List.mem_map_of_mem isEntry

theorem methodName_of_names
    {texts : List String}
    (named : List.Forall₂ (fun node text =>
      node.field? "name" = some (.text text)) nodes texts)
    (notBlank : ∀ text ∈ texts, Text.trim text ≠ "") :
    List.Forall₂ (fun node name => methodName node = .ok name) nodes
      (texts.map methodFor) := by
  induction named with
  | nil =>
      exact .nil
  | cons isName _ inductionHypothesis =>
      obtain ⟨first, others⟩ := List.forall_mem_cons.mp notBlank
      exact .cons (methodName_of_name isName first) (inductionHypothesis others)

/--
The methods of a class come from the nodes of its workflow.  Their names
differ if and only if the names of the nodes have different parts.  Up to
case, they differ if and only if the parts spell different words, and none of
them is a method of the template if and only if the words of no name spell
one.
-/
theorem generate_declares_once_iff
    {texts : List String}
    (equipped : Equipped host.files)
    (made : ((standard .php output).generate workflow).start host =
      (.ok (some code), after))
    (areNodes : workflow.get "nodes" (.list []) = .ok (.list nodes))
    (named : List.Forall₂ (fun node text =>
      node.field? "name" = some (.text text)) nodes texts)
    (notBlank : ∀ text ∈ texts, Text.trim text ≠ "") :
    ∃ (parts : Parts) (names : List String),
      code = fill (classTemplate .php) (parts.slots .php) ∧
      (∀ method ∈ parts.codes, ∃ node ∈ nodes,
        ((Method.ofNode .standard Language.php.code node).start host).1 =
          .ok method) ∧
      List.Forall₂ (fun node name => methodName node = .ok name) nodes names ∧
      (names.Nodup ↔ (texts.map fun text => nameParts text.toList).Nodup) ∧
      ((names.map fun name => lowerWord name.toList).Nodup ↔
        (texts.map fun text => (nameParts text.toList).flatten).Nodup) ∧
      ((∀ name ∈ names, ∀ method ∈ templateMethods .php,
          lowerWord name.toList ≠ lowerWord method) ↔
        ∀ text ∈ texts, ∀ method ∈ templateMethods .php,
          lowerWord (nameWords text.toList).flatten ≠ lowerWord method) := by
  obtain ⟨parts, madeOf, codeIs⟩ := generate_eq_ok equipped made
  have coded := mem_codes madeOf areNodes
  simp only [standard] at coded
  refine ⟨parts, texts.map methodFor, codeIs, coded,
    methodName_of_names named notBlank, nodup_map_iff methodFor_eq_iff texts,
    ?_, ?_⟩
  · rw [List.map_map]
    apply nodup_map_iff
    intro one other
    rw [Function.comp_apply, Function.comp_apply, lowerWord_methodFor,
      lowerWord_methodFor]
  · rw [List.forall_mem_map]
    refine forall₂_congr fun text _ => forall₂_congr fun method isMethod => ?_
    rw [ne_eq, lowerWord_methodFor_eq_iff text isMethod]

/-- A node that sends mail. -/
def mailNode (id name : String) : Value :=
  .object [("id", .text id), ("name", .text name), ("type", .text "mail")]

/-- A workflow of two nodes with names that differ by case and punctuation. -/
def namesakes : Value :=
  .object [("name", .text "Flow"),
    ("nodes", .list [mailNode "a" "Send Email", mailNode "b" "send-email"])]

theorem exists_generate_namesakes :
    ∃ code after, ((freshGenerator .php).generate namesakes).start freshHost =
      (.ok (some code), after) := by
  have areInOrder : ExecutionOrder.ordered
      (.list [mailNode "a" "Send Email", mailNode "b" "send-email"]) =
        .ok [mailNode "a" "Send Email", mailNode "b" "send-email"] := by
    cbv
  have areNames : Parameters.ofClass .asAdded namesakes = .ok [] := by
    decide +kernel
  have exists_parts :
      ∃ parts, IsMadeOf (freshGenerator .php) freshHost namesakes parts := by
    refine exists_isMadeOf (exists_eq_ok_of_isOk (by decide +kernel))
      ⟨"Flow", rfl⟩ rfl rfl
      areInOrder ?_ ?_ areNames (exists_eq_ok_of_isOk (by decide +kernel))
      (exists_eq_ok_of_isOk (by decide +kernel))
    · simp only [List.forall_mem_cons]
      exact ⟨exists_eq_ok_of_isOk (by decide +kernel),
        exists_eq_ok_of_isOk (by decide +kernel), by simp⟩
    · simp only [List.forall_mem_cons]
      exact ⟨exists_eq_ok_of_isOk (by decide +kernel),
        exists_eq_ok_of_isOk (by decide +kernel), by simp⟩
  obtain ⟨parts, madeOf⟩ := exists_parts
  exact ⟨_, generate_of_isMadeOf equipped_freshHost madeOf⟩

theorem named_namesakes :
    List.Forall₂ (fun node text => node.field? "name" = some (.text text))
      [mailNode "a" "Send Email", mailNode "b" "send-email"]
        ["Send Email", "send-email"] :=
  .cons rfl (.cons rfl .nil)

/-- The class for the namesakes has the methods of their names. -/
theorem generate_namesakes_declares_once_iff :
    Equipped freshHost.files ∧
    (∀ text ∈ ["Send Email", "send-email"], Text.trim text ≠ "") ∧
    ∃ code, (∃ after, ((freshGenerator .php).generate namesakes).start
        freshHost = (.ok (some code), after)) ∧
      ∃ (parts : Parts) (names : List String),
        code = fill (classTemplate .php) (parts.slots .php) ∧
        (∀ method ∈ parts.codes,
          ∃ node ∈ [mailNode "a" "Send Email", mailNode "b" "send-email"],
            ((Method.ofNode .standard Language.php.code node).start
              freshHost).1 = .ok method) ∧
        List.Forall₂ (fun node name => methodName node = .ok name)
          [mailNode "a" "Send Email", mailNode "b" "send-email"] names ∧
        (names.Nodup ↔
          (["Send Email", "send-email"].map fun text =>
            nameParts text.toList).Nodup) ∧
        ((names.map fun name => lowerWord name.toList).Nodup ↔
          (["Send Email", "send-email"].map fun text =>
            (nameParts text.toList).flatten).Nodup) ∧
        ((∀ name ∈ names, ∀ method ∈ templateMethods .php,
            lowerWord name.toList ≠ lowerWord method) ↔
          ∀ text ∈ ["Send Email", "send-email"],
          ∀ method ∈ templateMethods .php,
            lowerWord (nameWords text.toList).flatten ≠ lowerWord method) := by
  have notBlank :
      ∀ text ∈ ["Send Email", "send-email"], Text.trim text ≠ "" := by decide
  obtain ⟨code, after, made⟩ := exists_generate_namesakes
  exact ⟨equipped_freshHost, notBlank, code, ⟨after, made⟩,
    generate_declares_once_iff equipped_freshHost made rfl named_namesakes
      notBlank⟩

/--
The names of the namesakes differ and are not blank, and yet their class has
the same method for both.
-/
theorem generate_namesakes_declares_twice :
    (∃ code after, ((freshGenerator .php).generate namesakes).start freshHost =
      (.ok (some code), after)) ∧
    namesakes.get "nodes" (.list []) =
      .ok (.list [mailNode "a" "Send Email", mailNode "b" "send-email"]) ∧
    List.Forall₂ (fun node text => node.field? "name" = some (.text text))
      [mailNode "a" "Send Email", mailNode "b" "send-email"]
        ["Send Email", "send-email"] ∧
    ["Send Email", "send-email"].Nodup ∧
    (∀ text ∈ ["Send Email", "send-email"], Text.trim text ≠ "") ∧
    List.Forall₂ (fun node name => methodName node = .ok name)
      [mailNode "a" "Send Email", mailNode "b" "send-email"]
        ["sendEmail", "sendEmail"] := by
  have first : methodName (mailNode "a" "Send Email") = .ok "sendEmail" := by
    decide +kernel
  have second : methodName (mailNode "b" "send-email") = .ok "sendEmail" := by
    decide +kernel
  exact ⟨exists_generate_namesakes, rfl, named_namesakes, by decide, by decide,
    .cons first (.cons second .nil)⟩

end Generator

end Class

end Flowgen
