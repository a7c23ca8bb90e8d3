import Flowgen.Proofs.ClassParts
import Flowgen.Proofs.GeneratedMethods
import Flowgen.Proofs.Installing
import Flowgen.Proofs.ParameterNames
import Mathlib.Data.List.Permutation

namespace Flowgen.Class

/-!
# Generated classes as templates filled at once

A class is generated for a workflow if each of its parts can be made by
itself.  If the workflow has no tags, and the names of its parameters none
that is filled later, then the class is its template with all placeholders
filled at once.  Both matter: names are joined from keys, and keys without
tags may make a tag.
-/

open Template Session

/-- The parts of the class for a workflow, each by itself. -/
structure IsMadeOf
    (generator : Generator)
    (host : Host)
    (workflow : Value)
    (parts : Parts) : Prop where
  className : Naming.className workflow = .ok parts.className
  workflowName :
    workflow.get "name" (.text "Workflow sem nome") =
      .ok (.text parts.workflowName)
  methods :
    ∃ nodes inOrder, ∃ mapping : Generator.Mapping generator host inOrder,
      workflow.get "nodes" (.list []) = .ok nodes ∧ nodes.isTruthy = true ∧
      ExecutionOrder.ordered nodes = .ok inOrder ∧
      parts.codes = mapping.codes ∧ mapping.Calls parts.calls
  constructor : ∃ names,
    Parameters.ofClass host.setOrder workflow = .ok names ∧
    Parameters.ClassNames workflow names ∧
    Class.constructor generator.language (Generator.parameterFields names) =
      .ok parts.constructor
  imports : Class.imports generator.language workflow = .ok parts.imports

theorem exists_isMadeOf
    {generator : Generator}
    {host : Host}
    {workflow nodes : Value}
    {inOrder : List Value}
    {names : List String}
    (className : ∃ name, Naming.className workflow = .ok name)
    (workflowName : ∃ name,
      workflow.get "name" (.text "Workflow sem nome") = .ok (.text name))
    (areNodes : workflow.get "nodes" (.list []) = .ok nodes)
    (isTruthy : nodes.isTruthy = true)
    (areInOrder : ExecutionOrder.ordered nodes = .ok inOrder)
    (coded : ∀ node ∈ inOrder, ∃ code,
      ((Method.ofNode generator.store generator.language node).start host).1 =
        .ok code)
    (named : ∀ node ∈ inOrder, ∃ name, Naming.methodName node = .ok name)
    (areNames : Parameters.ofClass host.setOrder workflow = .ok names)
    (constructed : ∃ code,
      Class.constructor generator.language (Generator.parameterFields names) =
        .ok code)
    (imported : ∃ code, Class.imports generator.language workflow = .ok code) :
    ∃ parts, IsMadeOf generator host workflow parts := by
  obtain ⟨name, isName⟩ := className
  obtain ⟨written, isWritten⟩ := workflowName
  obtain ⟨mapping, calls, areCalls⟩ :=
    Generator.Mapping.exists_mapping coded named
  obtain ⟨constructor, isConstructor⟩ := constructed
  obtain ⟨imports, areImports⟩ := imported
  refine ⟨⟨name, written, mapping.codes, calls, constructor, imports⟩, ?_⟩
  exact {
    className := isName
    workflowName := isWritten
    methods :=
      ⟨nodes, inOrder, mapping, areNodes, isTruthy, areInOrder, rfl, areCalls⟩
    constructor :=
      ⟨names, areNames, Parameters.classNames_ofClass areNames, isConstructor⟩
    imports := areImports }

namespace Generator

variable {language : Language} {output : Output} {parts : Parts}

variable {generator : Generator} {host after : Host} {workflow : Value}
  {code : String}

/-- Filling a class template fills in the parts of the class. -/
theorem fillClass_eq_ok
    {template : String}
    {nodes : Value}
    (areNodes : workflow.get "nodes" (.list []) = .ok nodes)
    (isTruthy : nodes.isTruthy = true)
    (made : (generator.fillClass template workflow nodes).start host =
      (.ok code, after)) :
    ∃ parts, IsMadeOf generator host workflow parts ∧
      code = fill template (classSlots generator.language parts.className
        parts.workflowName
        parts.codes parts.calls parts.constructor parts.imports) := by
  unfold fillClass at made
  obtain ⟨order, started, walked, made⟩ := bind_start_eq_ok.mp made
  cases walked
  obtain ⟨names, areNames, made⟩ := lift_bind_start_eq_ok.mp made
  obtain ⟨inOrder, areInOrder, made⟩ := lift_bind_start_eq_ok.mp made
  obtain ⟨⟨codes, calls⟩, between, areMethods, made⟩ := bind_start_eq_ok.mp made
  obtain ⟨constructor, isConstructor, made⟩ := lift_bind_start_eq_ok.mp made
  obtain ⟨imports, areImports, made⟩ := lift_bind_start_eq_ok.mp made
  obtain ⟨className, isClassName, made⟩ := lift_bind_start_eq_ok.mp made
  obtain ⟨name, isName, made⟩ := lift_bind_start_eq_ok.mp made
  obtain ⟨workflowName, isText, made⟩ := lift_bind_start_eq_ok.mp made
  rw [Value.textAs_eq_ok.mp isText] at isName
  rw [start_pure, Prod.mk.injEq, Except.ok.injEq] at made
  obtain ⟨mapping, rfl, areCalls⟩ := methods_eq_ok (.refl _) areMethods
  refine ⟨⟨className, workflowName, mapping.codes, calls, constructor, imports⟩,
    ?_, made.1.symm⟩
  exact {
    className := isClassName
    workflowName := isName
    methods :=
      ⟨nodes, inOrder, mapping, areNodes, isTruthy, areInOrder, rfl, areCalls⟩
    constructor :=
      ⟨names, areNames, Parameters.classNames_ofClass areNames, isConstructor⟩
    imports := areImports }

/--
A class is the template that was found for it, with the parts of the class
filled in.
-/
theorem generate_eq_some
    (made : (generator.generate workflow).start host =
      (.ok (some code), after)) :
    ∃ template loaded parts,
      (generator.store.loadClass (.text generator.language)).start host =
        (.ok (some template), loaded) ∧
      IsMadeOf generator loaded workflow parts ∧
      code = fill template (classSlots generator.language parts.className
        parts.workflowName
        parts.codes parts.calls parts.constructor parts.imports) := by
  unfold generate at made
  obtain ⟨found, loaded, isLoaded, made⟩ := bind_start_eq_ok.mp made
  split at made
  · obtain ⟨_, _, _, ended⟩ := bind_start_eq_ok.mp made
    cases ended
  · obtain ⟨_, _, _, ended⟩ := bind_start_eq_ok.mp made
    cases ended
  · rename_i template _
    obtain ⟨nodes, areNodes, made⟩ := lift_bind_start_eq_ok.mp made
    split at made
    · rename_i isTruthy
      rw [map_eq_pure_bind] at made
      obtain ⟨filled, between, isFilled, ended⟩ := bind_start_eq_ok.mp made
      cases ended
      obtain ⟨parts, madeOf, codeIs⟩ :=
        fillClass_eq_ok areNodes isTruthy isFilled
      exact ⟨template, loaded, parts, isLoaded, madeOf, codeIs⟩
    · obtain ⟨_, _, _, ended⟩ := bind_start_eq_ok.mp made
      cases ended

/-- A generator for a language that uses the templates at their usual place. -/
def standard (language : Language) (output : Output) : Generator :=
  ⟨.standard, language.code, output⟩

theorem generate_eq_ok
    (equipped : Equipped host.files)
    (made : ((standard language output).generate workflow).start host =
      (.ok (some code), after)) :
    ∃ parts, IsMadeOf (standard language output) host workflow parts ∧
      code = fill (classTemplate language) (parts.slots language) := by
  obtain ⟨template, loaded, parts, isLoaded, madeOf, codeIs⟩ :=
    generate_eq_some made
  have known := (equipped.loadClass language).symm.trans isLoaded
  rw [Prod.mk.injEq, Except.ok.injEq, Option.some.injEq] at known
  obtain ⟨rfl, rfl⟩ := known
  refine ⟨parts, madeOf, ?_⟩
  rw [codeIs, ← parts.classSlots_eq language]
  rfl

theorem fillClass_of_isMadeOf
    (template : String)
    (madeOf : IsMadeOf generator host workflow parts) :
    ∃ nodes after, workflow.get "nodes" (.list []) = .ok nodes ∧
    nodes.isTruthy = true ∧
      (generator.fillClass template workflow nodes).start host =
        (.ok (fill template (classSlots generator.language parts.className
          parts.workflowName
          parts.codes parts.calls parts.constructor parts.imports)),
          after) := by
  obtain ⟨nodes, inOrder, mapping, areNodes, isTruthy, areInOrder, codesAre,
    areCalls⟩ :=
    madeOf.methods
  obtain ⟨names, areNames, _, isConstructor⟩ := madeOf.constructor
  obtain ⟨after, methodsMade⟩ :=
    methods_of_mapping (.refl host) mapping areCalls
  refine ⟨nodes, after, areNodes, isTruthy, ?_⟩
  rw [codesAre]
  have walked : Session.setOrder.start host = (.ok host.setOrder, host) := rfl
  simp only [fillClass, start_bind, start_lift, walked, areNames, areInOrder,
    methodsMade, isConstructor,
    madeOf.imports, madeOf.className, madeOf.workflowName, Value.textAs,
    start_pure]

theorem classTemplate_ne_empty
    (language : Language) :
    classTemplate language ≠ "" := by
  intro isEmpty
  have found := constructor_infix_classCode language
  rw [← classTemplate, isEmpty] at found
  exact absurd (List.infix_nil.mp found) (by decide)

theorem generate_of_isMadeOf
    (equipped : Equipped host.files)
    (madeOf : IsMadeOf (standard language output) host workflow parts) :
    ∃ after, ((standard language output).generate workflow).start host =
      (.ok (some (fill (classTemplate language) (parts.slots language))),
        after) := by
  have loaded : ((standard language output).store.loadClass
      (.text (standard language output).language)).start host =
        (.ok (some (classTemplate language)), host) :=
    equipped.loadClass language
  obtain ⟨nodes, after, areNodes, isTruthy, isFilled⟩ :=
    fillClass_of_isMadeOf (classTemplate language) madeOf
  refine ⟨after, ?_⟩
  unfold generate
  rw [start_bind, loaded]
  dsimp only
  split
  · rename_i isNone
    cases isNone
  · rename_i isEmpty
    exact absurd (Option.some.inj isEmpty) (classTemplate_ne_empty language)
  · rename_i isTemplate
    rw [Option.some.injEq] at isTemplate
    subst isTemplate
    rw [start_bind, start_lift, areNodes]
    dsimp only
    rw [if_pos isTruthy, map_eq_pure_bind, start_bind, isFilled,
      ← parts.classSlots_eq language]
    rfl

/--
No parameter of the class for a workflow has a name with a placeholder in it
that is filled after the constructor.  Names are put together from keys, so
this does not follow from what the keys are by themselves.
-/
def KeepsNames (language : Language) (workflow : Value) : Prop :=
  ∀ order names, Parameters.ofClass order workflow = .ok names →
    ∀ name ∈ names, ∀ closing ∈ Parts.closingNames language,
      Text.contains name (placeholder closing) = false

/-- The class for a clean workflow is made of clean parts. -/
theorem clean_of_isMadeOf
    (equipped : Equipped host.files)
    (clean : workflow.Clean)
    (keepsNames : KeepsNames language workflow)
    (madeOf : IsMadeOf (standard language output) host workflow parts) :
    parts.Clean language := by
  obtain ⟨nodes, inOrder, mapping, areNodes, _, areInOrder, codesAre,
    areCalls⟩ := madeOf.methods
  have nodesClean : nodes.Clean :=
    clean.get areNodes (Value.clean_of_strings_eq_nil rfl)
  have nameClean :=
    clean.get madeOf.workflowName (Method.clean_fallback (by decide))
  refine {
    className := Naming.brace_not_mem_className madeOf.className
    workflowName := Value.clean_text.mp nameClean
    codes := ?codes
    calls := Mapping.brace_not_mem_calls areCalls
    constructor := ?constructor
    imports := tagFree_imports madeOf.imports }
  case codes =>
    rw [codesAre]
    exact mapping.tagsIn_codes rfl equipped
      (ExecutionOrder.clean_ordered nodesClean areInOrder)
  case constructor =>
    intro slot member found
    obtain ⟨names, areNames, _, isConstructor⟩ := madeOf.constructor
    have isClosing : slot.name ∈ Parts.closingNames language := by
      rw [← parts.closingSlots_names language]
      exact List.mem_map_of_mem member
    have isName : IsTagName slot.name.toList :=
      parts.named_slots language slot (by simp [Parts.slots, member])
    obtain ⟨name, isParameter, inName⟩ :=
      exists_name_of_tag_constructor isConstructor isName found
    have absent :=
      keepsNames _ names areNames name isParameter slot.name isClosing
    rw [← placeholder_toList] at inName
    rw [Text.contains, Text.occurs_iff.mpr inName] at absent
    cases absent

/--
A class comes out for a clean workflow if its parts can be made, each by
itself, and then it is the template with every placeholder filled at once by
them.
-/
theorem generate_eq_fillAtOnce
    (equipped : Equipped host.files)
    (clean : workflow.Clean)
    (keepsNames : KeepsNames language workflow) :
    (∃ after, ((standard language output).generate workflow).start host =
        (.ok (some code), after)) ↔
      ∃ parts, IsMadeOf (standard language output) host workflow parts ∧
        (∀ name, IsTagName name →
          tag name <:+: (classTemplate language).toList →
          ∃ slot ∈ parts.slots language, slot.name.toList = name) ∧
        code = fillAtOnce (classTemplate language)
          ((parts.finished language).slots language) := by
  have spaced : Spaced (classNames language) (classTemplate language).toList :=
    (fineLines_classCode language).spaced
  have atOnce :
      ∀ parts, IsMadeOf (standard language output) host workflow parts →
      fill (classTemplate language) (parts.slots language) =
        fillAtOnce (classTemplate language)
          ((parts.finished language).slots language) := by
    intro parts madeOf
    rw [fill_eq_fillAtOnce spaced (parts.named_slots language),
      Parts.settled_slots (clean_of_isMadeOf equipped clean keepsNames madeOf)]
  constructor
  · rintro ⟨after, made⟩
    obtain ⟨parts, madeOf, codeIs⟩ := generate_eq_ok equipped made
    refine ⟨parts, madeOf, ?_, codeIs.trans (atOnce parts madeOf)⟩
    intro name isName found
    have known := spaced.tagsIn name isName found
    rw [← parts.slots_names language] at known
    exact List.mem_map.mp known
  · rintro ⟨parts, madeOf, _, rfl⟩
    rw [← atOnce parts madeOf]
    exact generate_of_isMadeOf equipped madeOf

/-- Surroundings with nothing but the files that come with the program. -/
def freshHost : Host :=
  ⟨install (.empty "/home"), [], [], ⟨[]⟩, [], "", .asAdded⟩

theorem equipped_freshHost : Equipped freshHost.files :=
  equipped_install (by decide)

/-- A generator that has not generated anything yet. -/
def freshGenerator (language : Language) : Generator :=
  standard language ⟨.ofText "output"⟩

/-- A node that receives orders and leads to the one that answers them. -/
def receiver : Value :=
  .object [("id", .text "a"), ("name", .text "Entrada"),
    ("type", .text "webhook"), ("parameters", .object
      [("body", .object [("user", .text "=\x7b\x7b$json.body.user\x7d\x7d")])]),
    ("connections", .object [("main",
      .list [.list [.object [("node", .text "b")]]])])]

/-- A node that answers orders. -/
def sender : Value :=
  .object [("id", .text "b"), ("name", .text "Enviar"), ("type", .text "mail"),
    ("parameters", .object [("to",
      .text "=\x7b\x7b$json.query.email\x7d\x7d")])]

/-- A workflow that receives and answers orders. -/
def orders : Value :=
  .object [("name", .text "Pedidos"), ("nodes", .list [sender, receiver])]

theorem ofClass_orders :
    Parameters.ofClass .asAdded orders =
      .ok ["user", "body_user", "email"] := by
  decide +kernel

/-- Which names a class has does not depend on how sets are walked through. -/
theorem keepsNames_of_ofClass
    {order : SetOrder}
    {names : List String}
    (areNames : Parameters.ofClass order workflow = .ok names)
    (keeps : ∀ name ∈ names, ∀ closing ∈ Parts.closingNames language,
      Text.contains name (placeholder closing) = false) :
    KeepsNames language workflow := by
  intro other others areOthers name member
  refine keeps name ((Parameters.ofClass_perm areOthers areNames).mem_iff.mp
    member)

theorem keepsNames_orders : KeepsNames .javascript orders :=
  keepsNames_of_ofClass ofClass_orders (by decide)

theorem exists_parts_orders :
    ∃ parts, IsMadeOf (freshGenerator .javascript) freshHost orders parts := by
  have areInOrder : ExecutionOrder.ordered (.list [sender, receiver]) =
      .ok [receiver, sender] := by
    cbv
  refine exists_isMadeOf (exists_eq_ok_of_isOk (by decide +kernel))
    ⟨"Pedidos", rfl⟩ rfl rfl
    areInOrder ?_ ?_ ofClass_orders (exists_eq_ok_of_isOk (by decide +kernel))
    (exists_eq_ok_of_isOk (by decide +kernel))
  · simp only [List.forall_mem_cons]
    exact ⟨exists_eq_ok_of_isOk (by decide +kernel),
      exists_eq_ok_of_isOk (by decide +kernel), by simp⟩
  · simp only [List.forall_mem_cons]
    exact ⟨exists_eq_ok_of_isOk (by decide +kernel),
      exists_eq_ok_of_isOk (by decide +kernel), by simp⟩

theorem exists_generate_orders :
    ∃ code after, ((freshGenerator .javascript).generate orders).start
      freshHost = (.ok (some code), after) := by
  obtain ⟨parts, madeOf⟩ := exists_parts_orders
  exact ⟨_, generate_of_isMadeOf equipped_freshHost madeOf⟩

/-- The class for the orders is its template, filled at once. -/
theorem generate_orders_eq_fillAtOnce :
    Equipped freshHost.files ∧ orders.Clean ∧ KeepsNames .javascript orders ∧
    ∃ code, (∃ after, ((freshGenerator .javascript).generate orders).start
        freshHost = (.ok (some code), after)) ∧
      ∃ parts, IsMadeOf (freshGenerator .javascript) freshHost orders parts ∧
        (∀ name, IsTagName name →
          tag name <:+: (classTemplate .javascript).toList →
          ∃ slot ∈ parts.slots .javascript, slot.name.toList = name) ∧
        code = fillAtOnce (classTemplate .javascript)
          ((parts.finished .javascript).slots .javascript) := by
  have clean : orders.Clean := by decide
  obtain ⟨code, made⟩ := exists_generate_orders
  exact ⟨equipped_freshHost, clean, keepsNames_orders, code, made,
    (generate_eq_fillAtOnce equipped_freshHost clean keepsNames_orders).mp made⟩

/-- A tag in the constructor stays in a class that is filled at once. -/
theorem tag_infix_fillAtOnce
    {name : List Char}
    (parts : Parts)
    (language : Language)
    (found : tag name <:+: parts.constructor.toList) :
    tag name <:+: (fillAtOnce (classTemplate language)
      (parts.slots language)).toList := by
  have spaced : Spaced (classNames language) (classTemplate language).toList :=
    (fineLines_classCode language).spaced
  have member : ⟨"constructor", parts.constructor⟩ ∈ parts.slots language := by
    simp only [Parts.slots, List.mem_cons, true_or, or_true]
  have content : contentFor (parts.slots language) "constructor".toList =
      parts.constructor.toList :=
    (contentFor_of_mem (parts.nodup_slots language) member :)
  have inClass :=
    spaced.contentFor_infix_atOnceAfter (parts.named_slots language)
    (show IsTagName "constructor".toList by decide)
      (constructor_infix_classCode language)
  rw [content] at inClass
  have written :
      (fillAtOnce (classTemplate language) (parts.slots language)).toList =
      atOnceAfter (parts.slots language) 0 (classTemplate language).toList :=
    String.toList_ofList
  rw [written]
  exact found.trans inClass

/--
The path of credentials is filled wherever it stands, so no placeholder for it
remains.
-/
theorem not_tag_infix_fill
    (parts : Parts)
    (template : String) :
    ¬ tag "credentials_path".toList <:+:
      (fill template (parts.slots .php)).toList := by
  have slotsAre : parts.slots .php = (parts.slots .php).take 8 ++
      [⟨"credentials_path", "../credentials/Credentials" ++
       Language.php.extension⟩, ⟨"version", "1.0.0"⟩] :=
    rfl
  have path : ("../credentials/Credentials" ++ Language.php.extension).toList =
      '.' :: "./credentials/Credentials.php".toList := by
    decide
  have version : "1.0.0".toList = '1' :: ".0.0".toList := by decide
  intro found
  rw [fill_toList, slotsAre, filled_append, filled_cons, filled_cons, filled,
    List.foldl_nil, version, path] at found
  obtain ⟨before, _⟩ :=
    tag_of_tag_replaceAll (by decide) (by decide) (by decide) found
  obtain ⟨_, isOther⟩ :=
    tag_of_tag_replaceAll (by decide) (by decide) (by decide) before
  exact isOther rfl

/--
A node with keys that are no placeholders, but make one when they are joined.
-/
def joinedNode : Value :=
  .object [("id", .text "a"), ("name", .text "Start"), ("type", .text "start"),
    ("parameters", .object [("\x7b\x7bcredentials",
      .object [("path\x7d\x7d",
        .object [("k", .text "=\x7b\x7b$json.body.x\x7d\x7d")])])])]

/-- A workflow of that node alone. -/
def joinedKeys : Value :=
  .object [("name", .text "Flow"), ("nodes", .list [joinedNode])]

theorem ofClass_joinedKeys :
    Parameters.ofClass .asAdded joinedKeys =
      .ok ["\x7b\x7bcredentials_path\x7d\x7d_x", "x"] := by
  decide +kernel

theorem exists_parts_joinedKeys :
    ∃ parts, IsMadeOf (freshGenerator .php) freshHost joinedKeys parts := by
  have areInOrder :
      ExecutionOrder.ordered (.list [joinedNode]) = .ok [joinedNode] := by
    cbv
  refine exists_isMadeOf (exists_eq_ok_of_isOk (by decide +kernel))
    ⟨"Flow", rfl⟩ rfl rfl
    areInOrder ?_ ?_ ofClass_joinedKeys
      (exists_eq_ok_of_isOk (by decide +kernel))
    (exists_eq_ok_of_isOk (by decide +kernel))
  · simp only [List.forall_mem_cons]
    exact ⟨exists_eq_ok_of_isOk (by decide +kernel), by simp⟩
  · simp only [List.forall_mem_cons]
    exact ⟨exists_eq_ok_of_isOk (by decide +kernel), by simp⟩

theorem infix_phpConstructor
    {names : List String}
    {name code : String}
    (member : name ∈ names)
    (made : phpConstructor (parameterFields names) = .ok code) :
    name.toList <:+: code.toList := by
  have isTruthy : (parameterFields names).isTruthy = true := by
    cases names with
    | nil =>
        cases member
    | cons =>
        rfl
  unfold phpConstructor at made
  rw [if_pos isTruthy, fieldsFor_parameterFields] at made
  obtain rfl := pure_eq_ok.mp made
  have inRemarks : name.toList <:+: (Text.ofLines
      ((names.map fun name => (name, Value.text "mixed")).map fun field =>
        "     * @param " ++ field.2.display ++ " $" ++ field.1 ++
          " Parâmetro " ++ field.1)).toList := by
    have isRemark :=
      infix_ofLines (List.mem_map_of_mem (f := fun field : String × Value =>
      "     * @param " ++ field.2.display ++ " $" ++ field.1 ++ " Parâmetro " ++
        field.1)
        (List.mem_map_of_mem (f := fun name => (name, Value.text "mixed"))
          member))
    refine List.IsInfix.trans ?_ isRemark
    rw [String.toList_append]
    exact (List.suffix_append _ _).isInfix
  simp only [String.toList_append, List.append_assoc]
  exact List.infix_append_of_infix_right
    (List.infix_append_of_infix_left inRemarks)

theorem tag_infix_constructor_joinedKeys
    (madeOf : IsMadeOf (freshGenerator .php) freshHost joinedKeys parts) :
    tag "credentials_path".toList <:+: parts.constructor.toList := by
  obtain ⟨names, areNames, _, isConstructor⟩ := madeOf.constructor
  obtain rfl := Except.ok.inj (ofClass_joinedKeys.symm.trans areNames)
  have inName : tag "credentials_path".toList <:+:
      "\x7b\x7bcredentials_path\x7d\x7d_x".toList := by
    decide
  exact inName.trans (infix_phpConstructor List.mem_cons_self isConstructor)

/-- A workflow with a node that refers to three names and declares the first. -/
def threeNames : Value :=
  .object [("nodes", .list [.object [("type", .text "x"), ("parameters", .object
    [("k",
      .text "=\x7b\x7b$json.body.a $json.body.c $json.body.b\x7d\x7d")])]])]

/--
No string of the workflow with joined keys has a tag, and yet its class is not
the template filled at once: a parameter is named like the placeholder for the
path of credentials, and the path is filled in for it.  The names that are
used without being declared follow the declared ones as they are met, in no
order of their own.
-/
theorem generate_joinedKeys_ne_fillAtOnce :
    Equipped freshHost.files ∧ joinedKeys.Clean ∧
    (∃ code, (∃ after, ((freshGenerator .php).generate joinedKeys).start
        freshHost = (.ok (some code), after)) ∧
      ∀ parts, IsMadeOf (freshGenerator .php) freshHost joinedKeys parts →
        code ≠ fillAtOnce (classTemplate .php)
          ((parts.finished .php).slots .php)) ∧
    threeNames.Clean ∧ Parameters.ofWorkflow threeNames = .ok ["a"] ∧
    Parameters.ofClass freshHost.setOrder threeNames = .ok ["a", "c", "b"] := by
  obtain ⟨parts, madeOf⟩ := exists_parts_joinedKeys
  refine ⟨equipped_freshHost, by decide,
    ⟨_, generate_of_isMadeOf equipped_freshHost madeOf, ?_⟩, by decide,
    by decide +kernel, by decide +kernel⟩
  intro others othersMade same
  have inConstructor := tag_infix_constructor_joinedKeys othersMade
  have found := tag_infix_fillAtOnce (others.finished .php) .php inConstructor
  rw [← same] at found
  exact not_tag_infix_fill parts _ found

end Generator

end Flowgen.Class
