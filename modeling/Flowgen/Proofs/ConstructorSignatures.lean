import Flowgen.Proofs.AgentPrompts
import Flowgen.Proofs.ConstructorParameters

namespace Flowgen

/-!
# The formal parameters of constructors in PHP

The constructor of a class in PHP has a formal parameter for each name that
the workflow needs, and behind them one more that is called `params`.  Names
that texts refer to are identifiers.  Keys are taken as they are, so the
signature is in order only if they make identifiers, and no name may be
`params`.
-/

open Template

namespace Parameters

/--
Names that can stand in one list of parameters: identifiers, and none twice.
-/
structure AreFormals (names : List String) : Prop where
  nodup : names.Nodup
  identifiers : ∀ name ∈ names, IsName name.toList

/--
Keys that make an identifier with a name behind them; empty ones in front do
not count.
-/
def FitKeys (keys : List String) : Prop :=
  keys.dropWhile (fun key => key == "") = [] ∨
    IsName (Text.join "_" (keys.dropWhile (fun key => key == ""))).toList

/--
The nodes of a workflow give names that can stand before a parameter called
`params`.
-/
structure FitSignature (nodes : List Value) (entry : Value) : Prop where
  keys : ∀ key, DeclaresKey entry key → IsName key.toList ∧ key ≠ "params"
  nested : ∀ fields keys content first, HasParameters entry fields →
    HoldsAt fields keys content → RefersFirst content first → FitKeys keys
  references : ∀ node ∈ nodes, ¬ UsesName node "params"

section Identifiers

variable {front name : List Char} {character : Char}

theorem isName_cons_iff :
    IsName (character :: name) ↔ startsIdentifier character = true ∧
      ∀ other ∈ name, continuesIdentifier other = true := by
  simp [IsName]

/-- An identifier below another text is an identifier if that text is one. -/
theorem isName_append_underscore_iff
    (notNil : front ≠ [])
    (isName : IsName name) :
    IsName (front ++ '_' :: name) ↔ IsName front := by
  obtain ⟨first, rest, rfl⟩ := List.exists_cons_of_ne_nil notNil
  have underscore : continuesIdentifier '_' = true := rfl
  rw [List.cons_append, isName_cons_iff, isName_cons_iff,
    List.forall_mem_append, List.forall_mem_cons]
  exact and_congr_right fun _ => and_iff_left
    ⟨underscore, Expression.continuesIdentifier_of_isName isName⟩

theorem IsName.tagFree
    (isName : IsName name) :
    TagFree name :=
  .of_not_mem fun member =>
    absurd (Expression.continuesIdentifier_of_isName isName _ member)
      (by decide)

end Identifiers

section Names

variable {keys names : List String} {content name first : String}
  {entry : Value} {nodes : List Value}

theorem Refers.isName
    (refers : Refers content name) :
    IsName name.toList := by
  obtain ⟨_, _, _, _, _, _, isName, _⟩ := refers
  exact isName

theorem RefersFirst.refers
    (refers : RefersFirst content name) :
    Refers content name := by
  obtain ⟨opened, rest, isSuffix, isReference, _⟩ := refers
  exact ⟨opened, rest, isSuffix, isReference⟩

/-- A name is below no keys, or below some that are not all empty. -/
theorem nestedName_cases
    (keys : List String)
    (name : String) :
    (keys.dropWhile (fun key => key == "") = [] ∧ nestedName keys name = name) ∨
      ∃ above, above = Text.join "_" (keys.dropWhile fun key => key == "") ∧
        keys.dropWhile (fun key => key == "") ≠ [] ∧ above.toList ≠ [] ∧
        (nestedName keys name).toList = above.toList ++ '_' :: name.toList := by
  cases kept : keys.dropWhile (fun key => key == "") with
  | nil =>
      refine .inl ⟨rfl, ?_⟩
      rw [nestedName, kept, List.nil_append, Text.join_singleton]
  | cons key more =>
      refine .inr ⟨_, rfl, List.cons_ne_nil _ _, ?_, ?_⟩
      · have keyNotEmpty : key ≠ "" := by
          have isHead := List.head?_dropWhile_not (fun key => key == "") keys
          rw [kept] at isHead
          simpa using isHead
        have keyNotNil : key.toList ≠ [] := by simpa using keyNotEmpty
        rw [Text.join_toList]
        cases more <;> simp [List.intercalate, keyNotNil]
      · rw [nestedName, kept, Text.join_append "_" (List.cons_ne_nil _ _)
          (List.cons_ne_nil _ _), Text.join_singleton]
        simp

/-- A name below keys is an identifier if the keys fit. -/
theorem isName_nestedName_iff
    (isName : IsName name.toList) :
    IsName (nestedName keys name).toList ↔ FitKeys keys := by
  obtain ⟨nothing, nameIs⟩ | ⟨above, rfl, something, notNil, nameIs⟩ :=
    nestedName_cases keys name
  · rw [nameIs]
    exact iff_of_true isName (.inl nothing)
  · rw [nameIs, isName_append_underscore_iff notNil isName]
    exact ⟨.inr, fun fit => fit.resolve_left something⟩

/-- `params` has no underscore, so it does not come from below any keys. -/
theorem eq_of_nestedName_eq_params
    (isParams : nestedName keys name = "params") :
    name = "params" := by
  obtain ⟨_, nameIs⟩ | ⟨above, _, _, _, nameIs⟩ := nestedName_cases keys name
  · exact nameIs.symm.trans isParams
  · rw [isParams] at nameIs
    have hasUnderscore : '_' ∈ "params".toList := by
      rw [nameIs]
      exact List.mem_append_right _ List.mem_cons_self
    exact absurd hasUnderscore (by decide)

/--
The names of a workflow and `params` are formal parameters if the nodes fit.
-/
theorem areFormals_iff
    (isEntry : IsEntry nodes entry)
    (nodup : names.Nodup)
    (mem_iff : ∀ name, name ∈ names ↔
      DeclaresKey entry name ∨ DeclaresNested entry name ∨
      ∃ node ∈ nodes, UsesName node name) :
    AreFormals (names ++ ["params"]) ↔ FitSignature nodes entry := by
  have usesFirst : ∀ {fields keys content first}, HasParameters entry fields →
      HoldsAt fields keys content → RefersFirst content first →
      UsesName entry first :=
    fun has holds refers => ⟨_, has, _, _, holds, refers.refers⟩
  constructor
  · rintro ⟨different, identifiers⟩
    have isOther : ∀ name ∈ names, name ≠ "params" := fun name member =>
      (List.nodup_append.mp different).2.2 name member "params"
        (List.mem_singleton.mpr rfl)
    have isIdentifier : ∀ name ∈ names, IsName name.toList := fun name member =>
      identifiers name (List.mem_append_left _ member)
    refine ⟨fun key declares => ?_,
      fun fields keys content first has holds refers => ?_,
      fun node member uses => ?_⟩
    · have member := (mem_iff key).mpr (.inl declares)
      exact ⟨isIdentifier key member, isOther key member⟩
    · have member := (mem_iff _).mpr
        (.inr (.inl ⟨fields, has, keys, content, holds, first, refers, rfl⟩))
      exact (isName_nestedName_iff refers.refers.isName).mp
        (isIdentifier _ member)
    · exact isOther _ ((mem_iff _).mpr (.inr (.inr ⟨node, member, uses⟩))) rfl
  · intro fit
    have fits : ∀ name ∈ names, IsName name.toList ∧ name ≠ "params" := by
      intro name member
      obtain declares | ⟨fields, has, keys, content, holds, first, refers,
        rfl⟩ | ⟨node, isNode, uses⟩ := (mem_iff name).mp member
      · exact fit.keys name declares
      · have fitKeys := fit.nested fields keys content first has holds refers
        refine ⟨(isName_nestedName_iff refers.refers.isName).mpr fitKeys,
          fun isParams => ?_⟩
        obtain rfl := eq_of_nestedName_eq_params isParams
        exact fit.references entry isEntry.mem (usesFirst has holds refers)
      · obtain ⟨_, _, _, _, _, refers⟩ := id uses
        exact ⟨refers.isName, fun isParams =>
          fit.references node isNode (isParams ▸ uses)⟩
    constructor
    · refine List.nodup_append'.mpr
        ⟨nodup, List.nodup_singleton _, fun name member isLast => ?_⟩
      exact (fits name member).2 (List.mem_singleton.mp isLast)
    · rw [List.forall_mem_append, List.forall_mem_singleton]
      exact ⟨fun name member => (fits name member).1, by decide⟩

end Names

end Parameters

namespace Class

variable {names : List String} {slots : List Slot} {code : String}

/-- A formal parameter with a name. -/
def formalParameter (name : String) : String :=
  "mixed" ++ " $" ++ name ++ " = null"

/--
The signature of a constructor in PHP: a parameter for each name, and one
more.
-/
def phpSignature (names : List String) : String :=
  "    public function __construct("
    ++ Text.join ", " (names.map formalParameter ++ ["array $params = []"]) ++
    ")"

/--
With names the signature is that of the names, and the last parameter behind
them.
-/
theorem phpSignature_of_ne_nil
    (notNil : names ≠ []) :
    phpSignature names = "    public function __construct(" ++
      (Text.join ", " (names.map formalParameter) ++ ", " ++
        "array $params = []") ++ ")" := by
  have someFormals : names.map formalParameter ≠ [] := by simpa using notNil
  have joined :=
    Text.join_append ", " someFormals (List.cons_ne_nil "array $params = []" [])
  rw [Text.join_singleton] at joined
  unfold phpSignature
  simp only [joined]

/-- A constructor in PHP has its signature between its remarks and its body. -/
theorem exists_phpConstructor_eq
    (made : phpConstructor (Generator.parameterFields names) = .ok code) :
    ∃ front back, code.toList =
      front ++ ((phpSignature names).toList ++ back) := by
  unfold phpConstructor at made
  split at made
  · rename_i isTruthy
    have notNil : names ≠ [] := by
      rintro rfl
      cases isTruthy
    have areFormals : (names.map fun name => (name, Value.text "mixed")).map
        (fun field => field.2.display ++ " $" ++ field.1 ++ " = null") =
          names.map formalParameter := by
      rw [List.map_map]
      rfl
    have closed : ", array $params = [])\n" =
        ", " ++ "array $params = []" ++ ")" ++ "\n" := by
      decide
    rw [fieldsFor_parameterFields] at made
    obtain rfl := pure_eq_ok.mp made
    rw [areFormals, closed, phpSignature_of_ne_nil notNil]
    have regroup : ∀ first second third rest : List Char,
        first ++ (second ++ (third ++ rest)) =
          (first ++ (second ++ third)) ++ rest := by
      simp
    simp only [String.toList_append, List.append_assoc]
    exact ⟨_, _, regroup _ _ _ _⟩
  · rename_i isFalsy
    have isNil : names = [] := by
      cases names with
      | nil =>
          rfl
      | cons =>
          exact absurd rfl isFalsy
    have opened :
        "    public function __construct(array $params = [])\n    \x7b\n" =
        phpSignature [] ++ "\n    \x7b\n" := by
      decide
    obtain rfl := pure_eq_ok.mp made
    rw [opened, isNil]
    simp only [String.toList_append, List.append_assoc]
    exact ⟨_, _, (List.append_assoc _ _ _).symm⟩

theorem filled_formalParameter
    (named : Named slots)
    (name : String) :
    filled slots (formalParameter name).toList =
      (formalParameter (fill name slots)).toList := by
  have opened : TagFree ("mixed" ++ " $").toList := .of_not_mem (by decide)
  have apart : ("mixed" ++ " $").toList.getLast? = some '$' := by decide
  have closed : TagFree "= null".toList := .of_not_mem (by decide)
  have written : ∀ name, (formalParameter name).toList =
      ("mixed" ++ " $").toList ++ (name.toList ++ ' ' :: "= null".toList) := by
    intro name
    have spaced : " = null".toList = ' ' :: "= null".toList := by decide
    rw [← spaced, formalParameter, String.append_assoc, String.toList_append,
      String.toList_append (s := name)]
  have divided := filled_tagFree_append named opened
    (by rw [apart]; rintro _ ⟨⟩; decide) (name.toList ++ ' ' :: "= null".toList)
  rw [written, written, divided, filled_append_cons named (by decide),
    filled_eq_self_of_tagFree named closed, fill_toList]

theorem filled_phpSignature
    (named : Named slots)
    (names : List String)
    (front back : List Char) :
    filled slots (front ++ ((phpSignature names).toList ++ back)) =
      filled slots front ++ ((phpSignature
        (names.map fun name => fill name slots)).toList ++
        filled slots back) := by
  have opened : Firm [] "    public function __construct(".toList :=
    firm_of_isFirm (by decide)
  have last :
      filled slots "array $params = []".toList = "array $params = []".toList :=
    filled_eq_self_of_tagFree named (.of_not_mem (by decide))
  have formalsFilled : filled slots
      (Text.join ", " (names.map formalParameter ++
        ["array $params = []"])).toList =
      (Text.join ", " ((names.map fun name => fill name slots).map
        formalParameter ++ ["array $params = []"])).toList := by
    rw [Text.join_toList, filled_intercalate named (by decide) (by decide),
      Text.join_toList]
    simp only [List.map_append, List.map_map, List.map_singleton, last]
    congr 3
    exact funext fun name => filled_formalParameter named name
  have written : ∀ names back, (phpSignature names).toList ++ back =
      "    public function __construct(".toList ++
        ((Text.join ", " (names.map formalParameter ++
          ["array $params = []"])).toList ++ ')' :: back) := by
    intro names back
    have bracket : ")".toList ++ back = ')' :: back := by simp
    unfold phpSignature
    simp only [String.toList_append, List.append_assoc, bracket]
  rw [written, written, filled_append_firm named opened,
    filled_append_cons named (by decide), formalsFilled]

/--
Formal parameters for names: a name without placeholders is taken as it is.
-/
def AreWritten (names formals : List String) : Prop :=
  List.Forall₂ (fun name formal => TagFree name.toList → formal = name) names
    formals

namespace AreWritten

variable {formals : List String}

theorem of_fill
    (named : Named slots)
    (names : List String) :
    AreWritten names (names.map fun name => fill name slots) := by
  rw [AreWritten, List.forall₂_map_right_iff, List.forall₂_same]
  exact fun name _ free => fill_eq_self_of_tagFree named free

theorem eq_of_tagFree
    (written : AreWritten names formals)
    (free : ∀ name ∈ names, TagFree name.toList) :
    formals = names := by
  induction written with
  | nil =>
      rfl
  | cons isFirst _ inductionHypothesis =>
      obtain ⟨firstFree, restFree⟩ := List.forall_mem_cons.mp free
      rw [isFirst firstFree, inductionHypothesis restFree]

end AreWritten

namespace Parts

/--
The signature of the constructor stands in the class, with what is filled
after it.
-/
theorem phpSignature_infix_fill
    {parts : Parts}
    (made : phpConstructor (Generator.parameterFields names) =
      .ok parts.constructor) :
    ∃ formals, AreWritten names formals ∧ (phpSignature formals).toList <:+:
      (fill (classTemplate .php) (parts.slots .php)).toList := by
  have named : Named (parts.closingSlots .php) := fun slot member =>
    parts.named_slots .php slot (List.mem_append_right [_, _, _, _, _] member)
  have found := @content_infix_fill parts .php
    [⟨"class_name", parts.className⟩, ⟨"workflow_name", parts.workflowName⟩,
      ⟨"steps_methods", Text.join "\n\n    " parts.codes⟩,
      ⟨"steps_calls", Text.join "\n            " parts.calls⟩]
    (parts.closingSlots .php) ⟨"constructor", parts.constructor⟩ rfl (by simp)
    (constructor_infix_classCode .php)
  obtain ⟨front, back, constructorIs⟩ := exists_phpConstructor_eq made
  rw [constructorIs, filled_phpSignature named] at found
  refine ⟨_, .of_fill named names, List.IsInfix.trans ?_ found⟩
  exact List.infix_append_of_infix_right (List.prefix_append _ _).isInfix

end Parts

namespace Generator

open Parameters

variable {host after : Host} {workflow : Value} {output : Output}

/--
A class in PHP declares its constructor with one parameter for each name that
its workflow needs, and with one more that is called `params`.  The parameters
are different identifiers if the keys in the workflow make identifiers and
nothing else is called `params`.  As long as no placeholder is in a key, they
are so only then.
-/
theorem generate_formals_fit
    (equipped : Equipped host.files)
    (made : ((standard .php output).generate workflow).start host =
      (.ok (some code), after)) :
    ∃ nodes entry names formals,
      workflow.get "nodes" (.list []) = .ok (.list nodes) ∧
      IsEntry nodes entry ∧
      ofClass host.setOrder workflow = .ok names ∧ names.Nodup ∧
      AreWritten names formals ∧
      (phpSignature formals).toList <:+: code.toList ∧
      (FitSignature nodes entry → AreFormals (formals ++ ["params"])) ∧
      ((∀ name ∈ names, TagFree name.toList) →
        (AreFormals (formals ++ ["params"]) ↔ FitSignature nodes entry)) := by
  obtain ⟨parts, madeOf, rfl⟩ := generate_eq_ok equipped made
  obtain ⟨names, areNames, classNames, isConstructor⟩ := madeOf.constructor
  obtain ⟨value, _, _, areNodes, isTruthy, _⟩ := madeOf.methods
  obtain ⟨nodes, entry, rfl, isEntry, mem_iff⟩ :=
    mem_ofClass areNodes isTruthy areNames
  obtain ⟨formals, written, found⟩ :=
    Parts.phpSignature_infix_fill isConstructor
  have fits := areFormals_iff isEntry classNames.nodup mem_iff
  refine ⟨nodes, entry, names, formals, areNodes, isEntry, areNames,
    classNames.nodup, written, found, fun fit => ?_, fun free => ?_⟩
  · have areFormals := fits.mpr fit
    have free : ∀ name ∈ names, TagFree name.toList := fun name member =>
      (areFormals.identifiers name (List.mem_append_left _ member)).tagFree
    rwa [written.eq_of_tagFree free]
  · rw [written.eq_of_tagFree free, fits]

/--
A webhook with a header whose name is no identifier, and a field that is
called `params`.
-/
def caller : Value :=
  .object [("id", .text "c"), ("name", .text "Receber"),
    ("type", .text "webhook"),
    ("parameters", .object [("body", .object [("params", .text "")]),
      ("headers", .object [("Content-Type", .text "")])])]

/-- A workflow of that webhook alone. -/
def call : Value :=
  .object [("name", .text "Flow"), ("nodes", .list [caller])]

theorem ofClass_call :
  ofClass .asAdded call = .ok ["params", "Content-Type"] := by
  decide +kernel

theorem exists_generate_call :
    ∃ code after, ((freshGenerator .php).generate call).start freshHost =
      (.ok (some code), after) := by
  have areInOrder : ExecutionOrder.ordered (.list [caller]) = .ok [caller] := by
    cbv
  have exists_parts :
      ∃ parts, IsMadeOf (freshGenerator .php) freshHost call parts := by
    refine exists_isMadeOf (exists_eq_ok_of_isOk (by decide +kernel))
      ⟨"Flow", rfl⟩ rfl rfl
      areInOrder ?_ ?_ ofClass_call (exists_eq_ok_of_isOk (by decide +kernel))
      (exists_eq_ok_of_isOk (by decide +kernel))
    · simp only [List.forall_mem_cons]
      exact ⟨exists_eq_ok_of_isOk (by decide +kernel), by simp⟩
    · simp only [List.forall_mem_cons]
      exact ⟨exists_eq_ok_of_isOk (by decide +kernel), by simp⟩
  obtain ⟨parts, madeOf⟩ := exists_parts
  exact ⟨_, generate_of_isMadeOf equipped_freshHost madeOf⟩

/--
The constructor for the call has two parameters of one name, and one that is
no name.
-/
theorem generate_call_formals :
    Equipped freshHost.files ∧
    ∃ code, (∃ after, ((freshGenerator .php).generate call).start freshHost =
        (.ok (some code), after)) ∧
      ("    public function __construct(mixed $params = null, "
        ++ "mixed $Content-Type = null, array $params = [])").toList
        <:+: code.toList ∧
      ¬ AreFormals (["params", "Content-Type"] ++ ["params"]) ∧
      ∃ entry, IsEntry [caller] entry ∧ ¬ FitSignature [caller] entry := by
  obtain ⟨code, after, made⟩ := exists_generate_call
  obtain ⟨nodes, entry, names, formals, areNodes, isEntry, areNames, _, written,
    found, _, fits⟩ :=
    generate_formals_fit equipped_freshHost made
  obtain rfl : [caller] = nodes := by
    cases areNodes
    rfl
  obtain rfl := Except.ok.inj (ofClass_call.symm.trans areNames)
  have free : ∀ name ∈ ["params", "Content-Type"], TagFree name.toList := by
    simp only [List.forall_mem_cons]
    exact ⟨.of_not_mem (by decide), .of_not_mem (by decide), by simp⟩
  obtain rfl := written.eq_of_tagFree free
  have twice : ¬ AreFormals (["params", "Content-Type"] ++ ["params"]) :=
    fun areFormals => absurd areFormals.nodup (by decide)
  have signature : phpSignature ["params", "Content-Type"] =
      "    public function __construct(mixed $params = null, "
        ++ "mixed $Content-Type = null, array $params = [])" := by
    decide
  rw [signature] at found
  exact ⟨equipped_freshHost, code, ⟨after, made⟩, found, twice, entry, isEntry,
    (fits free).not.mp twice⟩

end Generator

end Class

end Flowgen
