import Flowgen.Proofs.ClassLines
import Flowgen.Proofs.MethodDeclarations

namespace Flowgen

/-!
# The languages that a class is written in

A class calls its methods as PHP does, whatever language it is for.  Its
methods are declared in the language of their templates, and in PHP where
there is no template.  So a class is in one language throughout if and only if
it is for PHP and no method comes from a template in another language.
-/

open Template Session

/-- How a method is called in a language. -/
def Language.call : Language → String → String
  | .php, name => "$this->" ++ name ++ "();"
  | .python, name => "self." ++ name ++ "()"
  | .javascript, name => "this." ++ name ++ "()"

theorem Language.call_eq_iff
    (language : Language)
    (name : String) :
    Language.php.call name = language.call name ↔ language = .php := by
  have first : (Language.php.call name).toList.head? = some '$' := by
    simp [Language.call]
  constructor
  · intro same
    rw [same] at first
    cases language with
    | php =>
        rfl
    | python =>
        simp [Language.call] at first
    | javascript =>
        simp [Language.call] at first
  · rintro rfl
    rfl

namespace Class

/--
A node of a class: the name of its method, the call to it, and the method in
the class.
-/
structure Step where
  node : Value
  name : String
  call : String
  method : List Char

namespace Step

/-- A step whose call and method are in the syntax of a language. -/
def Fits (step : Step) (language : Language) : Prop :=
  step.call = language.call step.name ∧
    Method.DeclaredIn language step.name step.method

/-- A step of a class, with its method in the language of its template. -/
structure IsWritten
    (step : Step)
    (host : Host)
    (language : Language)
    (code : String) : Prop where
  named : Naming.methodName step.node = .ok step.name
  called : step.call = Language.php.call step.name
  inClass : step.method <:+: code.toList
  declared : ∃ source, Method.WrittenIn host language step.node source ∧
    ∀ other, Method.DeclaredIn other step.name step.method ↔ other = source

variable {step : Step} {host : Host} {language : Language} {code : String}

/-- A step fits a language if it is PHP and its method is written in it. -/
theorem IsWritten.fits_iff
    (isWritten : step.IsWritten host language code) :
    step.Fits language ↔
      language = .php ∧ Method.WrittenIn host language step.node .php := by
  obtain ⟨source, written, declared⟩ := isWritten.declared
  rw [Fits, isWritten.called, Language.call_eq_iff, declared]
  constructor
  · rintro ⟨rfl, rfl⟩
    exact ⟨rfl, written⟩
  · rintro ⟨rfl, inPhp⟩
    exact ⟨rfl, inPhp.unique written⟩

end Step

namespace Generator

variable {generator : Generator} {host after : Host} {workflow node : Value}
  {nodes : List Value} {code : String} {language : Language} {output : Output}

/-- No method of an equipped generator is empty, so all of them are kept. -/
theorem Mapping.kept_eq
    (equipped : Equipped host.files)
    (mapping : Mapping (standard language output) host nodes) :
    mapping.kept = mapping.entries := by
  refine List.filter_eq_self.mpr fun entry member => ?_
  obtain ⟨name, source, nameIs, _, lead, isLead, opens⟩ :=
    Method.opens_ofNode equipped (mapping.coded entry member)
  have tight : Method.IsTight (source.header lead name.toList) :=
    Method.isTight_header isLead (Naming.methodName_ne_nil nameIs)
      fun character inName =>
        Naming.not_isBlank_of_isAlphanum
          (Naming.isAlphanum_of_mem_methodName nameIs character inName)
  have notNil := opens.ne_nil tight
  simpa using notNil

/--
The steps of a class: its nodes with their calls, and their codes filled by
later slots.
-/
theorem exists_steps
    {entries : List (Value × String)}
    {calls : List String}
    (slots : List Slot)
    (areCalls : List.Forall₂
      (fun entry call =>
        ∃ name, Naming.methodName entry.1 = .ok name ∧
          call = "$this->" ++ name ++ "();")
      entries calls) :
    ∃ steps : List Step, steps.map Step.node = entries.map Prod.fst ∧
      steps.map Step.call = calls ∧
      ∀ step ∈ steps, Naming.methodName step.node = .ok step.name ∧
        step.call = Language.php.call step.name ∧
        ∃ entry ∈ entries, entry.1 = step.node ∧
        step.method = filled slots entry.2.toList := by
  induction areCalls with
  | nil =>
      exact ⟨[], rfl, rfl, by simp⟩
  | @cons entry call entries calls isCall _ inductionHypothesis =>
      obtain ⟨name, nameIs, rfl⟩ := isCall
      obtain ⟨steps, nodesAre, callsAre, facts⟩ := inductionHypothesis
      let step : Step :=
        ⟨entry.1, name, Language.php.call name, filled slots entry.2.toList⟩
      refine ⟨step :: steps, ?_, ?_, ?_⟩
      · rw [List.map_cons, List.map_cons, nodesAre]
      · rw [List.map_cons, callsAre]
        rfl
      · refine List.forall_mem_cons.mpr
          ⟨⟨nameIs, rfl, entry, List.mem_cons_self, rfl, rfl⟩, ?_⟩
        intro step member
        obtain ⟨stepNamed, stepCalled, other, isOther, sameNode, methodIs⟩ :=
          facts step member
        exact ⟨stepNamed, stepCalled, other, List.mem_cons_of_mem _ isOther,
          sameNode, methodIs⟩

/-- The method of a node is declared in a class as it is by itself. -/
theorem declaredIn_filled_iff
    {name method : String}
    {slots : List Slot}
    (equipped : Equipped host.files)
    (named : Named slots)
    (made : ((Method.ofNode .standard language.code node).start host).1 =
      .ok method)
    (nameIs : Naming.methodName node = .ok name) :
    ∃ source, Method.WrittenIn host language node source ∧
      ∀ other, Method.DeclaredIn other name (filled slots method.toList) ↔
      other = source := by
  obtain ⟨_, source, otherIs, written, lead, isLead, opens⟩ :=
    Method.opens_ofNode equipped made
  obtain rfl := Except.ok.inj (nameIs.symm.trans otherIs)
  have free :=
    Method.tagFree_header isLead (Naming.brace_not_mem_methodName nameIs)
  have opensFilled := opens.filled named
  rw [filled_eq_self_of_tagFree named free] at opensFilled
  exact ⟨source, written, fun other =>
    opensFilled.declaredIn_iff isLead nameIs other⟩

/--
Every node of a class has a call and a method.  The calls stand behind their
remark, in order, and are those of PHP in every language.  The methods are
declared in the language that they are written in: that of the template, and
PHP if there is none.  So calls and methods are in the language of the class
if and only if that is PHP and all methods are written in it.  A template in
another language is only found for a type with a slash.
-/
theorem generate_calls_as_php
    (equipped : Equipped host.files)
    (made : ((standard language output).generate workflow).start host =
      (.ok (some code), after)) :
    ∃ nodes inOrder, ∃ steps : List Step,
      workflow.get "nodes" (.list []) = .ok nodes ∧
      ExecutionOrder.ordered nodes = .ok inOrder ∧
      steps.map Step.node = inOrder ∧
      '\n' :: ((callsText language (steps.map Step.call)).toList ++ ['\n']) <:+:
        code.toList ∧
      (∀ step ∈ steps, step.IsWritten host language code) ∧
      ((∀ step ∈ steps, step.Fits language) ↔
        steps = [] ∨ language = .php ∧
          ∀ step ∈ steps, Method.WrittenIn host language step.node .php) ∧
      ∀ step ∈ steps, ∀ written lines,
      step.node.get "type" (.text "") = .ok (.text written) →
        '/' ∉ (Method.normalizedType written).toList →
        Method.HasTemplate host language step.node lines →
        Method.WrittenIn host language step.node language := by
  obtain ⟨parts, madeOf, codeIs⟩ := generate_eq_ok equipped made
  obtain ⟨nodes, inOrder, mapping, areNodes, _, areInOrder, codesAre,
    areCalls⟩ := madeOf.methods
  have plainCalls := Mapping.brace_not_mem_calls areCalls
  rw [Mapping.Calls, mapping.kept_eq equipped] at areCalls
  obtain ⟨steps, nodesAre, callsAre, facts⟩ :=
    exists_steps (parts.laterSlots language) areCalls
  have areWritten : ∀ step ∈ steps, step.IsWritten host language code := by
    intro step member
    obtain ⟨named, called, entry, isEntry, sameNode, methodIs⟩ :=
      facts step member
    have coded := mapping.coded entry isEntry
    have isCode : entry.2 ∈ parts.codes := by
      rw [codesAre, Mapping.codes, mapping.kept_eq equipped]
      exact List.mem_map_of_mem isEntry
    rw [sameNode] at coded
    refine ⟨named, called, ?_, ?_⟩
    · rw [methodIs, codeIs]
      exact parts.code_infix_fill language isCode
    · rw [methodIs]
      exact declaredIn_filled_iff equipped (parts.named_laterSlots language)
        coded named
  refine ⟨nodes, inOrder, steps, areNodes, areInOrder, ?_, ?_, areWritten, ?_,
    ?_⟩
  · rw [nodesAre, mapping.ofNodes]
  · rw [callsAre, codeIs]
    exact Parts.calls_infix_fill language plainCalls
  · cases steps with
    | nil =>
        simp
    | cons first rest =>
        have fits : (∀ step ∈ first :: rest, step.Fits language) ↔
            ∀ step ∈ first :: rest,
            language = .php ∧ Method.WrittenIn host language step.node .php :=
          forall₂_congr fun step member => (areWritten step member).fits_iff
        rw [fits]
        constructor
        · intro inPhp
          exact .inr ⟨(inPhp first List.mem_cons_self).1,
            fun step member => (inPhp step member).2⟩
        · rintro (isNil | ⟨isPhp, inPhp⟩)
          · cases isNil
          · exact fun step member => ⟨isPhp, inPhp step member⟩
  · intro step member written lines typed noSlash hasTemplate
    obtain ⟨own, isOwn, found⟩ := hasTemplate.own equipped typed noSlash
    exact .template (mem_codesOf isOwn) found

/-- A node that sets values, for which there are templates. -/
def setter : Value :=
  .object [("id", .text "a"), ("name", .text "Anotar"), ("type", .text "set"),
    ("connections", .object [("main",
      .list [.list [.object [("node", .text "b")]]])])]

/--
A workflow that sets values and sends them, for which there is no template.
-/
def setting : Value :=
  .object [("name", .text "Flow"), ("nodes", .list [setter, sender])]

theorem ordered_setting :
  ExecutionOrder.ordered (.list [setter, sender]) = .ok [setter, sender] := by
  cbv

theorem exists_generate_setting :
    ∃ code after, ((freshGenerator .python).generate setting).start freshHost =
      (.ok (some code), after) := by
  have areNames : Parameters.ofClass .asAdded setting = .ok ["email"] := by
    decide +kernel
  have noOwn : NoOwn freshHost.files .python "set" := by
    intro isPhp
    cases isPhp
  have setterCoded : ∃ code,
      ((Method.ofNode .standard Language.python.code setter).start
        freshHost).1 = .ok code :=
    Method.exists_ofNode_eq equipped_freshHost noOwn rfl (by decide +kernel)
      (show ("set", Shipped.pythonSetCode) ∈ typedCodes .python by
        simp [typedCodes])
      (by decide +kernel)
  have exists_parts :
      ∃ parts, IsMadeOf (freshGenerator .python) freshHost setting parts := by
    refine exists_isMadeOf (exists_eq_ok_of_isOk (by decide +kernel))
      ⟨"Flow", rfl⟩ rfl rfl
      ordered_setting ?_ ?_ areNames (exists_eq_ok_of_isOk (by decide +kernel))
      (exists_eq_ok_of_isOk (by decide +kernel))
    · simp only [List.forall_mem_cons]
      exact ⟨setterCoded, exists_eq_ok_of_isOk (by decide +kernel), by simp⟩
    · simp only [List.forall_mem_cons]
      exact ⟨exists_eq_ok_of_isOk (by decide +kernel),
        exists_eq_ok_of_isOk (by decide +kernel), by simp⟩
  obtain ⟨parts, madeOf⟩ := exists_parts
  exact ⟨_, generate_of_isMadeOf equipped_freshHost madeOf⟩

/-- The class for this workflow in Python does not fit Python. -/
theorem generate_setting_calls_as_php :
    Equipped freshHost.files ∧
    ∃ code, (∃ after, ((freshGenerator .python).generate setting).start
        freshHost = (.ok (some code), after)) ∧
      ∃ steps : List Step, steps.map Step.node = [setter, sender] ∧
        '\n' :: ((callsText .python (steps.map Step.call)).toList ++
          ['\n']) <:+: code.toList ∧
        (∀ step ∈ steps, step.IsWritten freshHost .python code) ∧
        ¬ ∀ step ∈ steps, step.Fits .python := by
  obtain ⟨code, after, made⟩ := exists_generate_setting
  obtain ⟨nodes, inOrder, steps, areNodes, areInOrder, nodesAre, called,
    areWritten, fits, _⟩ :=
    generate_calls_as_php equipped_freshHost made
  cases areNodes
  obtain rfl := Except.ok.inj (ordered_setting.symm.trans areInOrder)
  refine ⟨equipped_freshHost, code, ⟨after, made⟩, steps, nodesAre, called,
    areWritten, ?_⟩
  rw [fits]
  rintro (rfl | ⟨isPhp, _⟩)
  · cases nodesAre
  · cases isPhp

end Generator

end Class

end Flowgen
