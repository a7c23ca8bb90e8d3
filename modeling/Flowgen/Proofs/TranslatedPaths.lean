import Flowgen.Proofs.ConstructorParameters
import Flowgen.Proofs.Registrations

namespace Flowgen

/-!
# One name for the translator and the search

An expression along a path is looked at twice.  A translator turns it into an
access and registers the first name of the path; the search for the names that
a workflow uses reads a name off the text.  It is the same name, since the
path stands behind the only dollar sign of the expression.
-/

namespace Parameters

variable {before after : List Char} {first : String} {nodes : List Value}

/--
A text with one dollar sign refers to the name behind it, and to no other.
-/
theorem refers_iff_of_one_dollar
    {content : String}
    (contentIs : content.toList = before ++ '$' :: after)
    (opened : Expression.opening <:+: content.toList)
    (plainBefore : '$' ∉ before)
    (plainAfter : '$' ∉ after)
    (isReference : ReferenceAt first.toList ('$' :: after))
    (name : String) :
    Refers content name ↔ name = first := by
  constructor
  · rintro ⟨_, rest, isSuffix, isOther⟩
    rw [contentIs] at isSuffix
    have starts := isOther.head?_eq
    have fromDollar := suffix_of_suffix_append plainBefore isSuffix starts
    rcases List.suffix_cons_iff.mp fromDollar with rfl | inside
    · exact String.toList_inj.mp (isOther.unique isReference)
    · exact absurd (inside.subset (List.mem_of_head? starts)) plainAfter
  · rintro rfl
    exact ⟨opened, '$' :: after, contentIs ▸ List.suffix_append _ _,
      isReference⟩

/--
The search over nodes comes to an end exactly if each has parameters with
names.
-/
theorem exists_usedByNodes_iff :
    (∃ names, usedByNodes nodes = .ok names) ↔
      ∀ node ∈ nodes, ∃ fields, HasParameters node fields := by
  induction nodes with
  | nil =>
      simp [usedByNodes]
  | cons node nodes inductionHypothesis =>
      rw [List.forall_mem_cons, ← inductionHypothesis]
      constructor
      · rintro ⟨names, made⟩
        obtain ⟨parameters, areParameters, made⟩ := bind_eq_ok.mp made
        obtain ⟨fields, areFields, made⟩ := bind_eq_ok.mp made
        obtain ⟨others, areOthers, _⟩ := bind_eq_ok.mp made
        rw [Value.fieldsFor_eq_ok.mp areFields] at areParameters
        exact ⟨⟨fields, areParameters⟩, others, areOthers⟩
      · rintro ⟨⟨fields, has⟩, others, areOthers⟩
        refine ⟨usedInFields fields ++ others, ?_⟩
        rw [usedByNodes, has, areOthers]
        rfl

/-- The names that a workflow uses are those that its nodes use. -/
theorem usedBy_eq_ok_iff
    {workflow : Value}
    {found : List String}
    (areNodes : workflow.get "nodes" (.list []) = .ok (.list nodes)) :
    usedBy workflow = .ok found ↔
      ∃ names, usedByNodes nodes = .ok names ∧ names.eraseDups = found := by
  rw [usedBy, areNodes]
  change (usedByNodes nodes >>= fun names => pure names.eraseDups) = .ok found ↔
    _
  exact bind_eq_ok.trans (exists_congr fun names => and_congr_right fun _ =>
    pure_eq_ok)

end Parameters

namespace Expression

variable {names others : List String} {first content : String}

/-- A supported expression with white space around it. -/
def Spaced (names : List String) (content : String) : Prop :=
  ∃ (expression : String) (lead trail : List Char),
    Supported names expression ∧
      (∀ character ∈ lead, Text.isBlank character = true) ∧
      (∀ character ∈ trail, Text.isBlank character = true) ∧
      content.toList = lead ++ expression.toList ++ trail

/--
An expression with white space around it is an access too, and registers its
first name.
-/
theorem Spaced.renderText_eq
    (spaced : Spaced names content)
    (scope : Scope) :
    renderText scope content =
      (.ok (accessCode names), scope.register (names.headD "")) := by
  obtain ⟨expression, lead, trail, supported, blankLead, blankTrail,
    contentIs⟩ := spaced
  obtain ⟨inside, isInside, isAccess⟩ := supported.exists_meaning
  rw [renderText, contentIs, Template.trimmed_append blankLead blankTrail,
    isInside]
  simp only [isAccess]

/-- A path is its first name and then nothing that the name goes on into. -/
theorem exists_path_eq
    (first : String)
    (others : List String) :
    ∃ more : List Char,
      List.intercalate ['.'] ((first :: others).map String.toList) =
        first.toList ++ more ∧
        ∀ character ∈ more.head?,
        Parameters.continuesIdentifier character = false := by
  cases others with
  | nil =>
      exact ⟨[], by simp, by simp⟩
  | cons second others =>
      refine ⟨'.' :: List.intercalate ['.']
        ((second :: others).map String.toList), ?_, ?_⟩
      · rw [List.map_cons, List.map_cons, List.intercalate_cons_cons,
          ← List.map_cons]
        simp only [List.append_assoc, List.singleton_append]
      · rintro character ⟨⟩
        decide

theorem dollar_not_mem_of_blank
    {blank : List Char}
    (isBlank : ∀ character ∈ blank, Text.isBlank character = true) :
    '$' ∉ blank :=
  fun member => absurd (isBlank '$' member) (by decide)

theorem dollar_not_mem_path
    (isName : ∀ name ∈ names, Parameters.IsName name.toList) :
    '$' ∉ List.intercalate ['.'] (names.map String.toList) := by
  induction names with
  | nil =>
      simp
  | cons name names inductionHypothesis =>
      obtain ⟨isFirst, areOthers⟩ := List.forall_mem_cons.mp isName
      cases names with
      | nil =>
          simpa using isFirst.dollar_not_mem
      | cons second names =>
          rw [List.map_cons, List.map_cons, List.intercalate_cons_cons]
          simp only [List.mem_append, not_or]
          exact ⟨⟨isFirst.dollar_not_mem, by decide⟩,
            inductionHypothesis areOthers⟩

/-- The text after the path of an expression does not go on a name. -/
theorem endsName_blank_closing
    {blank : List Char}
    (isBlank : ∀ character ∈ blank, Text.isBlank character = true)
    (rest : List Char) :
    Parameters.EndsName (blank ++ (closing ++ rest)) := by
  cases blank with
  | nil =>
      rintro character ⟨⟩
      decide
  | cons character blank =>
      rintro _ ⟨⟩
      have isFirst := isBlank character List.mem_cons_self
      by_contra goesOn
      have isInside : isInsideCharacter character = true := by
        simp only [isInsideCharacter, Bool.not_eq_false _ ▸ goesOn,
          Bool.true_or]
      rw [isBlank_of_isInsideCharacter isInside] at isFirst
      cases isFirst

/-- An expression refers to the first name of its path and to no other. -/
theorem Spaced.refers_iff
    (spaced : Spaced (first :: others) content)
    (name : String) :
    Parameters.Refers content name ↔ name = first := by
  obtain ⟨expression, lead, trail, supported, blankLead, blankTrail,
    contentIs⟩ := spaced
  obtain ⟨_, isName, source, isSource, innerLead, innerTrail, blankInnerLead,
    blankInnerTrail, written⟩ := supported
  have plainPath := dollar_not_mem_path isName
  obtain ⟨more, pathIs, ends⟩ := exists_path_eq first others
  rw [pathIs] at written plainPath
  have whole : content.toList = (lead ++ opening ++ innerLead) ++ '$' ::
      ("json.".toList ++ (source ++ '.' ::
        (first.toList ++ (more ++ (innerTrail ++ (closing ++ trail)))))) := by
    rw [contentIs, written, show "$json.".toList =
      '$' :: "json.".toList from rfl]
    simp only [List.append_assoc, List.cons_append]
  refine Parameters.refers_iff_of_one_dollar whole ?_ ?_ ?_ ?_ name
  · rw [whole]
    exact ⟨lead, _, by simp only [List.append_assoc]; rfl⟩
  · simp only [List.mem_append, not_or]
    exact ⟨⟨dollar_not_mem_of_blank blankLead, by decide⟩,
      dollar_not_mem_of_blank blankInnerLead⟩
  · have plainSource : ∀ source ∈ sources, '$' ∉ source := by
      decide
    simp only [List.mem_append, List.mem_cons, not_or] at plainPath ⊢
    exact ⟨by decide, plainSource source isSource, by decide, plainPath.1,
      plainPath.2,
      dollar_not_mem_of_blank blankInnerTrail, by decide,
      dollar_not_mem_of_blank blankTrail⟩
  · refine ⟨source, isSource, more ++ (innerTrail ++ (closing ++ trail)),
      isName first List.mem_cons_self, ?_, rfl⟩
    cases more with
    | nil =>
        exact endsName_blank_closing blankInnerTrail trail
    | cons character more =>
        exact ends

open Parameters in
/--
An expression along a path is translated to the access along its names
whatever the scope, which gains the first name and nothing else.  The search
finds this name in the text and no other, and so finds it for every workflow
with a node that has the text as a parameter, provided that all its nodes have
parameters.
-/
theorem Spaced.registers_found_name
    (spaced : Spaced (first :: others) content) :
    (∀ scope : Scope, ∃ after : Scope,
        onText renderText scope (.text content) =
            (.ok (.text ("$this->params" ++
              String.join ((first :: others).map fun name =>
                "['" ++ name ++ "']"))), after) ∧
          after.used =
            (if first ∈ scope.used then scope.used else scope.used ++ [first]) ∧
          after.parameters =
            if first ∈ scope.parameters.map Prod.fst then scope.parameters
            else scope.parameters ++ [(first, .text "mixed")]) ∧
      (∀ name, name ∈ references content ↔ name = first) ∧
      ∀ (workflow node : Value) (nodes : List Value) (fields : Fields)
        (key : String),
        workflow.get "nodes" (.list []) = .ok (.list nodes) → node ∈ nodes →
        HasParameters node fields → (key, .text content) ∈ fields →
          ((∃ found, usedBy workflow = .ok found) ↔
              ∀ other ∈ nodes, ∃ fields, HasParameters other fields) ∧
            ∀ found, usedBy workflow = .ok found → first ∈ found := by
  refine ⟨fun scope => ?_, fun name => ?_, ?_⟩
  · refine ⟨scope.register first, ?_, scope.register_facts first⟩
    rw [onText, spaced.renderText_eq]
    rfl
  · rw [mem_references, spaced.refers_iff]
  · intro workflow node nodes fields key areNodes member has isField
    refine ⟨?_, fun found made => ?_⟩
    · rw [← exists_usedByNodes_iff]
      simp only [usedBy_eq_ok_iff areNodes]
      exact ⟨fun ⟨_, names, made, _⟩ => ⟨names, made⟩,
        fun ⟨names, made⟩ => ⟨_, names, made, rfl⟩⟩
    · obtain ⟨names, areNames, rfl⟩ := (usedBy_eq_ok_iff areNodes).mp made
      rw [List.mem_eraseDups, mem_usedByNodes areNames]
      exact ⟨node, member, fields, has, [], content, .here isField,
        (spaced.refers_iff first).mpr rfl⟩

/--
An expression whose first name is a word of the markers, with white space all
around.
-/
def markerNamed : String :=
  " =\x7b\x7b\t$json.query.json.body \x7d\x7d\n"

/-- A node with that expression as a parameter. -/
def markerNode : Value :=
  .object [("parameters", .object [("url", .text markerNamed)])]

theorem spaced_markerNamed :
    Spaced ["json", "body"] markerNamed := by
  refine ⟨"=\x7b\x7b\t$json.query.json.body \x7d\x7d", [' '], ['\n'],
    ⟨by simp, by decide, "query".toList, by decide, ['\t'], [' '], ?_⟩, ?_⟩
  · exact ⟨by decide, by decide, by decide⟩
  · exact ⟨by decide, by decide, by decide⟩

open Parameters in
/--
The name is registered in a scope that has it not, and found in a workflow of
two nodes.
-/
theorem registers_found_name_markerNamed :
    Spaced ["json", "body"] markerNamed ∧
      (∃ after, onText renderText ⟨[("id", .text "mixed")], []⟩
        (.text markerNamed) =
          (.ok (.text "$this->params['json']['body']"), after) ∧
        after.used = ["json"] ∧
        after.parameters.map Prod.fst = ["id", "json"]) ∧
      ∃ found, usedBy (.object [("nodes", .list [.object [], markerNode])]) =
        .ok found ∧ "json" ∈ found := by
  obtain ⟨translates, _, finds⟩ := spaced_markerNamed.registers_found_name
  refine ⟨spaced_markerNamed, ?_, ?_⟩
  · obtain ⟨after, translated, used, parameters⟩ :=
      translates ⟨[("id", .text "mixed")], []⟩
    refine ⟨after, translated, used, ?_⟩
    rw [parameters]
    rfl
  · obtain ⟨ends, contains⟩ :=
      finds (.object [("nodes", .list [.object [], markerNode])])
      markerNode [.object [], markerNode] [("url", .text markerNamed)] "url" rfl
      (List.mem_cons_of_mem _ List.mem_cons_self) rfl List.mem_cons_self
    obtain ⟨found, made⟩ := ends.mpr (by
      simp only [List.forall_mem_cons]
      exact ⟨⟨_, rfl⟩, ⟨_, rfl⟩, by simp⟩)
    exact ⟨found, made, contains found made⟩

end Expression

end Flowgen
