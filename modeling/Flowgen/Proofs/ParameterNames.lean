import Flowgen.Parameters
import Flowgen.Proofs.Computations

namespace Flowgen.Parameters

/-!
# The parameters of a class

The declared names come first, each at its first place, and the names that are
used but not declared follow as the set of used names is walked through.  So no
name comes twice.
-/

variable {names declared : List String}

/-- A node declares the names of a webhook, and then those in its parameters. -/
theorem ofNode_eq_ok
    {node : Value}
    (made : ofNode node = .ok declared) :
    ∃ type direct fields,
      node.get "parameters" (.object []) = .ok (.object fields) ∧
      typeOf node = .ok type ∧
      (if Text.contains type "webhook" then webhookNames (.object fields)
        else .ok []) = .ok direct ∧
      declared = (direct ++ declaredInFields "" fields).eraseDups := by
  unfold ofNode at made
  obtain ⟨parameters, areParameters, made⟩ := bind_eq_ok.mp made
  obtain ⟨type, isType, made⟩ := bind_eq_ok.mp made
  split at made
  all_goals
    rename_i mentions
    obtain ⟨direct, areDirect, made⟩ := bind_eq_ok.mp made
    obtain ⟨fields, areFields, made⟩ := bind_eq_ok.mp made
    obtain rfl := Value.fieldsFor_eq_ok.mp areFields
    refine ⟨type, direct, fields, areParameters, isType, ?_,
      (pure_eq_ok.mp made).symm⟩
    simpa only [mentions, if_true, Bool.false_eq_true, if_false] using areDirect

theorem nodup_ofNode
    {node : Value}
    (made : ofNode node = .ok declared) :
    declared.Nodup := by
  obtain ⟨_, _, _, _, _, _, rfl⟩ := ofNode_eq_ok made
  exact nodup_eraseDups _

theorem nodup_ofWorkflow
    {workflow : Value}
    (made : ofWorkflow workflow = .ok declared) :
    declared.Nodup := by
  unfold ofWorkflow at made
  obtain ⟨nodes, _, made⟩ := bind_eq_ok.mp made
  split at made
  · obtain ⟨elements, _, made⟩ := bind_eq_ok.mp made
    obtain ⟨entry, _, made⟩ := bind_eq_ok.mp made
    cases entry with
    | some node =>
        exact nodup_ofNode made
    | none =>
        exact nodup_ofNode made
  · obtain rfl := pure_eq_ok.mp made
    exact List.nodup_nil

theorem nodup_usedBy
    {workflow : Value}
    {used : List String}
    (areUsed : usedBy workflow = .ok used) :
    used.Nodup := by
  unfold usedBy at areUsed
  obtain ⟨nodes, _, areUsed⟩ := bind_eq_ok.mp areUsed
  obtain ⟨elements, _, areUsed⟩ := bind_eq_ok.mp areUsed
  obtain ⟨all, _, areUsed⟩ := bind_eq_ok.mp areUsed
  obtain rfl := pure_eq_ok.mp areUsed
  exact nodup_eraseDups all

/--
The names of a class are the declared ones, and then the others that a walk
meets.
-/
theorem ofClass_eq_ok_iff
    {order : SetOrder}
    {workflow : Value} :
    ofClass order workflow = .ok names ↔
      ∃ declared used, ofWorkflow workflow = .ok declared ∧
      usedBy workflow = .ok used ∧
        declared ++ (order.walk used).filter
          (fun name => !declared.contains name) = names := by
  simp only [ofClass, bind_eq_ok, pure_eq_ok]
  constructor
  · rintro ⟨declared, areDeclared, used, areUsed, namesAre⟩
    exact ⟨declared, used, areDeclared, areUsed, namesAre⟩
  · rintro ⟨declared, used, areDeclared, areUsed, namesAre⟩
    exact ⟨declared, areDeclared, used, areUsed, namesAre⟩

/--
The names of the parameters of a class: those that the workflow declares, in
their order, and then the missing ones among those that it uses, none twice.
-/
structure ClassNames (workflow : Value) (names : List String) : Prop where
  parts : ∃ declared used missing,
    ofWorkflow workflow = .ok declared ∧ usedBy workflow = .ok used ∧
    names = declared ++ missing ∧
    ∀ name, name ∈ missing ↔ name ∈ used ∧ name ∉ declared
  nodup : names.Nodup

theorem classNames_ofClass
    {order : SetOrder}
    {workflow : Value}
    (made : ofClass order workflow = .ok names) :
    ClassNames workflow names := by
  obtain ⟨declared, used, areDeclared, areUsed, rfl⟩ :=
    ofClass_eq_ok_iff.mp made
  have missing : ∀ name,
      (name ∈ (order.walk used).filter fun name => !declared.contains name) ↔
        name ∈ used ∧ name ∉ declared := by
    intro name
    simp
  refine ⟨⟨declared, used, _, areDeclared, areUsed, rfl, missing⟩, ?_⟩
  refine List.nodup_append'.mpr ⟨nodup_ofWorkflow areDeclared, ?_, ?_⟩
  · exact (SetOrder.nodup_walk.mpr (nodup_usedBy areUsed)).filter _
  · exact fun name isDeclared isMissing =>
      ((missing name).mp isMissing).2 isDeclared

/-- Two walks through a set give a class the same names, in two orders. -/
theorem ofClass_perm
    {order other : SetOrder}
    {workflow : Value}
    {others : List String}
    (made : ofClass order workflow = .ok names)
    (alsoMade : ofClass other workflow = .ok others) :
    names.Perm others := by
  obtain ⟨declared, used, areDeclared, areUsed, rfl⟩ :=
    ofClass_eq_ok_iff.mp made
  obtain ⟨_, _, alsoDeclared, alsoUsed, rfl⟩ := ofClass_eq_ok_iff.mp alsoMade
  obtain rfl := Except.ok.inj (areDeclared.symm.trans alsoDeclared)
  obtain rfl := Except.ok.inj (areUsed.symm.trans alsoUsed)
  have walked := (order.walk_perm used).trans (other.walk_perm used).symm
  exact (walked.filter _).append_left declared

end Flowgen.Parameters
