import SiteOperator.Plan
import SiteOperator.Proofs.Results

/-!
# What composing a plan gives

A composed plan files every dependent under its own kind and gives all of them the names derived
from the site (`compose_wellFormed`), and it always has the workload (`compose_workload`).
-/

namespace SiteOperator

namespace Plan

def ofSpecs (site : String) (labels : Option (Entries String)) (specs : PerKind (Option Fields))
    (omitPolicies : Bool) : Plan where
  names := .derive site
  composition := .ofSite site labels
  dependents := .ofFn fun kind => (specs.get kind).map
    (⟨kind, (SiteNames.derive site).baseName, (SiteNames.derive site).namespaceName, ·⟩)
  omitPolicies := omitPolicies

variable {site : String} {labels : Option (Entries String)} {template overrides : SpecBlocks}
  {plan : Plan}

theorem compose_eq_ok_iff :
    compose site labels template overrides = .ok plan ↔
      ∃ postgres keydb nfs moodle,
        supportingSpec (.ofSite site labels) template overrides .postgres = .ok postgres ∧
        supportingSpec (.ofSite site labels) template overrides .keydb = .ok keydb ∧
        supportingSpec (.ofSite site labels) template overrides .nfs = .ok nfs ∧
        effectiveSpec .moodle (.ofSite site labels)
          (linkedMoodleBlock (SiteNames.derive site).baseName template overrides)
          (overrides.blocks.get .moodle) = .ok moodle ∧
        ofSpecs site labels ⟨some (withNotifyUuid site moodle), postgres, keydb, nfs⟩
          ((overrides.omitPolicies.or template.omitPolicies).getD false) = plan := by
  unfold compose
  simp only [except_bind_eq_ok_iff, exists_and_left, pure, Except.pure, Except.ok.injEq]
  rfl

/-- Every dependent stands under its own kind and carries the names of the plan. -/
def WellFormed (plan : Plan) : Prop :=
  ∀ kind d, plan.dependent? kind = some d →
    d.kind = kind ∧ d.name = plan.names.baseName ∧ d.namespaceName = plan.names.namespaceName

theorem compose_wellFormed (h : compose site labels template overrides = .ok plan) :
    plan.WellFormed := by
  obtain ⟨postgres, keydb, nfs, moodle, -, -, -, -, rfl⟩ := compose_eq_ok_iff.mp h
  intro kind d hd
  rw [dependent?, ofSpecs, PerKind.get_ofFn] at hd
  obtain ⟨spec, -, rfl⟩ := Option.map_eq_some_iff.mp hd
  exact ⟨rfl, rfl, rfl⟩

theorem compose_names (h : compose site labels template overrides = .ok plan) :
    plan.names = .derive site := by
  obtain ⟨postgres, keydb, nfs, moodle, -, -, -, -, rfl⟩ := compose_eq_ok_iff.mp h
  rfl

theorem compose_composition (h : compose site labels template overrides = .ok plan) :
    plan.composition = .ofSite site labels := by
  obtain ⟨postgres, keydb, nfs, moodle, -, -, -, -, rfl⟩ := compose_eq_ok_iff.mp h
  rfl

theorem compose_workload (h : compose site labels template overrides = .ok plan) :
    ∃ moodle, plan.dependent? .moodle = some moodle := by
  obtain ⟨postgres, keydb, nfs, moodle, -, -, -, -, rfl⟩ := compose_eq_ok_iff.mp h
  exact ⟨_, rfl⟩

/-- A site without any block, in its template or of its own, has the workload and nothing else. -/
theorem compose_empty (site : String) (labels : Option (Entries String)) :
    ∃ moodle, compose site labels .empty .empty =
      .ok (ofSpecs site labels ⟨some moodle, none, none, none⟩ false) :=
  ⟨_, rfl⟩

theorem has_iff {kind : DependentKind} :
    plan.has kind = true ↔ ∃ d, plan.dependent? kind = some d :=
  Option.isSome_iff_exists

theorem WellFormed.kind_eq (h : plan.WellFormed) {kind : DependentKind} {d : DependentSpec}
    (hd : plan.dependent? kind = some d) : d.kind = kind := (h kind d hd).1

end Plan

end SiteOperator
