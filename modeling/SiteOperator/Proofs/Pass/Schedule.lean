import SiteOperator.Proofs.Pass.Reports
import SiteOperator.Proofs.Plan.Composed

/-!
# The schedules of the passes

A pass that observes every configured dependent and then applies some of them follows the schedule
`observations plan ++ applications plan order f`, where `f` is what is done to a spec before it is
applied. In a well-formed plan no call of such a schedule occurs twice, and applying a dependent is
the last call about its kind, so the status that came back is what is known of the kind at the end
(`AppliedLast.get_learn`).
-/

namespace SiteOperator

namespace Pass

def observations (plan : Plan) : List DependentCall :=
  (configured plan DependentKind.all).map .observe

/-- The configured dependents are applied in an order of kinds, with the specs that `f` gives. -/
def applications (plan : Plan) (order : List DependentKind) (f : DependentSpec → DependentSpec) :
    List DependentCall :=
  (configured plan order).map fun d => .apply (f d)

def appliedKinds (made : List DependentCall) : List DependentKind :=
  made.filterMap fun
    | .apply d => some d.kind
    | .observe _ | .delete _ => none

/-- Once a dependent has been applied, no later call is about its kind. -/
def AppliedLast (made : List DependentCall) : Prop :=
  made.Pairwise fun call later => ∀ d, call = .apply d → later.dependent.kind ≠ d.kind

variable {plan : Plan} {order : List DependentKind} {f : DependentSpec → DependentSpec}

theorem applications_append (plan : Plan) (order later : List DependentKind)
    (f : DependentSpec → DependentSpec) :
    applications plan (order ++ later) f =
      applications plan order f ++ applications plan later f := by
  rw [applications, configured, List.filterMap_append, List.map_append]
  rfl

theorem exists_schedule_eq {kind : DependentKind} {d : DependentSpec}
    (hd : plan.dependent? kind = some d) (hmem : kind ∈ order) :
    ∃ after, observations plan ++ applications plan order f =
      (observations plan ++ applications plan (kindsBefore order kind) f) ++
        .apply (f d) :: after := by
  obtain ⟨later, horder⟩ := exists_eq_kindsBefore_append hmem
  refine ⟨applications plan later f, ?_⟩
  have hkind : applications plan (kind :: later) f =
      .apply (f d) :: applications plan later f := by
    simp [applications, configured, hd]
  rw [List.append_assoc, ← hkind, ← applications_append, ← horder]

theorem mem_configured {d : DependentSpec} :
    d ∈ configured plan order ↔ ∃ kind ∈ order, plan.dependent? kind = some d :=
  List.mem_filterMap

theorem apply_mem_schedule_iff {d : DependentSpec} :
    .apply d ∈ observations plan ++ applications plan order f ↔
      ∃ e ∈ configured plan order, f e = d := by
  rw [List.mem_append]
  constructor
  · rintro (hmem | hmem)
    · obtain ⟨e, -, heq⟩ := List.mem_map.mp hmem
      cases heq
    · obtain ⟨e, he, heq⟩ := List.mem_map.mp hmem
      exact ⟨e, he, DependentCall.apply.inj heq⟩
  · rintro ⟨e, he, rfl⟩
    exact Or.inr (List.mem_map.mpr ⟨e, he, rfl⟩)

theorem delete_not_mem_schedule {d : DependentSpec} :
    .delete d ∉ observations plan ++ applications plan order f := by
  intro hmem
  rcases List.mem_append.mp hmem with hmem | hmem
  · obtain ⟨e, -, heq⟩ := List.mem_map.mp hmem
    cases heq
  · obtain ⟨e, -, heq⟩ := List.mem_map.mp hmem
    cases heq

theorem pairwise_configured (h : plan.WellFormed) (distinct : order.Nodup) :
    (configured plan order).Pairwise fun d e => d.kind ≠ e.kind := by
  rw [configured, List.pairwise_filterMap]
  refine List.Pairwise.imp ?_ distinct
  intro kind other hne d hd e he
  rw [h.kind_eq hd, h.kind_eq he]
  exact hne

/-- No call of a schedule occurs twice. -/
theorem nodup_schedule (h : plan.WellFormed) (distinct : order.Nodup)
    (hf : ∀ d, (f d).kind = d.kind) : (observations plan ++ applications plan order f).Nodup := by
  have hall : DependentKind.all.Nodup := by simp [DependentKind.all]
  refine List.pairwise_append.mpr ⟨?_, ?_, ?_⟩
  · refine List.pairwise_map.mpr ((pairwise_configured h hall).imp ?_)
    rintro d e hne heq
    cases heq
    exact hne rfl
  · refine List.pairwise_map.mpr ((pairwise_configured h distinct).imp ?_)
    intro d e hne heq
    have hspec := DependentCall.apply.inj heq
    exact hne (by rw [← hf d, ← hf e, hspec])
  · intro call hcall later hlater
    obtain ⟨d, -, rfl⟩ := List.mem_map.mp hcall
    obtain ⟨e, -, rfl⟩ := List.mem_map.mp hlater
    intro heq
    cases heq

/-- In a schedule every kind is applied at the end. -/
theorem appliedLast_schedule (h : plan.WellFormed) (distinct : order.Nodup)
    (hf : ∀ d, (f d).kind = d.kind) :
    AppliedLast (observations plan ++ applications plan order f) := by
  refine List.pairwise_append.mpr ⟨?_, ?_, ?_⟩
  · refine List.pairwise_map.mpr (List.pairwise_of_forall ?_)
    intro d e d' heq
    cases heq
  · refine List.pairwise_map.mpr ((pairwise_configured h distinct).imp ?_)
    intro d e hne d' heq
    obtain rfl := DependentCall.apply.inj heq
    change (f e).kind ≠ (f d).kind
    rw [hf, hf]
    exact Ne.symm hne
  · intro call hcall later _ d heq
    obtain ⟨e, -, rfl⟩ := List.mem_map.mp hcall
    cases heq

theorem lastReport?_eq_none {kind : DependentKind} {trace : List AnsweredCall}
    (h : ∀ call ∈ calls trace, call.dependent.kind ≠ kind) : lastReport? kind trace = none := by
  induction trace with
  | nil => rfl
  | cons e rest ih =>
      obtain ⟨hhead, hrest⟩ := List.forall_mem_cons.mp h
      have hnone : e.1.report? kind e.2 = none := by
        obtain ⟨call, answer⟩ := e
        cases call with
        | delete d => cases answer <;> rfl
        | observe d =>
            cases answer with
            | error error => rfl
            | ok status => exact if_neg hhead
        | apply d =>
            cases answer with
            | error error => rfl
            | ok status => exact if_neg hhead
      rw [lastReport?, ih hrest, hnone]
      rfl

namespace AppliedLast

theorem of_isPrefix {made later : List DependentCall} (h : AppliedLast later)
    (hpre : made <+: later) : AppliedLast made :=
  List.Pairwise.sublist hpre.sublist h

theorem nodup_appliedKinds {made : List DependentCall} (h : AppliedLast made) :
    (appliedKinds made).Nodup := by
  rw [appliedKinds, List.Nodup, List.pairwise_filterMap]
  refine List.Pairwise.imp ?_ h
  intro call later hlast kind hkind other hother
  cases call with
  | observe d => cases hkind
  | delete d => cases hkind
  | apply d =>
      cases later with
      | observe e => cases hother
      | delete e => cases hother
      | apply e =>
          cases hkind
          cases hother
          exact Ne.symm (hlast d rfl)

/-- The status that came back when a dependent was applied is the last report of its kind. -/
theorem lastReport?_eq {trace : List AnsweredCall} (h : AppliedLast (calls trace))
    {d : DependentSpec} {status : DependentStatus} (hmem : applied d status ∈ trace) :
    lastReport? d.kind trace = some status := by
  induction trace with
  | nil => cases hmem
  | cons e rest ih =>
      obtain ⟨hhead, hrest⟩ := List.pairwise_cons.mp h
      rcases List.mem_cons.mp hmem with rfl | hmem
      · have hnone : lastReport? d.kind rest = none :=
          lastReport?_eq_none fun call hcall => hhead call hcall d rfl
        rw [lastReport?, hnone]
        exact if_pos rfl
      · rw [lastReport?, ih hrest hmem, Option.some_or]

theorem get_learn {trace : List AnsweredCall} (h : AppliedLast (calls trace)) (observed : Observed)
    {d : DependentSpec} {status : DependentStatus} (hmem : applied d status ∈ trace) :
    (observed.learn trace).get d.kind = some status := by
  rw [Observed.get_learn, h.lastReport?_eq hmem, Option.some_or]

theorem status_eq {trace : List AnsweredCall} (h : AppliedLast (calls trace)) {d : DependentSpec}
    {status other : DependentStatus} (hmem : applied d status ∈ trace)
    (hother : applied d other ∈ trace) : status = other :=
  Option.some.inj ((h.lastReport?_eq hmem).symm.trans (h.lastReport?_eq hother))

end AppliedLast

end Pass

end SiteOperator
