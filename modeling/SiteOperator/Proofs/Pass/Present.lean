import SiteOperator.Proofs.Pass.Schedule

/-!
# The pass over a site that should run

Such a pass observes every configured dependent, applies the supporting ones, and applies the
workload if the gate is open: every configured supporting dependent came back ready when this pass
applied it (`GateOpen`). What was observed before does not count.

`runs_present` inverts a run of the pass into the ways in which it can end. The order of the calls,
the place where they are cut and the condition under which the workload is applied are read off
these.
-/

namespace SiteOperator

namespace Pass

/-- The walk of a pass that goes on from every answer. -/
def never (_ : AnsweredCall) : Prop := False

theorem not_never (e : AnsweredCall) : ¬ never e := not_false

def supportingSchedule (plan : Plan) : List DependentCall :=
  observations plan ++ applications plan DependentKind.supporting id

def presentSchedule (plan : Plan) : List DependentCall :=
  observations plan ++ applications plan (DependentKind.supporting ++ [.moodle]) id

/-- Every configured supporting dependent was applied, and came back with a first ready condition
that holds. -/
def GateOpen (plan : Plan) (trace : List AnsweredCall) : Prop :=
  ∀ kind ∈ DependentKind.supporting, ∀ d, plan.dependent? kind = some d →
    ∃ status, applied d status ∈ trace ∧ status.conditions.ReadyHolds

variable {plan : Plan} {now : String} {draft : StatusDraft} {trace : List AnsweredCall}
  {result : PassResult}

theorem presentSchedule_eq (plan : Plan) :
    presentSchedule plan = supportingSchedule plan ++ applications plan [.moodle] id := by
  rw [presentSchedule, supportingSchedule, applications_append, List.append_assoc]

theorem nodup_presentSchedule (h : plan.WellFormed) : (presentSchedule plan).Nodup := by
  have hdistinct : (DependentKind.supporting ++ [DependentKind.moodle]).Nodup := by
    simp [DependentKind.supporting]
  exact nodup_schedule h hdistinct fun _ => rfl

theorem appliedLast_presentSchedule (h : plan.WellFormed) : AppliedLast (presentSchedule plan) := by
  have hdistinct : (DependentKind.supporting ++ [DependentKind.moodle]).Nodup := by
    simp [DependentKind.supporting]
  exact appliedLast_schedule h hdistinct fun _ => rfl

theorem supportingSchedule_prefix_present (plan : Plan) :
    supportingSchedule plan <+: presentSchedule plan := by
  rw [presentSchedule_eq]
  exact List.prefix_append _ _

theorem GateOpen.append {first : List AnsweredCall} (gate : GateOpen plan first)
    (rest : List AnsweredCall) : GateOpen plan (first ++ rest) := by
  intro kind hkind d hd
  obtain ⟨status, hmem, hready⟩ := gate kind hkind d hd
  exact ⟨status, List.mem_append_left rest hmem, hready⟩

/-- Once the supporting dependents have been applied, the test for going on says whether the gate
is open. -/
theorem supportingReady_iff (h : plan.WellFormed)
    (walk : Walk never (supportingSchedule plan) trace .completed) :
    supportingReady plan (Observed.none.learn trace) = true ↔ GateOpen plan trace := by
  obtain ⟨hcalls, hgo⟩ := walk.completed
  have hlast : AppliedLast (calls trace) :=
    (appliedLast_presentSchedule h).of_isPrefix
      (walk.calls_prefix_schedule.trans (supportingSchedule_prefix_present plan))
  have hready : ∀ kind ∈ DependentKind.supporting, ∀ d, plan.dependent? kind = some d →
      (isReady ((Observed.none.learn trace).get d.kind) = true ↔
        ∃ status, applied d status ∈ trace ∧ status.conditions.ReadyHolds) := by
    intro kind hkind d hd
    have hmem : DependentCall.apply d ∈ calls trace := by
      rw [hcalls]
      exact apply_mem_schedule_iff.mpr ⟨d, mem_configured.mpr ⟨kind, hkind, hd⟩, rfl⟩
    obtain ⟨status, he⟩ := exists_applied_of_mem_calls hmem fun e he _ => (hgo e he).1
    rw [hlast.get_learn _ he, isReady_some_iff]
    constructor
    · intro hholds
      exact ⟨status, he, hholds⟩
    · rintro ⟨other, hother, hholds⟩
      rw [hlast.status_eq he hother]
      exact hholds
  rw [supportingReady, List.all_eq_true]
  constructor
  · intro hall kind hkind d hd
    exact (hready kind hkind d hd).mp (hall d (mem_configured.mpr ⟨kind, hkind, hd⟩))
  · intro gate d hd
    obtain ⟨kind, hkind, hd⟩ := mem_configured.mp hd
    exact (hready kind hkind d hd).mpr (gate kind hkind d hd)

/-- The ways in which a pass over a site that should run can end. The status that it leaves and the
statuses that it knows are functions of the answers. -/
inductive PresentRun (plan : Plan) (now : String) (draft : StatusDraft) :
    List AnsweredCall → PassResult → Prop where
  | failed {trace : List AnsweredCall} {error : Raised}
      (walk : Walk never (supportingSchedule plan) trace (.failed error)) :
      PresentRun plan now draft trace ⟨.error error, mirror now trace draft⟩
  | waiting {trace : List AnsweredCall}
      (walk : Walk never (supportingSchedule plan) trace .completed)
      (gate : ¬ GateOpen plan trace) :
      PresentRun plan now draft trace
        (wait plan now false (Observed.none.learn trace) (mirror now trace draft))
  | workloadFailed {first last : List AnsweredCall} {error : Raised}
      (walk : Walk never (supportingSchedule plan) first .completed)
      (gate : GateOpen plan first)
      (walkLast : Walk never (applications plan [.moodle] id) last (.failed error)) :
      PresentRun plan now draft (first ++ last) ⟨.error error, mirror now (first ++ last) draft⟩
  | finished {trace : List AnsweredCall}
      (walk : Walk never (presentSchedule plan) trace .completed)
      (gate : GateOpen plan trace) :
      PresentRun plan now draft trace
        (finish plan now false (Observed.none.learn trace) (mirror now trace draft))

theorem runs_presentWorkload {observed : Observed}
    (run : (presentWorkload plan now observed draft).Runs trace result) :
    (∃ error, Walk never (applications plan [.moodle] id) trace (.failed error) ∧
        result = ⟨.error error, mirror now trace draft⟩) ∨
      (Walk never (applications plan [.moodle] id) trace .completed ∧
        result = finish plan now false (observed.learn trace) (mirror now trace draft)) := by
  obtain ⟨first, answer, rest, rfl, hfirst, hrest⟩ := Dialogue.runs_bind_iff.mp run
  rcases runs_applyAll (fun _ _ => not_never _) hfirst with
    ⟨error, walk, rfl⟩ | ⟨walk, rfl⟩
  · obtain ⟨rfl, rfl⟩ := Dialogue.runs_done_iff.mp hrest
    rw [List.append_nil]
    exact Or.inl ⟨error, walk, rfl⟩
  · obtain ⟨rfl, rfl⟩ := Dialogue.runs_done_iff.mp hrest
    rw [List.append_nil]
    exact Or.inr ⟨walk, rfl⟩

/-- A pass over a site that should run fails on its way through the supporting dependents, or it
comes to the test for going on and then waits or turns to the workload. -/
theorem runs_present_cases (run : (present plan now draft).Runs trace result) :
    (∃ error, Walk never (supportingSchedule plan) trace (.failed error) ∧
        result = ⟨.error error, mirror now trace draft⟩) ∨
      ∃ first rest, trace = first ++ rest ∧
        Walk never (supportingSchedule plan) first .completed ∧
        (supportingReady plan (Observed.none.learn first) = true ∧
            (presentWorkload plan now (Observed.none.learn first) (mirror now first draft)).Runs
              rest result ∨
          supportingReady plan (Observed.none.learn first) = false ∧ rest = [] ∧
            result = wait plan now false (Observed.none.learn first) (mirror now first draft)) := by
  obtain ⟨seen, observed, rest, rfl, hseen, hrest⟩ := Dialogue.runs_bind_iff.mp run
  rcases runs_observeAll (fun _ _ => not_never _) hseen with
    ⟨error, walk, rfl⟩ | ⟨walkSeen, rfl⟩
  · obtain ⟨rfl, rfl⟩ := Dialogue.runs_done_iff.mp hrest
    rw [List.append_nil]
    refine Or.inl ⟨error, walk.extend nofun, ?_⟩
    rw [mirror_observations now draft walk.calls_prefix_schedule]
  obtain ⟨middle, answer, last, rfl, hmiddle, hlast⟩ := Dialogue.runs_bind_iff.mp hrest
  have hdraft : mirror now middle draft = mirror now (seen ++ middle) draft := by
    rw [mirror_append, mirror_observations now draft walkSeen.calls_prefix_schedule]
  rcases runs_applyAll (fun _ _ => not_never _) hmiddle with
    ⟨error, walk, rfl⟩ | ⟨walkMiddle, rfl⟩
  · obtain ⟨rfl, rfl⟩ := Dialogue.runs_done_iff.mp hlast
    rw [List.append_nil, hdraft]
    exact Or.inl ⟨error, walkSeen.append walk, rfl⟩
  rw [← Observed.learn_append, hdraft] at hlast
  dsimp only at hlast
  refine Or.inr ⟨seen ++ middle, last, (List.append_assoc _ _ _).symm,
    walkSeen.append walkMiddle, ?_⟩
  cases hready : supportingReady plan (Observed.none.learn (seen ++ middle)) with
  | true =>
      rw [if_pos hready] at hlast
      exact Or.inl ⟨rfl, hlast⟩
  | false =>
      rw [if_neg (by rw [hready]; exact Bool.false_ne_true)] at hlast
      exact Or.inr ⟨rfl, Dialogue.runs_done_iff.mp hlast⟩

/-- Every run of a pass over a site that should run ends in one of these ways. -/
theorem runs_present (h : plan.WellFormed) (run : (present plan now draft).Runs trace result) :
    PresentRun plan now draft trace result := by
  rcases runs_present_cases run with
    ⟨error, walk, rfl⟩ | ⟨first, last, rfl, walk, ⟨hready, hlast⟩ | ⟨hready, rfl, rfl⟩⟩
  · exact .failed walk
  · have gate := (supportingReady_iff h walk).mp hready
    rcases runs_presentWorkload hlast with ⟨error, walkLast, rfl⟩ | ⟨walkLast, rfl⟩
    · rw [← mirror_append]
      exact .workloadFailed walk gate walkLast
    · rw [← mirror_append, ← Observed.learn_append]
      refine .finished ?_ (gate.append last)
      rw [presentSchedule_eq]
      exact walk.append walkLast
  · rw [List.append_nil]
    refine .waiting walk fun gate => ?_
    rw [(supportingReady_iff h walk).mpr gate] at hready
    cases hready

namespace PresentRun

variable {moodle : DependentSpec}

theorem calls_prefix_schedule (run : PresentRun plan now draft trace result) :
    calls trace <+: presentSchedule plan := by
  cases run with
  | failed walk | waiting walk =>
      exact walk.calls_prefix_schedule.trans (supportingSchedule_prefix_present plan)
  | workloadFailed walk gate walkLast =>
      rw [calls_append, walk.completed.1, presentSchedule_eq]
      exact (List.prefix_append_right_inj _).mpr walkLast.calls_prefix_schedule
  | finished walk => exact walk.calls_prefix_schedule

/-- The pass ends right after the first call that fails, with its error, or else before the
workload if the gate is closed. -/
theorem cut (run : PresentRun plan now draft trace result) :
    (∃ error, FailsLast trace error ∧ result.outcome = .error error) ∨
      (∀ e ∈ trace, failure? e = none) ∧ (∃ progress, result.outcome = .ok progress) ∧
        (GateOpen plan trace ∧ calls trace = presentSchedule plan ∨
          ¬ GateOpen plan trace ∧ calls trace = supportingSchedule plan) := by
  cases run with
  | failed walk => exact Or.inl ⟨_, walk.failed, rfl⟩
  | waiting walk gate =>
      obtain ⟨hcalls, hgo⟩ := walk.completed
      exact Or.inr ⟨fun e he => (hgo e he).1, ⟨_, rfl⟩, Or.inr ⟨gate, hcalls⟩⟩
  | workloadFailed walk gate walkLast => exact Or.inl ⟨_, (walk.append walkLast).failed, rfl⟩
  | finished walk gate =>
      obtain ⟨hcalls, hgo⟩ := walk.completed
      exact Or.inr ⟨fun e he => (hgo e he).1, ⟨_, rfl⟩, Or.inl ⟨gate, hcalls⟩⟩

theorem applies_workload_iff (run : PresentRun plan now draft trace result) (h : plan.WellFormed)
    (hmoodle : plan.dependent? .moodle = some moodle) :
    .apply moodle ∈ calls trace ↔
      (∀ e ∈ trace, e.1 ≠ .apply moodle → failure? e = none) ∧ GateOpen plan trace := by
  have hworkload : applications plan [.moodle] id = [.apply moodle] := by
    simp [applications, configured, hmoodle]
  have hout : .apply moodle ∉ supportingSchedule plan := by
    have hnodup := nodup_presentSchedule h
    rw [presentSchedule_eq, hworkload] at hnodup
    intro hmem
    exact (List.nodup_append.mp hnodup).2.2 _ hmem _ List.mem_cons_self rfl
  cases run with
  | failed walk =>
      have hsub := walk.calls_prefix_schedule.subset
      obtain ⟨before, last, rfl, hlast, -⟩ := walk.failed
      refine iff_of_false (fun hmem => hout (hsub hmem)) ?_
      rintro ⟨hnone, -⟩
      have hmem : last ∈ before ++ [last] := by simp
      have hne : last.1 ≠ .apply moodle := by
        intro heq
        exact hout (hsub (mem_calls_iff.mpr ⟨last, hmem, heq⟩))
      rw [hnone last hmem hne] at hlast
      cases hlast
  | waiting walk gate =>
      exact iff_of_false (fun hmem => hout (walk.calls_prefix_schedule.subset hmem))
        fun hopen => gate hopen.2
  | @workloadFailed first last error walk gate walkLast =>
      rw [hworkload] at walkLast
      have hmade : .apply moodle ∈ calls last :=
        walkLast.mem_calls_of_goesOn (List.nil_append _).symm
          fun _ _ hmem => absurd hmem List.not_mem_nil
      rw [calls_append]
      refine iff_of_true (List.mem_append_right _ hmade) ⟨?_, gate.append last⟩
      intro e he hne
      rcases List.mem_append.mp he with he | he
      · exact (walk.completed.2 e he).1
      · have hmem := walkLast.calls_prefix_schedule.subset (mem_calls_iff.mpr ⟨e, he, rfl⟩)
        exact absurd (List.mem_singleton.mp hmem) hne
  | finished walk gate =>
      obtain ⟨hcalls, hgo⟩ := walk.completed
      rw [hcalls, presentSchedule_eq, hworkload]
      exact iff_of_true (by simp) ⟨fun e he _ => (hgo e he).1, gate⟩

end PresentRun

theorem appliedLast_of_present (h : plan.WellFormed)
    (run : PresentRun plan now draft trace result) : AppliedLast (calls trace) :=
  (appliedLast_presentSchedule h).of_isPrefix run.calls_prefix_schedule

/-- The order of the calls in a pass over a site that should run. They are made along the schedule
that observes every configured dependent, applies the supporting ones and then the workload; the
pass is cut right after a call that fails, whose error it gives, or before the workload if the gate
is closed. The workload is applied exactly if no earlier call failed and every configured supporting
dependent came back ready from being applied in this very pass. Every dependent is applied at most
once and with the spec of the plan, and nothing is deleted. -/
theorem present_order {site : String} {labels : Option (Entries String)}
    {template overrides : SpecBlocks}
    (h : Plan.compose site labels template overrides = .ok plan)
    (run : (present plan now draft).Runs trace result) :
    ∃ moodle, plan.dependent? .moodle = some moodle ∧
      calls trace <+: presentSchedule plan ∧
      ((∃ error, FailsLast trace error ∧ result.outcome = .error error) ∨
        (∀ e ∈ trace, failure? e = none) ∧ (∃ progress, result.outcome = .ok progress) ∧
          (GateOpen plan trace ∧ calls trace = presentSchedule plan ∨
            ¬ GateOpen plan trace ∧ calls trace = supportingSchedule plan)) ∧
      (.apply moodle ∈ calls trace ↔
        (∀ e ∈ trace, e.1 ≠ .apply moodle → failure? e = none) ∧ GateOpen plan trace) ∧
      (appliedKinds (calls trace)).Nodup ∧
      (∀ d, .apply d ∈ calls trace → plan.dependent? d.kind = some d) ∧
      ∀ d, .delete d ∉ calls trace := by
  have hplan := Plan.compose_wellFormed h
  obtain ⟨moodle, hmoodle⟩ := Plan.compose_workload h
  have hrun := runs_present hplan run
  have hpre := hrun.calls_prefix_schedule
  refine ⟨moodle, hmoodle, hpre, hrun.cut, hrun.applies_workload_iff hplan hmoodle,
    (appliedLast_of_present hplan hrun).nodup_appliedKinds, ?_, ?_⟩
  · intro d hmem
    obtain ⟨e, he, rfl⟩ := apply_mem_schedule_iff.mp (hpre.subset hmem)
    obtain ⟨kind, -, hd⟩ := mem_configured.mp he
    rw [id, hplan.kind_eq hd]
    exact hd
  · intro d hmem
    exact delete_not_mem_schedule (hpre.subset hmem)

/-- With a database that comes back ready, the workload is applied in the first pass. -/
theorem present_order_of_ready_database :
    ∃ plan moodle,
      Plan.compose "a" none ⟨⟨none, some [], none, none⟩, none⟩ .empty = .ok plan ∧
        plan.dependent? .moodle = some moodle ∧
        .apply moodle ∈ calls ((present plan "now" (.ofCurrent none)).transcript
          (steady ⟨none, some (.withReady Condition.holds successfulReason), none, none⟩) ()) := by
  obtain ⟨postgres, moodle, hplan⟩ : ∃ postgres moodle,
      Plan.compose "a" none ⟨⟨none, some [], none, none⟩, none⟩ .empty =
        .ok (Plan.ofSpecs "a" none ⟨some moodle, some postgres, none, none⟩ false) :=
    ⟨_, _, rfl⟩
  obtain ⟨workload, hworkload, -, -, happlied, -⟩ := present_order hplan
    (Dialogue.runs_transcript
      (steady ⟨none, some (.withReady Condition.holds successfulReason), none, none⟩)
      (present _ "now" (.ofCurrent none)) ())
  refine ⟨_, workload, hplan, hworkload, happlied.mpr ⟨?_, ?_⟩⟩
  · intro e he _
    exact failure?_eq_none_of_steady he
  · intro kind hkind d hd
    cases kind with
    | moodle => simp [DependentKind.supporting] at hkind
    | postgres =>
        cases hd
        exact ⟨_, .tail _ (.tail _ (.head _)), _, rfl, rfl⟩
    | keydb | nfs => cases hd

end Pass

end SiteOperator
