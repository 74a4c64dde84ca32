import SiteOperator.Proofs.Pass.Suspend

/-!
# What a suspension reports

Whether a pass that suspends dependents goes on is decided by the state in their statuses, while the
state of the site is decided by the reasons of their ready conditions. The site therefore names the
dependent that the pass waits for only if these two agree as far as the pass got.
-/

namespace SiteOperator

namespace Pass

/-- A state tells truthfully how far the pass got: it names the dependent that did not come back
suspended with its reason, and it is the one of a suspended site only if all came back suspended. -/
def TellsProgress (plan : Plan) (trace : List AnsweredCall) (state : Option String) : Prop :=
  (∀ d status, applied d status ∈ trace → status.state ≠ some "Suspended" →
      state = some ("Suspending" ++ (d.kind.name ++ readyReason (some status)))) ∧
    (state = some "Suspended" → ∀ kind d, plan.dependent? kind = some d →
      ∃ status, applied d.suspended status ∈ trace ∧ status.state = some "Suspended")

variable {plan : Plan} {now : String} {draft : StatusDraft} {trace : List AnsweredCall}
  {result : PassResult} {d : DependentSpec} {status : DependentStatus} {kind : DependentKind}

theorem exists_stopped (walk : Walk NotSuspended (suspendSchedule plan) trace .stopped) :
    ∃ kind d status, plan.dependent? kind = some d ∧ applied d.suspended status ∈ trace ∧
      status.state ≠ some suspendedState ∧
      ∀ other s, applied other s ∈ trace → s.state ≠ some suspendedState →
        other = d.suspended ∧ s = status := by
  have hpre := walk.calls_prefix_schedule
  obtain ⟨before, last, rfl, -, ⟨asked, status, rfl, hstate⟩, hgo⟩ := walk.stopped
  have hmem : applied asked status ∈ before ++ [applied asked status] := by simp
  obtain ⟨d, hd, rfl⟩ := apply_mem_schedule_iff.mp (hpre.subset (applied_mem_calls hmem))
  obtain ⟨kind, -, hd⟩ := mem_configured.mp hd
  refine ⟨kind, d, status, hd, hmem, hstate, ?_⟩
  intro other s hother hs
  rcases List.mem_append.mp hother with hother | hother
  · exact absurd (notSuspended_applied_iff.mpr hs) (hgo _ hother).2
  · exact applied_inj (List.mem_singleton.mp hother)

/-- The reasons that are known of the kinds before the one the pass stopped at are those that came
back from the other dependents it asked. -/
theorem earlier_reasons_iff (h : plan.WellFormed)
    (walk : Walk NotSuspended (suspendSchedule plan) trace .stopped)
    (hd : plan.dependent? kind = some d) (hmem : applied d.suspended status ∈ trace)
    (hstate : status.state ≠ some suspendedState) (reason : String) :
    (∀ earlier ∈ kindsBefore suspendOrder kind, plan.has earlier →
        readyReason ((Observed.none.learn trace).get earlier) = reason) ↔
      ∀ other s, applied other s ∈ trace → other.kind ≠ kind → readyReason (some s) = reason := by
  have hlast := appliedLast_of_suspend h walk
  have hasked := (suspends_iff h walk hd).mp (applied_mem_calls hmem)
  constructor
  · intro hall other s hother hne
    obtain ⟨b, hb, rfl⟩ := apply_mem_schedule_iff.mp
      (walk.calls_prefix_schedule.subset (applied_mem_calls hother))
    obtain ⟨earlier, -, hb⟩ := mem_configured.mp hb
    have hkind : b.suspended.kind = earlier := b.kind_suspended.trans (h.kind_eq hb)
    rw [hkind] at hne
    have hbefore : earlier ∈ kindsBefore suspendOrder kind := by
      rcases mem_kindsBefore_or (mem_suspendOrder earlier) (mem_suspendOrder kind) hne with
        hbefore | hafter
      · exact hbefore
      · have hlater := (suspends_iff h walk hb).mp (applied_mem_calls hother)
        obtain ⟨status', hmem', hstate'⟩ := hlater.2 kind hafter d hd
        rw [hlast.status_eq hmem hmem'] at hstate
        exact absurd hstate' hstate
    have hreason := hall earlier hbefore (Plan.has_iff.mpr ⟨b, hb⟩)
    rw [← hkind, hlast.get_learn _ hother] at hreason
    exact hreason
  · intro hall earlier hearlier hhas
    obtain ⟨b, hb⟩ := Plan.has_iff.mp hhas
    obtain ⟨s, hs, -⟩ := hasked.2 earlier hearlier b hb
    have hkind : b.suspended.kind = earlier := b.kind_suspended.trans (h.kind_eq hb)
    rw [← hkind, hlast.get_learn _ hs]
    exact hall _ s hs (hkind ▸ ne_of_mem_kindsBefore hearlier)

theorem exists_suspended_of_completed
    (walk : Walk NotSuspended (suspendSchedule plan) trace .completed)
    (hd : plan.dependent? kind = some d) :
    ∃ status, applied d.suspended status ∈ trace ∧ status.state = some suspendedState := by
  obtain ⟨hcalls, hgo⟩ := walk.completed
  have hmem : .apply d.suspended ∈ calls trace := by
    rw [hcalls]
    exact apply_mem_schedule_iff.mpr
      ⟨d, mem_configured.mpr ⟨kind, mem_suspendOrder kind, hd⟩, rfl⟩
  obtain ⟨status, he⟩ := exists_applied_of_mem_calls hmem fun e he _ => (hgo e he).1
  exact ⟨status, he, not_notSuspended_applied_iff.mp (hgo _ he).2⟩

theorem tellsProgress_stopped_iff (h : plan.WellFormed)
    (walk : Walk NotSuspended (suspendSchedule plan) trace .stopped)
    (hd : plan.dependent? kind = some d) (hmem : applied d.suspended status ∈ trace)
    (hstate : status.state ≠ some suspendedState) (state : String) :
    TellsProgress plan trace (some state) ↔
      state = "Suspending" ++ (kind.name ++ readyReason (some status)) := by
  have hkind : d.suspended.kind = kind := d.kind_suspended.trans (h.kind_eq hd)
  constructor
  · intro tells
    have htells := tells.1 _ status hmem hstate
    rw [hkind] at htells
    exact Option.some.inj htells
  · rintro rfl
    refine ⟨?_, ?_⟩
    · intro other s hother hs
      obtain ⟨_, _, _, -, -, -, honly⟩ := exists_stopped walk
      obtain ⟨rfl, rfl⟩ := honly other s hother hs
      obtain ⟨heq, rfl⟩ := honly _ status hmem hstate
      rw [← heq, hkind]
    · intro hsuspended
      exact absurd (Option.some.inj hsuspended).symm (suspendedState_ne_suspending _)

/-- The state of the site after a pass that suspends dependents tells the progress truthfully if and
only if a dependent that came back in another state than that of a suspended one also gave another
reason than that of a suspended one, while every other dependent that was asked gave this reason. -/
theorem tellsProgress_iff {progress : Progress} (h : plan.WellFormed)
    (run : (suspend plan now draft).Runs trace result) (ok : result.outcome = .ok progress) :
    TellsProgress plan trace result.draft.collected.state ↔
      ∀ d status, applied d status ∈ trace → status.state ≠ some "Suspended" →
        readyReason (some status) ≠ "Suspended" ∧
        ∀ other s, applied other s ∈ trace → other.kind ≠ d.kind →
          readyReason (some s) = "Suspended" := by
  obtain ⟨ending, walk, rfl⟩ := runs_suspend run
  cases ending with
  | failed error => cases ok
  | completed =>
      have hsuspended : ∀ d status, applied d status ∈ trace → status.state = some "Suspended" :=
        fun d status hmem => not_notSuspended_applied_iff.mp (walk.completed.2 _ hmem).2
      refine iff_of_true ⟨?_, fun _ kind d hd => exists_suspended_of_completed walk hd⟩ ?_
      · intro d status hmem hne
        exact absurd (hsuspended d status hmem) hne
      · intro d status hmem hne
        exact absurd (hsuspended d status hmem) hne
  | stopped =>
      obtain ⟨kind, d, status, hd, hmem, hstate, honly⟩ := exists_stopped walk
      have hkind : d.suspended.kind = kind := d.kind_suspended.trans (h.kind_eq hd)
      have hknown : (Observed.none.learn trace).get kind = some status :=
        hkind ▸ (appliedLast_of_suspend h walk).get_learn _ hmem
      have hleft : (suspendEnd plan now .none draft trace .stopped).draft.collected.state =
          some (plan.siteState (Observed.none.learn trace) false true) :=
        plan.state_conclude _ false true now _
      rw [hleft, tellsProgress_stopped_iff h walk hd hmem hstate,
        Plan.siteState_suspending_eq_kind_iff, hknown,
        earlier_reasons_iff h walk hd hmem hstate]
      constructor
      · rintro ⟨⟨-, hreason⟩, -, hothers⟩ other s hother hs
        obtain ⟨rfl, rfl⟩ := honly other s hother hs
        rw [hkind]
        exact ⟨hreason, hothers⟩
      · intro hall
        obtain ⟨hreason, hothers⟩ := hall _ status hmem hstate
        rw [hkind] at hothers
        exact ⟨⟨Plan.has_iff.mpr ⟨d, hd⟩, hreason⟩, rfl, hothers⟩

/-- The state is truthful while the workload still runs. -/
theorem tellsProgress_of_running_workload :
    ∃ plan, Plan.compose "a" none .empty .empty = .ok plan ∧
      TellsProgress plan
        ((suspend plan "now" (.ofCurrent none)).transcript
          (steady ⟨some (.withReady Condition.holds successfulReason), none, none, none⟩) ())
        (some "SuspendingMoodleSuccessful") := by
  obtain ⟨moodle, hplan⟩ := Plan.compose_empty "a" none
  refine ⟨_, hplan, (tellsProgress_iff (Plan.compose_wellFormed hplan)
    (Dialogue.runs_transcript _ _ ()) rfl).mpr ?_⟩
  have honly : ∀ d status, applied d status ∈ (suspend (Plan.ofSpecs "a" none
      ⟨some moodle, none, none, none⟩ false) "now" (.ofCurrent none)).transcript
        (steady ⟨some (.withReady Condition.holds successfulReason), none, none, none⟩) () →
      d.kind = .moodle ∧ readyReason (some status) = "Successful" := by
    rintro d status (_ | ⟨_, _ | ⟨_, hmem⟩⟩)
    · exact ⟨rfl, rfl⟩
    · cases hmem
  intro d status hmem _
  obtain ⟨hkind, hreason⟩ := honly d status hmem
  rw [hreason]
  refine ⟨by decide, fun other s hother hne => ?_⟩
  exact absurd ((honly other s hother).1.trans hkind.symm) hne

/-- A workload whose ready condition gives the reason of a suspended one, though its state is
another, ends in a site that calls itself suspended while the pass waits for the workload. -/
theorem not_tellsProgress_of_early_reason :
    ∃ plan, Plan.compose "a" none .empty .empty = .ok plan ∧
      ∃ trace result, (suspend plan "now" (.ofCurrent none)).Runs trace result ∧
        result.outcome = .ok .requeue ∧ result.draft.collected.state = some "Suspended" ∧
        ¬ TellsProgress plan trace result.draft.collected.state := by
  obtain ⟨moodle, hplan⟩ := Plan.compose_empty "a" none
  refine ⟨_, hplan, _, _, Dialogue.runs_transcript
    (steady ⟨some (.withReady Condition.fails suspendedState), none, none, none⟩) _ (),
    rfl, rfl, ?_⟩
  intro tells
  have hstate : some "Suspended" = some "SuspendingMoodleSuspended" :=
    tells.1 _ _ (.tail _ (.head _)) nofun
  exact absurd hstate (by decide)

end Pass

end SiteOperator
