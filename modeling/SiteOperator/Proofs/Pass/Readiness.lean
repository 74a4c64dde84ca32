import SiteOperator.Proofs.Pass.Present

/-!
# What a ready site tells about its dependents

One pass over a site that should run leaves the state that the reasons of the dependents give, and
touches the site's own ready condition only where a dependent is not ready or the site has settled
(`present_leaves`). Passes follow each other, each from the status that the one before left, so the
ready condition remembers more than the last pass saw: it goes back to the last pass that left the
state of a ready site (`ReadySince`).
-/

namespace SiteOperator

namespace Pass

structure PassRecord where
  trace : List AnsweredCall
  progress : Progress
  status : SiteStatus

def leftStatus : List PassRecord → SiteStatus
  | [] => .empty
  | pass :: _ => pass.status

/-- The successful passes over a site that should run, the newest first. Every pass starts from the
status that the one before left, and the first one from an empty status. -/
inductive History (plan : Plan) : List PassRecord → Prop where
  | nil : History plan []
  | cons {earlier : List PassRecord} {start draft : StatusDraft} {now : String}
      {trace : List AnsweredCall} {progress : Progress} (history : History plan earlier)
      (hstart : start.collected = leftStatus earlier)
      (run : (present plan now start).Runs trace ⟨.ok progress, draft⟩) :
      History plan (⟨trace, progress, draft.collected⟩ :: earlier)

/-- The newest pass or an earlier one left the state of a ready site, and in no pass after it a
dependent came back unready. -/
def ReadySince (passes : List PassRecord) : Prop :=
  ∃ later ready earlier, passes = later ++ ready :: earlier ∧ ready.status.state = some "Ready" ∧
    ∀ pass ∈ later, NoneUnready pass.trace

/-- Every configured dependent was last reported with a first ready condition that holds. -/
def AllReady (plan : Plan) (trace : List AnsweredCall) : Prop :=
  ∀ kind d, plan.dependent? kind = some d →
    ∃ status, lastReport? kind trace = some status ∧ status.conditions.ReadyHolds

variable {plan : Plan} {now : String} {draft : StatusDraft} {trace : List AnsweredCall}
  {result : PassResult} {progress : Progress} {pass : PassRecord} {passes : List PassRecord}

theorem not_readySince_nil : ¬ ReadySince [] := by
  rintro ⟨later, ready, earlier, heq, -⟩
  simp at heq

theorem readySince_cons_iff :
    ReadySince (pass :: passes) ↔
      pass.status.state = some "Ready" ∨ ReadySince passes ∧ NoneUnready pass.trace := by
  constructor
  · rintro ⟨later, ready, earlier, heq, hready, hlater⟩
    cases later with
    | nil =>
        obtain ⟨rfl, rfl⟩ := List.cons.inj heq
        exact Or.inl hready
    | cons head later =>
        obtain ⟨rfl, rfl⟩ := List.cons.inj heq
        obtain ⟨hhead, hrest⟩ := List.forall_mem_cons.mp hlater
        exact Or.inr ⟨⟨later, ready, earlier, rfl, hready, hrest⟩, hhead⟩
  · rintro (hready | ⟨⟨later, ready, earlier, rfl, hready, hlater⟩, hpass⟩)
    · exact ⟨[], pass, passes, rfl, hready, by simp⟩
    · exact ⟨pass :: later, ready, earlier, rfl, hready, List.forall_mem_cons.mpr ⟨hpass, hlater⟩⟩

/-- A pass that succeeds concludes with what it learnt, and settles only if it applied the workload
and the state is the one of a ready site. -/
theorem PresentRun.conclude (run : PresentRun plan now draft trace result)
    (ok : result.outcome = .ok progress) :
    result.draft = (plan.conclude (Observed.none.learn trace) false false now
        (mirror now trace draft)).1 ∧
      (progress = .settled → GateOpen plan trace ∧
        plan.siteState (Observed.none.learn trace) false false = "Ready") := by
  cases run with
  | failed | workloadFailed => cases ok
  | waiting =>
      refine ⟨rfl, ?_⟩
      rintro rfl
      cases ok
  | finished walk gate =>
      refine ⟨rfl, ?_⟩
      rintro rfl
      refine ⟨gate, Plan.isSettledState_siteState_running.mp ?_⟩
      have hprogress : Progress.ofState
          (plan.siteState (Observed.none.learn trace) false false) = .settled :=
        Except.ok.inj ok
      unfold Progress.ofState at hprogress
      split at hprogress
      · assumption
      · cases hprogress

/-- What a pass that succeeds leaves in the status: its state is decided by the reasons of the
dependents alone, and the site is ready after it if the state says so, or if it was ready before
and no dependent came back unready. -/
theorem present_leaves (h : plan.WellFormed) (run : (present plan now draft).Runs trace result)
    (ok : result.outcome = .ok progress) :
    (result.draft.collected.state = some "Ready" ↔
        ∀ kind, plan.has kind →
          readyReason (lastReport? kind trace) = successfulReason) ∧
      (result.draft.ReadyHolds ↔
        result.draft.collected.state = some "Ready" ∨ draft.ReadyHolds ∧ NoneUnready trace) ∧
      (progress = .settled →
        GateOpen plan trace ∧ result.draft.collected.state = some "Ready") := by
  obtain ⟨hdraft, hsettled⟩ := (runs_present h run).conclude ok
  have hstate : result.draft.collected.state =
      some (plan.siteState (Observed.none.learn trace) false false) := by
    rw [hdraft, Plan.state_conclude]
  have hready : result.draft.collected.state = some "Ready" ↔
      plan.siteState (Observed.none.learn trace) false false = "Ready" := by
    rw [hstate, Option.some_inj]
  refine ⟨?_, ?_, ?_⟩
  · rw [hready, Plan.siteState_running_eq_ready_iff]
    simp only [Observed.get_learn_none]
  · rw [hready, hdraft, Plan.readyHolds_conclude, readyHolds_mirror,
      ← Plan.isSettledState_siteState_running]
    cases isSettledState (plan.siteState (Observed.none.learn trace) false false) <;> simp
  · intro hprogress
    obtain ⟨gate, hsite⟩ := hsettled hprogress
    exact ⟨gate, hready.mpr hsite⟩

theorem History.next (history : History plan passes) (statuses : Observed) (now : String)
    (ok : ((present plan now (.ofCurrent (some (leftStatus passes)))).run
      (steady statuses) ()).1.outcome = .ok progress) :
    ∃ pass, History plan (pass :: passes) ∧ pass.progress = progress ∧
      pass.trace = (present plan now (.ofCurrent (some (leftStatus passes)))).transcript
        (steady statuses) () ∧
      pass.status = ((present plan now (.ofCurrent (some (leftStatus passes)))).run
        (steady statuses) ()).1.draft.collected := by
  have run := Dialogue.runs_transcript (steady statuses)
    (present plan now (.ofCurrent (some (leftStatus passes)))) ()
  generalize hresult : ((present plan now (.ofCurrent (some (leftStatus passes)))).run
    (steady statuses) ()).1 = result at run ok
  obtain ⟨outcome, draft⟩ := result
  obtain rfl : outcome = .ok progress := ok
  exact ⟨_, .cons history rfl run, rfl, rfl, rfl⟩

/-- The site's own ready condition holds after a history of passes if and only if the newest pass
or an earlier one left the state of a ready site and no dependent came back unready since. -/
theorem History.readyHolds_iff (h : plan.WellFormed) (history : History plan passes) :
    (leftStatus passes).conditions.ReadyHolds ↔ ReadySince passes := by
  induction history with
  | nil => exact iff_of_false Conditions.not_readyHolds_nil not_readySince_nil
  | cons history hstart run ih =>
      obtain ⟨-, hready, -⟩ := present_leaves h run rfl
      rw [readySince_cons_iff, ← ih, ← hstart]
      exact hready

/-- What the site tells about its dependents after any pass of a history. In the state of a ready
site, and whenever the pass settles, every configured dependent was last reported with the reason of
one that runs; to settle, the supporting ones must also have come back ready. The site's own ready
condition holds exactly if this pass or an earlier one left the state of a ready site, and no
dependent came back unready since. -/
theorem readiness_of_history (h : plan.WellFormed) (history : History plan (pass :: passes)) :
    (pass.status.state = some "Ready" ∨ pass.progress = .settled →
        ∀ kind d, plan.dependent? kind = some d →
          ∃ status c, lastReport? kind pass.trace = some status ∧
            status.readyCondition? = some c ∧ c.reason = some "Successful") ∧
      (pass.progress = .settled → ∀ kind ∈ DependentKind.supporting, ∀ d,
        plan.dependent? kind = some d →
          ∃ status, lastReport? kind pass.trace = some status ∧ status.conditions.ReadyHolds) ∧
      (pass.status.conditions.ReadyHolds ↔ ReadySince (pass :: passes)) := by
  refine ⟨?_, ?_, history.readyHolds_iff h⟩
  · cases history with
    | cons history hstart run =>
        obtain ⟨hstate, -, hsettled⟩ := present_leaves h run rfl
        intro hready kind d hd
        have hsite := hready.elim id fun hprogress => (hsettled hprogress).2
        exact readyReason_eq_successful_iff.mp (hstate.mp hsite kind (Plan.has_iff.mpr ⟨d, hd⟩))
  · cases history with
    | cons history hstart run =>
        obtain ⟨-, -, hsettled⟩ := present_leaves h run rfl
        have hlast := appliedLast_of_present h (runs_present h run)
        intro hprogress kind hkind d hd
        obtain ⟨status, hmem, hholds⟩ := (hsettled hprogress).1 kind hkind d hd
        exact ⟨status, h.kind_eq hd ▸ hlast.lastReport?_eq hmem, hholds⟩

/-- A workload that comes back ready makes the site ready in the first pass. -/
theorem readiness_of_first_pass :
    ∃ plan pass, Plan.compose "a" none .empty .empty = .ok plan ∧ History plan [pass] ∧
      pass.progress = .settled ∧ pass.status.conditions.ReadyHolds := by
  obtain ⟨moodle, hplan⟩ := Plan.compose_empty "a" none
  obtain ⟨pass, history, hprogress, -, hstatus⟩ :=
    (History.nil : History (.ofSpecs "a" none ⟨some moodle, none, none, none⟩ false) []).next
      ⟨some (.withReady Condition.holds successfulReason), none, none, none⟩ "now"
      (show _ = Except.ok .settled from rfl)
  refine ⟨_, pass, hplan, history, hprogress, ?_⟩
  refine (readiness_of_history (Plan.compose_wellFormed hplan) history).2.2.mpr
    ⟨[], pass, [], rfl, ?_, by simp⟩
  rw [hstatus]
  rfl

/-- A workload that loses its ready condition leaves the site's own one as it was, so this holds
although the workload is not known to be ready any more. A workload whose ready condition fails with
the reason of one that runs even lets the site settle as a ready one. -/
theorem ready_without_ready_workload :
    ∃ plan, Plan.compose "a" none .empty .empty = .ok plan ∧
      (∃ pass passes, History plan (pass :: passes) ∧ pass.status.conditions.ReadyHolds ∧
        ¬ AllReady plan pass.trace) ∧
      ∃ pass, History plan [pass] ∧ pass.status.state = some "Ready" ∧
        pass.progress = .settled ∧ ¬ AllReady plan pass.trace := by
  obtain ⟨moodle, hplan⟩ := Plan.compose_empty "a" none
  have start : History (.ofSpecs "a" none ⟨some moodle, none, none, none⟩ false) [] := .nil
  refine ⟨_, hplan, ?_, ?_⟩
  · obtain ⟨first, ready, -, -, hfirst⟩ :=
      start.next ⟨some (.withReady Condition.holds successfulReason), none, none, none⟩ "now"
        (show _ = Except.ok .settled from rfl)
    obtain ⟨pass, history, -, htrace, hstatus⟩ :=
      ready.next ⟨some .empty, none, none, none⟩ "later" (show _ = Except.ok .requeue from rfl)
    refine ⟨pass, [first], history, ?_, ?_⟩
    · rw [hstatus, leftStatus, hfirst]
      exact ⟨_, rfl, rfl⟩
    · intro hall
      obtain ⟨status, hreport, c, hc, -⟩ := hall .moodle _ rfl
      rw [htrace] at hreport
      cases hreport
      cases hc
  · obtain ⟨pass, history, hprogress, htrace, hstatus⟩ :=
      start.next ⟨some (.withReady Condition.fails successfulReason), none, none, none⟩ "now"
        (show _ = Except.ok .settled from rfl)
    refine ⟨pass, history, by rw [hstatus]; rfl, hprogress, ?_⟩
    intro hall
    obtain ⟨status, hreport, c, hc, hholds⟩ := hall .moodle _ rfl
    rw [htrace] at hreport
    cases hreport
    cases hc
    exact Condition.fails_ne_holds hholds

end Pass

end SiteOperator
