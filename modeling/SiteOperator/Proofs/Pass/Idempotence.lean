import SiteOperator.Proofs.Pass.Finalize
import SiteOperator.Proofs.Pass.Repeat

/-!
# Passes come to rest

In a cluster that keeps answering alike (`Pass.fixed`), a pass that is made again makes the same
calls, comes to the same end and finds nothing new to say (`Pass.idempotent`). For the passes over a
site that is kept this is because the second pass learns what the first one learnt. The pass over a
site that is being deleted learns nothing at all: its calls do not depend on the status
(`Pass.finalize_eq`), and what it makes of the status depends on their outcome only.
-/

namespace SiteOperator

def StatusDraft.terminatedSettings : Conditions :=
  [⟨Condition.ready, Condition.fails, some "Terminated", some "Finalizer ended", none⟩]

theorem SiteStatus.UpdatedBy.setTerminated {before : SiteStatus} {settings : Conditions}
    {state : String} {workload : Option DependentStatus} {draft : StatusDraft}
    (updated : before.UpdatedBy settings state workload draft.collected) (now : String) :
    before.UpdatedBy (settings ++ StatusDraft.terminatedSettings) "Terminated" workload
      (draft.setTerminated now).1.collected := by
  have told := draft.tells_setReady now Condition.fails "Terminated" "Finalizer ended"
  refine ⟨?_, ?_⟩
  · rw [Conditions.overwriteAll_append, ← updated.conditions]
    exact told.conditions
  · have hrest : (draft.setTerminated now).1.collected = { draft.collected with
        conditions := (draft.setTerminated now).1.collected.conditions
        state := some "Terminated" } := rfl
    rw [hrest, updated.rest]

namespace Pass

open Dialogue (AnsweredBy)

/-- The answers of a cluster in which every dependent keeps reporting the same, and in which
deleting a dependent of a kind always has the same outcome. -/
def fixed (outcomes : PerKind DeleteOutcome) :
    (call : DependentCall) → Observed → call.Answer × Observed
  | .observe d, known => keeping (.observe d) known
  | .apply d, known => keeping (.apply d) known
  | .delete d, known => (.ok (outcomes.get d.kind), known)

variable {plan : Plan} {now later : String} {draft draft' : StatusDraft}
  {outcomes : PerKind DeleteOutcome} {known last : Observed} {trace : List AnsweredCall}
  {result : PassResult}

theorem answeredBy_keeping (answered : AnsweredBy (fixed outcomes) known trace last)
    (h : ∀ d, .delete d ∉ calls trace) : AnsweredBy keeping known trace last := by
  induction answered with
  | nil => exact .nil
  | @cons call known last rest _ ih =>
      have hrest := ih fun d hmem => h d (List.mem_cons_of_mem _ hmem)
      cases call with
      | observe d => exact .cons (q := DependentCall.observe d) hrest
      | apply d => exact .cons (q := DependentCall.apply d) hrest
      | delete d => exact absurd List.mem_cons_self (h d)

theorem delete_not_mem_present (run : (present plan now draft).Runs trace result)
    (d : DependentSpec) : .delete d ∉ calls trace := by
  intro hmem
  rcases runs_present_cases run with
    ⟨error, walk, rfl⟩ | ⟨first, rest, rfl, walk, ⟨-, hrest⟩ | ⟨-, rfl, rfl⟩⟩
  · exact delete_not_mem_schedule (walk.calls_prefix_schedule.subset hmem)
  · have hcalls : calls (first ++ rest) <+: presentSchedule plan := by
      rw [calls_append, walk.completed.1, presentSchedule_eq]
      refine (List.prefix_append_right_inj _).mpr ?_
      rcases runs_presentWorkload hrest with ⟨error, walkLast, -⟩ | ⟨walkLast, -⟩
      · exact walkLast.calls_prefix_schedule
      · exact walkLast.calls_prefix_schedule
    exact delete_not_mem_schedule (hcalls.subset hmem)
  · rw [List.append_nil] at hmem
    exact delete_not_mem_schedule (walk.calls_prefix_schedule.subset hmem)

theorem delete_not_mem_suspend (run : (suspend plan now draft).Runs trace result)
    (d : DependentSpec) : .delete d ∉ calls trace := by
  obtain ⟨ending, walk, -⟩ := runs_suspend run
  exact fun hmem => delete_not_mem_schedule (walk.calls_prefix_schedule.subset hmem)

def deletions (plan : Plan) : PassProgram (Except Raised Progress) :=
  (deleteAll (configured plan [.moodle])).bind fun
    | .error error => .done (.error error)
    | .ok true => .done (.ok .requeue)
    | .ok false => (deleteAll (configured plan deleteOrder)).bind fun
        | .error error => .done (.error error)
        | .ok true => .done (.ok .requeue)
        | .ok false => .done (.ok .settled)

def finalizeResult (plan : Plan) (now : String) (draft : StatusDraft) :
    Except Raised Progress → PassResult
  | .ok .settled =>
      ⟨.ok .settled, ((plan.conclude .none true false now draft).1.setTerminated now).1⟩
  | .ok .requeue => ⟨.ok .requeue, (plan.conclude .none true false now draft).1⟩
  | .error error => ⟨.error error, (plan.conclude .none true false now draft).1⟩

/-- The calls of a pass over a site that is being deleted do not depend on the status. -/
theorem finalize_eq (plan : Plan) (now : String) (draft : StatusDraft) :
    finalize plan now draft =
      (deletions plan).bind fun outcome => .done (finalizeResult plan now draft outcome) := by
  rw [finalize, deletions, Dialogue.bind_assoc]
  refine congrArg _ (funext fun answer => ?_)
  rcases answer with error | pending
  · rfl
  cases pending with
  | true => rfl
  | false =>
      dsimp only
      rw [Dialogue.bind_assoc]
      refine congrArg _ (funext fun answer => ?_)
      rcases answer with error | pending
      · rfl
      · cases pending <;> rfl

/-- What such a pass makes of a status depends on its outcome only. -/
theorem exists_updatedBy_finalizeResult (plan : Plan) (outcome : Except Raised Progress) :
    ∃ settings state, ∀ (now : String) (draft : StatusDraft),
      draft.collected.UpdatedBy settings state none
        (finalizeResult plan now draft outcome).draft.collected := by
  have concluded (now : String) (draft : StatusDraft) :=
    plan.updatedBy_conclude .none true false now (.refl draft)
  rcases outcome with error | progress
  · exact ⟨_, _, concluded⟩
  · cases progress with
    | requeue => exact ⟨_, _, concluded⟩
    | settled => exact ⟨_, _, fun now draft => (concluded now draft).setTerminated now⟩

theorem current_finalizeResult (plan : Plan) (now : String) (draft : StatusDraft)
    (outcome : Except Raised Progress) :
    (finalizeResult plan now draft outcome).draft.current = draft.current := by
  have concluded := plan.current_conclude .none true false now draft
  rcases outcome with error | progress
  · exact concluded
  · cases progress <;> exact concluded

theorem outcome_finalizeResult (plan : Plan) (now : String) (draft : StatusDraft)
    (outcome : Except Raised Progress) :
    (finalizeResult plan now draft outcome).outcome = outcome := by
  rcases outcome with error | progress
  · rfl
  · cases progress <;> rfl

theorem run_deleteAll (deps : List DependentSpec) :
    (deleteAll deps).run (fixed outcomes) known =
      (.ok (deps.any fun d => (outcomes.get d.kind).isPending), known) := by
  induction deps with
  | nil => rfl
  | cons d deps ih =>
      rw [deleteAll, Dialogue.run]
      simp only [fixed]
      rw [Dialogue.run_bind, ih]
      rfl

/-- Where every deletion is answered, a pass over a site that is being deleted has a result and
leaves everything that is reported as it is. -/
theorem exists_run_deletions (plan : Plan) (outcomes : PerKind DeleteOutcome) (known : Observed) :
    ∃ progress, (deletions plan).run (fixed outcomes) known = (.ok progress, known) := by
  rw [deletions, Dialogue.run_bind, run_deleteAll]
  cases (configured plan [.moodle]).any fun d => (outcomes.get d.kind).isPending with
  | true => exact ⟨_, rfl⟩
  | false =>
      dsimp only
      rw [Dialogue.run_bind, run_deleteAll]
      cases (configured plan deleteOrder).any fun d => (outcomes.get d.kind).isPending with
      | true => exact ⟨_, rfl⟩
      | false => exact ⟨_, rfl⟩

/-- In a cluster that keeps answering alike, every pass ends without a failure. -/
theorem exists_outcome_of_fixed {make : Plan → String → StatusDraft → PassProgram PassResult}
    (hmake : make ∈ [present, suspend, finalize]) (plan : Plan) (now : String)
    (draft : StatusDraft) (outcomes : PerKind DeleteOutcome) (known : Observed) :
    ∃ progress, ((make plan now draft).run (fixed outcomes) known).1.outcome = .ok progress := by
  have run := Dialogue.runs_transcript (fixed outcomes) (make plan now draft) known
  have answered := Dialogue.answeredBy_transcript (fixed outcomes) (make plan now draft) known
  simp only [List.mem_cons, List.not_mem_nil, or_false] at hmake
  rcases hmake with rfl | rfl | rfl
  · have ended := ended_of_present run (answeredBy_keeping answered (delete_not_mem_present run))
    split at ended
    · exact ⟨_, congrArg PassResult.outcome ended.2⟩
    · exact ⟨_, congrArg PassResult.outcome ended.2⟩
  · have answered := answeredBy_keeping answered (delete_not_mem_suspend run)
    obtain ⟨ending, walk, ended⟩ := runs_suspend run
    cases ending with
    | failed error => exact (not_failed_of_keeping answered walk).elim
    | stopped | completed => exact ⟨_, congrArg PassResult.outcome ended⟩
  · obtain ⟨progress, hrun⟩ := exists_run_deletions plan outcomes known
    rw [finalize_eq, Dialogue.run_bind, hrun]
    exact ⟨progress, outcome_finalizeResult plan now draft (.ok progress)⟩

/-- A pass that is made again in a cluster that keeps answering alike makes the same calls, comes to
the same end, and does the same to the status of the site. -/
theorem alike_of_fixed {make : Plan → String → StatusDraft → PassProgram PassResult}
    (hmake : make ∈ [present, suspend, finalize]) (plan : Plan) (now later : String)
    (draft draft' : StatusDraft) (outcomes : PerKind DeleteOutcome) (known : Observed) :
    Alike draft draft' ((make plan now draft).transcript (fixed outcomes) known)
      ((make plan later draft').transcript (fixed outcomes)
        ((make plan now draft).run (fixed outcomes) known).2)
      ((make plan now draft).run (fixed outcomes) known).1
      ((make plan later draft').run (fixed outcomes)
        ((make plan now draft).run (fixed outcomes) known).2).1 := by
  have run := Dialogue.runs_transcript (fixed outcomes) (make plan now draft) known
  have answered := Dialogue.answeredBy_transcript (fixed outcomes) (make plan now draft) known
  have run' := Dialogue.runs_transcript (fixed outcomes) (make plan later draft')
    ((make plan now draft).run (fixed outcomes) known).2
  have answered' := Dialogue.answeredBy_transcript (fixed outcomes) (make plan later draft')
    ((make plan now draft).run (fixed outcomes) known).2
  simp only [List.mem_cons, List.not_mem_nil, or_false] at hmake
  rcases hmake with rfl | rfl | rfl
  · exact present_repeats run run'
      (answeredBy_keeping answered (delete_not_mem_present run))
      (answeredBy_keeping answered' (delete_not_mem_present run'))
  · exact suspend_repeats run run'
      (answeredBy_keeping answered (delete_not_mem_suspend run))
      (answeredBy_keeping answered' (delete_not_mem_suspend run'))
  · obtain ⟨progress, hrun⟩ := exists_run_deletions plan outcomes known
    obtain ⟨settings, state, updated⟩ := exists_updatedBy_finalizeResult plan (.ok progress)
    simp only [finalize_eq, Dialogue.run_bind, Dialogue.transcript_bind, hrun, Dialogue.run,
      Dialogue.transcript]
    refine ⟨rfl, ?_, current_finalizeResult .., current_finalizeResult .., ?_⟩
    · rw [outcome_finalizeResult, outcome_finalizeResult]
    · exact ⟨settings, state, none, updated now draft, updated later draft'⟩

/-- Passes are idempotent. In a cluster in which every dependent keeps reporting the same, one that
is not there is there with an empty status once it has been applied, and every deletion keeps having
the same outcome, let a pass of any kind be made over a site whose conditions have distinct types.
The same pass, made again from the status that the first one left, has the same progress as a
result, applies and deletes the same dependents with the same specs in the same order, and has
nothing new to say. The status that it starts from may be the one that the first pass has collected
or, if that said nothing new, the one that was there before. -/
theorem idempotent {make : Plan → String → StatusDraft → PassProgram PassResult}
    (hmake : make ∈ [present, suspend, finalize]) (plan : Plan) (now later : String)
    (outcomes : PerKind DeleteOutcome) {known known' known'' : Observed}
    {before after : Option SiteStatus} {first second : PassResult}
    (hfirst : (make plan now (.ofCurrent before)).run (fixed outcomes) known = (first, known'))
    (distinct : (before.getD .empty).conditions.types.Nodup)
    (left : after = some first.draft.collected ∨
      first.draft.hasChanges = false ∧ after = before)
    (hsecond : (make plan later (.ofCurrent after)).run (fixed outcomes) known' =
      (second, known'')) :
    (∃ progress, first.outcome = .ok progress ∧ second.outcome = .ok progress) ∧
      calls ((make plan later (.ofCurrent after)).transcript (fixed outcomes) known') =
        calls ((make plan now (.ofCurrent before)).transcript (fixed outcomes) known) ∧
      second.draft.hasChanges = false := by
  obtain ⟨progress, hprogress⟩ :=
    exists_outcome_of_fixed hmake plan now (.ofCurrent before) outcomes known
  have alike := alike_of_fixed hmake plan now later (.ofCurrent before) (.ofCurrent after)
    outcomes known
  rw [hfirst, hsecond] at alike
  rw [hfirst] at hprogress
  exact ⟨⟨progress, hprogress, alike.outcome ▸ hprogress⟩, alike.calls.symm,
    alike.drafts.settles distinct left⟩

/-- The pass over a new site with a database has something to say the first time, and nothing new
the second time, when it finds the database that it has created. -/
theorem idempotent_of_new_database :
    ∃ plan postgres first second known known',
      Plan.compose "a" none ⟨⟨none, some [], none, none⟩, none⟩ .empty = .ok plan ∧
        plan.dependent? .postgres = some postgres ∧
        (present plan "now" (.ofCurrent none)).run (fixed (.const .notFound)) .none =
          (first, known) ∧
        (present plan "later" (.ofCurrent (some first.draft.collected))).run
          (fixed (.const .notFound)) known = (second, known') ∧
        .apply postgres ∈ calls ((present plan "later"
          (.ofCurrent (some first.draft.collected))).transcript (fixed (.const .notFound)) known) ∧
        first.draft.hasChanges = true ∧ second.draft.hasChanges = false := by
  obtain ⟨postgres, moodle, hplan⟩ : ∃ postgres moodle,
      Plan.compose "a" none ⟨⟨none, some [], none, none⟩, none⟩ .empty =
        .ok (Plan.ofSpecs "a" none ⟨some moodle, some postgres, none, none⟩ false) :=
    ⟨_, _, rfl⟩
  let plan := Plan.ofSpecs "a" none ⟨some moodle, some postgres, none, none⟩ false
  have hfirst : (present plan "now" (.ofCurrent none)).run (fixed (.const .notFound)) .none =
      (_, _) := rfl
  obtain ⟨-, hcalls, settled⟩ := idempotent List.mem_cons_self plan "now" "later"
    (.const .notFound) hfirst List.nodup_nil (Or.inl rfl) rfl
  refine ⟨plan, _, _, _, _, _, hplan, rfl, hfirst, rfl, ?_, rfl, settled⟩
  rw [hcalls]
  exact .tail _ (.tail _ (.head _))

end Pass

end SiteOperator
