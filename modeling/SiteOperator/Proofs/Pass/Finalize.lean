import SiteOperator.Proofs.Pass.Schedule

/-!
# The pass over a site that is being deleted

Such a pass deletes the workload, and the supporting dependents once nothing of the workload is left
to wait for. It is a walk that stops at a workload that may still be around (`runs_finalize`): what
it answers is a function of the outcomes (`finalizeEnd`), and the status it leaves says that the
finalizer has started, or has ended if every dependent is gone.
-/

namespace SiteOperator

theorem DeleteOutcome.isPending_eq_false_iff {outcome : DeleteOutcome} :
    outcome.isPending = false ↔ outcome = .notFound ∨ outcome = .notOwned := by
  cases outcome <;> simp [isPending]

namespace Pass

def deleted (d : DependentSpec) (outcome : DeleteOutcome) : AnsweredCall :=
  ⟨.delete d, (.ok outcome : Except Raised DeleteOutcome)⟩

/-- A dependent may still be around after the attempt to delete it. -/
def Pending (e : AnsweredCall) : Prop :=
  ∃ d outcome, e = deleted d outcome ∧ outcome.isPending = true

/-- Nothing of a dependent is left to wait for: it does not exist, or the site does not own it. -/
def Gone (d : DependentSpec) (trace : List AnsweredCall) : Prop :=
  deleted d .notFound ∈ trace ∨ deleted d .notOwned ∈ trace

def finalizeSchedule (plan : Plan) : List DependentCall :=
  (configured plan [.moodle, .keydb, .postgres, .nfs]).map .delete

/-- The pass ends at the deletion of a workload that may still be around. -/
def WorkloadPending (moodle : DependentSpec) (e : AnsweredCall) : Prop :=
  e.1 = .delete moodle ∧ Pending e

variable {plan : Plan} {now : String} {draft : StatusDraft} {trace : List AnsweredCall}
  {result : PassResult} {moodle d : DependentSpec} {outcome : DeleteOutcome}

theorem pending_deleted_iff : Pending (deleted d outcome) ↔ outcome.isPending = true := by
  constructor
  · rintro ⟨d', outcome', heq, hpending⟩
    cases heq
    exact hpending
  · intro hpending
    exact ⟨d, outcome, rfl, hpending⟩

theorem exists_eq_deleted {e : AnsweredCall} (hcall : e.1 = .delete d) (h : failure? e = none) :
    ∃ outcome, e = deleted d outcome := by
  obtain ⟨call, answer⟩ := e
  cases hcall
  cases answer with
  | ok outcome => exact ⟨outcome, rfl⟩
  | error error => cases h

theorem gone_iff_exists :
    Gone d trace ↔ ∃ outcome, deleted d outcome ∈ trace ∧ ¬ Pending (deleted d outcome) := by
  simp only [pending_deleted_iff, Bool.not_eq_true, DeleteOutcome.isPending_eq_false_iff]
  constructor
  · rintro (hmem | hmem)
    · exact ⟨_, hmem, Or.inl rfl⟩
    · exact ⟨_, hmem, Or.inr rfl⟩
  · rintro ⟨outcome, hmem, rfl | rfl⟩
    · exact Or.inl hmem
    · exact Or.inr hmem

theorem mem_finalizeSchedule {call : DependentCall} :
    call ∈ finalizeSchedule plan ↔ ∃ kind d, plan.dependent? kind = some d ∧ call = .delete d := by
  rw [finalizeSchedule, List.mem_map]
  constructor
  · rintro ⟨d, hd, rfl⟩
    obtain ⟨kind, -, hd⟩ := mem_configured.mp hd
    exact ⟨kind, d, hd, rfl⟩
  · rintro ⟨kind, d, hd, rfl⟩
    refine ⟨d, mem_configured.mpr ⟨kind, ?_, hd⟩, rfl⟩
    cases kind <;> simp

theorem finalizeSchedule_eq (hmoodle : plan.dependent? .moodle = some moodle) :
    finalizeSchedule plan =
      .delete moodle :: (configured plan deleteOrder).map .delete := by
  simp [finalizeSchedule, deleteOrder, configured, hmoodle]

theorem nodup_finalizeSchedule (h : plan.WellFormed) : (finalizeSchedule plan).Nodup := by
  have hdistinct : [DependentKind.moodle, .keydb, .postgres, .nfs].Nodup := by decide
  refine List.pairwise_map.mpr ((pairwise_configured h hdistinct).imp ?_)
  rintro d e hne heq
  cases heq
  exact hne rfl

/-- Deleting dependents one after the other is a walk that stops at no answer, and it learns whether
any of them may still be around. -/
theorem runs_deleteAll {stops : AnsweredCall → Prop} {deps : List DependentSpec}
    (go : ∀ d ∈ deps, ∀ answer, ¬ stops ⟨.delete d, answer⟩) {answer : Except Raised Bool}
    (run : (deleteAll deps).Runs trace answer) :
    (∃ error, Walk stops (deps.map .delete) trace (.failed error) ∧ answer = .error error) ∨
      (Walk stops (deps.map .delete) trace .completed ∧
        ∃ pending, answer = .ok pending ∧ (pending = true ↔ ∃ e ∈ trace, Pending e)) := by
  induction deps generalizing trace answer with
  | nil =>
      obtain ⟨rfl, rfl⟩ := Dialogue.runs_done_iff.mp run
      exact Or.inr ⟨.nil, false, rfl, by simp⟩
  | cons d deps ih =>
      obtain ⟨goHead, goRest⟩ := List.forall_mem_cons.mp go
      obtain ⟨found, tail, rfl, hnext⟩ := Dialogue.runs_ask_iff.mp run
      cases found with
      | error error =>
          obtain ⟨rfl, rfl⟩ := Dialogue.runs_done_iff.mp hnext
          exact Or.inl ⟨error, .fail (e := ⟨.delete d, .error error⟩) rfl, rfl⟩
      | ok outcome =>
          obtain ⟨made, later, last, rfl, hmade, hlast⟩ := Dialogue.runs_bind_iff.mp hnext
          rcases ih goRest hmade with ⟨error, walk, rfl⟩ | ⟨walk, pending, rfl, hpending⟩
          · obtain ⟨rfl, rfl⟩ := Dialogue.runs_done_iff.mp hlast
            rw [List.append_nil]
            exact Or.inl ⟨error, .step ⟨rfl, goHead _⟩ walk, rfl⟩
          · obtain ⟨rfl, rfl⟩ := Dialogue.runs_done_iff.mp hlast
            rw [List.append_nil]
            refine Or.inr ⟨.step ⟨rfl, goHead _⟩ walk, _, rfl, ?_⟩
            simp only [List.mem_cons, exists_eq_or_imp]
            rw [Bool.or_eq_true, hpending, ← pending_deleted_iff (d := d)]
            rfl

def FinalizeEnd (plan : Plan) (now : String) (draft : StatusDraft) (trace : List AnsweredCall)
    (ending : Ending) (result : PassResult) : Prop :=
  let started := (plan.conclude .none true false now draft).1
  match ending with
  | .failed error => result = ⟨.error error, started⟩
  | .stopped => result = ⟨.ok .requeue, started⟩
  | .completed =>
      (∃ e ∈ trace, Pending e) ∧ result = ⟨.ok .requeue, started⟩ ∨
        (∀ e ∈ trace, ¬ Pending e) ∧ result = ⟨.ok .settled, (started.setTerminated now).1⟩

/-- A pass over a site that is being deleted is a walk along its schedule, and how it ends is a
function of the answers. -/
theorem runs_finalize (h : plan.WellFormed) (hmoodle : plan.dependent? .moodle = some moodle)
    (run : (finalize plan now draft).Runs trace result) :
    ∃ ending, Walk (WorkloadPending moodle) (finalizeSchedule plan) trace ending ∧
      FinalizeEnd plan now draft trace ending result := by
  have hworkload : configured plan [.moodle] = [moodle] := by simp [configured, hmoodle]
  have hnodup := nodup_finalizeSchedule h
  rw [finalizeSchedule_eq hmoodle] at hnodup ⊢
  have go : ∀ d ∈ configured plan deleteOrder, ∀ answer,
      ¬ WorkloadPending moodle ⟨.delete d, answer⟩ := by
    rintro d hd answer ⟨heq, -⟩
    cases heq
    exact (List.nodup_cons.mp hnodup).1 (List.mem_map_of_mem hd)
  unfold finalize at run
  rw [hworkload] at run
  obtain ⟨answer, tail, rfl, hnext⟩ := Dialogue.runs_ask_iff.mp run
  cases answer with
  | error error =>
      obtain ⟨rfl, rfl⟩ := Dialogue.runs_done_iff.mp hnext
      exact ⟨.failed error, .fail (e := ⟨.delete moodle, .error error⟩) rfl, rfl⟩
  | ok outcome =>
      simp only [deleteAll, Dialogue.bind_done, Bool.or_false] at hnext
      cases hpending : outcome.isPending with
      | true =>
          rw [hpending] at hnext
          obtain ⟨rfl, rfl⟩ := Dialogue.runs_done_iff.mp hnext
          have stop : WorkloadPending moodle (deleted moodle outcome) :=
            ⟨rfl, pending_deleted_iff.mpr hpending⟩
          exact ⟨.stopped, .stop rfl stop, rfl⟩
      | false =>
          have hgone : ¬ Pending (deleted moodle outcome) := by
            rw [pending_deleted_iff, hpending]
            exact Bool.false_ne_true
          have step : GoesOn (WorkloadPending moodle) (deleted moodle outcome) :=
            ⟨rfl, fun stop => hgone stop.2⟩
          rw [hpending] at hnext
          obtain ⟨made, answer, rest, rfl, hmade, hrest⟩ := Dialogue.runs_bind_iff.mp hnext
          rcases runs_deleteAll go hmade with ⟨error, walk, rfl⟩ | ⟨walk, pending, rfl, hiff⟩
          · obtain ⟨rfl, rfl⟩ := Dialogue.runs_done_iff.mp hrest
            rw [List.append_nil]
            exact ⟨.failed error, .step step walk, rfl⟩
          · have hany : (∃ e ∈ deleted moodle outcome :: made, Pending e) ↔ pending = true := by
              simp only [List.mem_cons, exists_eq_or_imp]
              rw [hiff]
              exact or_iff_right hgone
            have walk := Walk.step step walk
            cases pending with
            | true =>
                obtain ⟨rfl, rfl⟩ := Dialogue.runs_done_iff.mp hrest
                rw [List.append_nil]
                exact ⟨.completed, walk, Or.inl ⟨hany.mpr rfl, rfl⟩⟩
            | false =>
                obtain ⟨rfl, rfl⟩ := Dialogue.runs_done_iff.mp hrest
                rw [List.append_nil]
                refine ⟨.completed, walk, Or.inr ⟨fun e he hpending => ?_, rfl⟩⟩
                exact Bool.false_ne_true (hany.mp ⟨e, he, hpending⟩)

section

variable {ending : Ending}

/-- The pass marks the site as terminated if it settles, and as terminating otherwise. -/
theorem FinalizeEnd.draft_eq (h : FinalizeEnd plan now draft trace ending result) :
    result.outcome = .ok .settled ∧
        result.draft = ((plan.conclude .none true false now draft).1.setTerminated now).1 ∨
      result.outcome ≠ .ok .settled ∧
        result.draft = (plan.conclude .none true false now draft).1 := by
  cases ending with
  | failed error | stopped =>
      obtain rfl := h
      exact Or.inr ⟨nofun, rfl⟩
  | completed =>
      rcases h with ⟨-, rfl⟩ | ⟨-, rfl⟩
      · exact Or.inr ⟨nofun, rfl⟩
      · exact Or.inl ⟨rfl, rfl⟩

/-- The status that the pass leaves says that the finalizer has ended if the pass settles, and that
it has started otherwise. -/
theorem FinalizeEnd.status (h : FinalizeEnd plan now draft trace ending result) :
    result.outcome = .ok .settled ∧ result.draft.collected.FinalizerEnded ∨
      result.outcome ≠ .ok .settled ∧ result.draft.collected.FinalizerStarted := by
  rcases h.draft_eq with ⟨settled, hdraft⟩ | ⟨unsettled, hdraft⟩
  · rw [hdraft]
    exact Or.inl ⟨settled, StatusDraft.finalizerEnded_setTerminated _ now⟩
  · rw [hdraft]
    exact Or.inr ⟨unsettled, plan.finalizerStarted_conclude .none false now draft⟩

theorem FinalizeEnd.outcome_eq (h : FinalizeEnd plan now draft trace ending result)
    (walk : Walk (WorkloadPending moodle) (finalizeSchedule plan) trace ending) :
    (∃ error, FailsLast trace error ∧ result.outcome = .error error) ∨
      (∀ e ∈ trace, failure? e = none) ∧ ∃ progress, result.outcome = .ok progress := by
  cases ending with
  | failed error =>
      obtain rfl := h
      exact Or.inl ⟨error, walk.failed, rfl⟩
  | stopped =>
      obtain rfl := h
      obtain ⟨before, last, rfl, hlast, -, hgo⟩ := walk.stopped
      refine Or.inr ⟨?_, _, rfl⟩
      intro e he
      rcases List.mem_append.mp he with he | he
      · exact (hgo e he).1
      · rw [List.mem_singleton.mp he, hlast]
  | completed =>
      refine Or.inr ⟨fun e he => (walk.completed.2 e he).1, ?_⟩
      rcases h with ⟨-, rfl⟩ | ⟨-, rfl⟩
      · exact ⟨_, rfl⟩
      · exact ⟨_, rfl⟩

/-- A pass that settles has deleted every dependent, and none of them is left to wait for. -/
theorem FinalizeEnd.of_settled (h : FinalizeEnd plan now draft trace ending result)
    (walk : Walk (WorkloadPending moodle) (finalizeSchedule plan) trace ending)
    (settled : result.outcome = .ok .settled) :
    calls trace = finalizeSchedule plan ∧ (∀ e ∈ trace, failure? e = none ∧ ¬ Pending e) ∧
      result.draft = ((plan.conclude .none true false now draft).1.setTerminated now).1 := by
  cases ending with
  | failed error | stopped =>
      obtain rfl := h
      cases settled
  | completed =>
      rcases h with ⟨-, rfl⟩ | ⟨hall, rfl⟩
      · cases settled
      · exact ⟨walk.completed.1, fun e he => ⟨(walk.completed.2 e he).1, hall e he⟩, rfl⟩

/-- Every deletion of the schedule is answered once. -/
theorem not_pending_of_gone (h : plan.WellFormed)
    (walk : Walk (WorkloadPending moodle) (finalizeSchedule plan) trace ending)
    (gone : Gone d trace) {e : AnsweredCall} (he : e ∈ trace) (hcall : e.1 = .delete d) :
    ¬ Pending e := by
  obtain ⟨outcome, hmem, hpending⟩ := gone_iff_exists.mp gone
  have hnodup : (calls trace).Nodup :=
    List.Pairwise.sublist walk.calls_prefix_schedule.sublist (nodup_finalizeSchedule h)
  rw [eq_of_call_eq hnodup he hmem hcall]
  exact hpending

theorem head_calls (walk : Walk (WorkloadPending moodle) (finalizeSchedule plan) trace ending)
    (hmoodle : plan.dependent? .moodle = some moodle) :
    (calls trace).head? = some (.delete moodle) := by
  rw [finalizeSchedule_eq hmoodle] at walk
  have hmade : .delete moodle ∈ calls trace :=
    walk.mem_calls_of_goesOn (List.nil_append _).symm
      fun _ _ hmem => absurd hmem List.not_mem_nil
  rcases List.prefix_cons_iff.mp walk.calls_prefix_schedule with hnil | ⟨rest, heq, -⟩
  · rw [hnil] at hmade
    cases hmade
  · rw [heq, List.head?_cons]

/-- No supporting dependent is deleted before nothing of the workload is left to wait for. -/
theorem gone_of_deletes_supporting (h : plan.WellFormed)
    (hmoodle : plan.dependent? .moodle = some moodle)
    (walk : Walk (WorkloadPending moodle) (finalizeSchedule plan) trace ending)
    (made : .delete d ∈ calls trace) (hne : d ≠ moodle) : Gone moodle trace := by
  have hnodup := nodup_finalizeSchedule h
  have hhead := head_calls walk hmoodle
  rw [finalizeSchedule_eq hmoodle] at walk hnodup
  have hlater : .delete d ∈ (configured plan deleteOrder).map DependentCall.delete := by
    refine (List.mem_cons.mp (walk.calls_prefix_schedule.subset made)).resolve_left ?_
    rintro heq
    cases heq
    exact hne rfl
  obtain ⟨before, after, hsplit⟩ := List.append_of_mem hlater
  rw [hsplit] at walk hnodup
  have hschedule : .delete moodle :: (before ++ .delete d :: after) =
      (.delete moodle :: before) ++ .delete d :: after := rfl
  have hgo := walk.goesOn_of_mem_calls hnodup hschedule made
  obtain ⟨e, he, hcall⟩ := mem_calls_iff.mp (List.mem_of_head? hhead)
  obtain ⟨hnone, hstop⟩ := hgo e he (hcall ▸ List.mem_cons_self)
  obtain ⟨outcome, rfl⟩ := exists_eq_deleted hcall hnone
  exact gone_iff_exists.mpr ⟨outcome, he, fun hpending => hstop ⟨rfl, hpending⟩⟩

/-- Once nothing of the workload is left to wait for, only a failing call keeps the pass from
deleting every other dependent. -/
theorem calls_eq_schedule_or_failed (h : plan.WellFormed)
    (walk : Walk (WorkloadPending moodle) (finalizeSchedule plan) trace ending)
    (gone : Gone moodle trace) :
    calls trace = finalizeSchedule plan ∨ ∃ error, FailsLast trace error := by
  cases ending with
  | completed => exact Or.inl walk.completed.1
  | failed error => exact Or.inr ⟨error, walk.failed⟩
  | stopped =>
      obtain ⟨before, last, rfl, -, ⟨hcall, hpending⟩, -⟩ := walk.stopped
      exact absurd hpending (not_pending_of_gone h walk gone (by simp) hcall)

/-- The pass settles exactly if no deletion failed and nothing of any dependent is left to wait
for. -/
theorem FinalizeEnd.settled_iff (h : plan.WellFormed)
    (hend : FinalizeEnd plan now draft trace ending result)
    (hmoodle : plan.dependent? .moodle = some moodle)
    (walk : Walk (WorkloadPending moodle) (finalizeSchedule plan) trace ending) :
    result.outcome = .ok .settled ↔
      (∀ e ∈ trace, failure? e = none) ∧
        ∀ kind d, plan.dependent? kind = some d → Gone d trace := by
  constructor
  · intro settled
    obtain ⟨hcalls, hall, -⟩ := hend.of_settled walk settled
    refine ⟨fun e he => (hall e he).1, fun kind d hd => ?_⟩
    have hmade : .delete d ∈ calls trace := by
      rw [hcalls]
      exact mem_finalizeSchedule.mpr ⟨kind, d, hd, rfl⟩
    obtain ⟨e, he, hcall⟩ := mem_calls_iff.mp hmade
    obtain ⟨outcome, rfl⟩ := exists_eq_deleted hcall (hall e he).1
    exact gone_iff_exists.mpr ⟨outcome, he, (hall _ he).2⟩
  · rintro ⟨hok, hgone⟩
    cases ending with
    | failed error =>
        obtain ⟨before, last, rfl, hlast, -⟩ := walk.failed
        rw [hok last (by simp)] at hlast
        cases hlast
    | stopped =>
        obtain ⟨before, last, rfl, -, ⟨hcall, hpending⟩, -⟩ := walk.stopped
        exact absurd hpending
          (not_pending_of_gone h walk (hgone .moodle _ hmoodle) (by simp) hcall)
    | completed =>
        rcases hend with ⟨⟨e, he, hpending⟩, -⟩ | ⟨-, rfl⟩
        · obtain ⟨kind, d, hd, hcall⟩ := mem_finalizeSchedule.mp
            (walk.calls_prefix_schedule.subset (mem_calls_iff.mpr ⟨e, he, rfl⟩))
          exact absurd hpending (not_pending_of_gone h walk (hgone kind d hd) he hcall)
        · rfl

end

/-- The pass over a site that is being deleted. It makes its calls along the schedule that deletes
the workload and then the configured supporting dependents, and makes no other call. A supporting
dependent is deleted only if the workload does not exist or is not owned by the site, and then all
of them are, up to a call that fails. The pass settles exactly if no call failed and no dependent is
left to wait for; exactly then the status says that the finalizer has ended, and after any other
successful pass it says that the finalizer has started, whatever it said before. -/
theorem finalize_order {site : String} {labels : Option (Entries String)}
    {template overrides : SpecBlocks}
    (h : Plan.compose site labels template overrides = .ok plan)
    (run : (finalize plan now draft).Runs trace result) :
    ∃ moodle, plan.dependent? .moodle = some moodle ∧
      (calls trace).head? = some (.delete moodle) ∧
      calls trace <+: finalizeSchedule plan ∧
      (∀ d, .observe d ∉ calls trace ∧ .apply d ∉ calls trace) ∧
      (∀ d, .delete d ∈ calls trace → d ≠ moodle → Gone moodle trace) ∧
      (Gone moodle trace →
        calls trace = finalizeSchedule plan ∨ ∃ error, FailsLast trace error) ∧
      ((∃ error, FailsLast trace error ∧ result.outcome = .error error) ∨
        (∀ e ∈ trace, failure? e = none) ∧ ∃ progress, result.outcome = .ok progress) ∧
      (result.outcome = .ok .settled ↔
        (∀ e ∈ trace, failure? e = none) ∧
          ∀ kind d, plan.dependent? kind = some d → Gone d trace) ∧
      (result.outcome = .ok .settled ↔ result.draft.collected.FinalizerEnded) ∧
      (result.outcome = .ok .requeue → result.draft.collected.FinalizerStarted) := by
  have hplan := Plan.compose_wellFormed h
  obtain ⟨moodle, hmoodle⟩ := Plan.compose_workload h
  obtain ⟨ending, walk, hend⟩ := runs_finalize hplan hmoodle run
  have hpre := walk.calls_prefix_schedule
  have deletes : ∀ call ∈ calls trace, ∃ d, call = .delete d := by
    intro call hcall
    obtain ⟨_, d, -, heq⟩ := mem_finalizeSchedule.mp (hpre.subset hcall)
    exact ⟨d, heq⟩
  refine ⟨moodle, hmoodle, head_calls walk hmoodle, hpre, fun d => ⟨?_, ?_⟩,
    fun d made hne => gone_of_deletes_supporting hplan hmoodle walk made hne,
    calls_eq_schedule_or_failed hplan walk, hend.outcome_eq walk,
    hend.settled_iff hplan hmoodle walk, ?_, ?_⟩
  · intro hmem
    obtain ⟨_, heq⟩ := deletes _ hmem
    cases heq
  · intro hmem
    obtain ⟨_, heq⟩ := deletes _ hmem
    cases heq
  · rcases hend.status with ⟨settled, ended⟩ | ⟨unsettled, started⟩
    · exact iff_of_true settled ended
    · exact iff_of_false unsettled started.not_ended
  · intro waits
    rcases hend.status with ⟨settled, -⟩ | ⟨-, started⟩
    · rw [settled] at waits
      cases waits
    · exact started

/-- A site with a database settles once neither the workload nor the database is there. -/
theorem finalize_order_of_absent_dependents :
    ∃ plan postgres,
      Plan.compose "a" none ⟨⟨none, some [], none, none⟩, none⟩ .empty = .ok plan ∧
        plan.dependent? .postgres = some postgres ∧
        ∃ trace result, (finalize plan "now" (.ofCurrent none)).Runs trace result ∧
          .delete postgres ∈ calls trace ∧ result.outcome = .ok .settled ∧
          result.draft.collected.FinalizerEnded := by
  obtain ⟨postgres, moodle, hplan⟩ : ∃ postgres moodle,
      Plan.compose "a" none ⟨⟨none, some [], none, none⟩, none⟩ .empty =
        .ok (Plan.ofSpecs "a" none ⟨some moodle, some postgres, none, none⟩ false) :=
    ⟨_, _, rfl⟩
  have run := Dialogue.runs_transcript (steady .none)
    (finalize (Plan.ofSpecs "a" none ⟨some moodle, some postgres, none, none⟩ false) "now"
      (.ofCurrent none)) ()
  obtain ⟨_, _, -, -, -, -, -, -, hsettled, hended, -⟩ := finalize_order hplan run
  have settled := hsettled.mpr ⟨fun e he => failure?_eq_none_of_steady he, by
    intro kind d hd
    cases kind with
    | moodle =>
        cases hd
        exact Or.inl (.head _)
    | postgres =>
        cases hd
        exact Or.inl (.tail _ (.head _))
    | keydb | nfs => cases hd⟩
  exact ⟨_, _, hplan, rfl, _, _, run, .tail _ (.head _), settled, hended.mp settled⟩

end Pass

end SiteOperator
