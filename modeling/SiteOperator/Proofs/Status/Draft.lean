import SiteOperator.Proofs.Status.Conditions
import SiteOperator.Proofs.Status.SiteState

/-!
# Readiness and state of a draft

Every step of a draft acts on one part of the collected status. Here is what each of them does to
the site's own ready condition and to its state: publishing a dependent can only take readiness
away, concluding a pass gives it exactly if the state is the one of a ready site, and only
concluding a pass and marking a site as terminated touch the state. What a site says at the start
and at the end of its finalizer does not depend on what it said before.
-/

namespace SiteOperator

namespace SiteStatus

def FinalizerStarted (status : SiteStatus) : Prop :=
  status.state = some "Terminating" ∧ status.conditions.content? "Ready" =
    some ("False", some "Terminating", some "Finalizer started")

def FinalizerEnded (status : SiteStatus) : Prop :=
  status.state = some "Terminated" ∧ status.conditions.content? "Ready" =
    some ("False", some "Terminated", some "Finalizer ended")

def untimed (status : SiteStatus) : SiteStatus :=
  { status with conditions := status.conditions.map Condition.untimed }

theorem FinalizerStarted.not_ended {status : SiteStatus} (started : status.FinalizerStarted) :
    ¬ status.FinalizerEnded := by
  intro ended
  have hstate := started.1.symm.trans ended.1
  exact absurd hstate (by decide)

end SiteStatus

def DependentStatus.withReady (status reason : String) : DependentStatus :=
  { empty with conditions := [⟨Condition.ready, status, some reason, none, none⟩] }

theorem isReady_some_iff {status : DependentStatus} :
    isReady (some status) = true ↔ status.conditions.ReadyHolds := by
  have hcondition : readyCondition? (some status) = status.conditions.ofType? Condition.ready := rfl
  unfold isReady
  rw [hcondition, Conditions.ReadyHolds]
  cases status.conditions.ofType? Condition.ready with
  | none => simp
  | some c => simp

theorem readyReason_eq_successful_iff {status : Option DependentStatus} :
    readyReason status = successfulReason ↔
      ∃ known c, status = some known ∧ known.readyCondition? = some c ∧
        c.reason = some successfulReason := by
  have hpending : pendingReason ≠ successfulReason := by
    simp [pendingReason, successfulReason]
  constructor
  · intro hreason
    cases status with
    | none => exact absurd hreason hpending
    | some known =>
        cases hc : known.readyCondition? with
        | none => simp [readyReason, readyCondition?, hc, hpending] at hreason
        | some c =>
            cases hr : c.reason with
            | none => simp [readyReason, readyCondition?, hc, hr, hpending] at hreason
            | some reason =>
                simp only [readyReason, readyCondition?, Option.bind_some, hc, hr,
                  Option.getD_some] at hreason
                exact ⟨known, c, rfl, hc, by rw [hr, hreason]⟩
  · rintro ⟨known, c, rfl, hc, hr⟩
    simp [readyReason, readyCondition?, hc, hr]

theorem DependentKind.conditionType_ne_ready (kind : DependentKind) :
    kind.conditionType ≠ Condition.ready := by
  cases kind <;> simp [conditionType, Condition.ready]

namespace StatusDraft

variable (draft : StatusDraft) (now : String)

def ReadyHolds : Prop := draft.collected.conditions.ReadyHolds

theorem content?_setReady (status reason message : String) :
    (draft.setReady now status reason message).1.collected.conditions.content? Condition.ready =
      some (status, some reason, some message) :=
  (Conditions.content?_set _ now _ _).trans (if_pos rfl)

/-- A draft says nothing new if it says nothing at all, or if it differs from the stored status in
nothing but its conditions and these say the same. -/
theorem eq_of_hasChanges_eq_false {draft : StatusDraft} (h : draft.hasChanges = false) :
    draft.current = none ∧ draft.collected = .empty ∨
      ∃ current, draft.current = some current ∧
        current = { draft.collected with conditions := current.conditions } ∧
        Conditions.same current.conditions draft.collected.conditions = true := by
  obtain ⟨stored, collected⟩ := draft
  cases stored with
  | none => exact Or.inl ⟨rfl, by simpa [hasChanges] using h⟩
  | some current =>
      obtain ⟨⟨⟨⟨⟨hstate, hurl⟩, hrelease⟩, hstorage⟩, husers⟩, hsame⟩ :
          ((((current.state = collected.state ∧ current.url = collected.url) ∧
            current.release = collected.release) ∧ current.storageGb = collected.storageGb) ∧
            current.registeredUsers = collected.registeredUsers) ∧
            Conditions.same current.conditions collected.conditions = true := by
        simpa [hasChanges] using h
      refine Or.inr ⟨current, rfl, ?_, hsame⟩
      cases current
      simp_all

/-- The last status of a site says that its finalizer has ended, whatever it said before. -/
theorem finalizerEnded_setTerminated : (draft.setTerminated now).1.collected.FinalizerEnded :=
  ⟨rfl, draft.content?_setReady now _ _ _⟩

theorem readyHolds_setReady (status reason message : String) :
    (draft.setReady now status reason message).1.ReadyHolds ↔ status = Condition.holds :=
  Conditions.readyHolds_set_of_eq _ now rfl

/-- After a dependent has been published the site is ready if it was ready before and the dependent
reports nothing else. -/
theorem readyHolds_publish (kind : DependentKind) (status : Option DependentStatus) :
    (draft.publish now kind status).1.ReadyHolds ↔
      draft.ReadyHolds ∧
        ∀ c, readyCondition? status = some c → c.status = Condition.holds := by
  unfold publish
  cases hready : readyCondition? status with
  | none => simp
  | some source =>
      have hmirror : (draft.setCondition now
          { source with type := kind.conditionType }).1.ReadyHolds ↔ draft.ReadyHolds :=
        Conditions.readyHolds_set_of_ne _ now kind.conditionType_ne_ready
      simp only [Option.some.injEq, forall_eq']
      by_cases hholds : source.status = Condition.holds
      · rw [if_pos hholds]
        exact hmirror.trans (and_iff_left hholds).symm
      · rw [if_neg hholds]
        exact (readyHolds_setReady _ now _ _ _).trans
          (iff_of_false Condition.fails_ne_holds fun h => hholds h.2)

theorem readyHolds_setReadyForState (state : String) :
    (draft.setReadyForState now state).1.ReadyHolds ↔
      state = "Ready" ∨ isSettledState state = false ∧ draft.ReadyHolds := by
  have hsettled : isSettledState state = false ↔
      ¬ (state = "Ready" ∨ state = "Terminating" ∨ state = suspendedState) := by
    simp [isSettledState, suspendedState]
  unfold setReadyForState
  by_cases hready : state = "Ready"
  · rw [if_pos hready, readyHolds_setReady]
    exact iff_of_true rfl (Or.inl hready)
  · by_cases hterminating : state = "Terminating"
    · rw [if_neg hready, if_pos hterminating, readyHolds_setReady]
      exact iff_of_false Condition.fails_ne_holds fun h =>
        h.elim hready fun h => hsettled.mp h.1 (Or.inr (Or.inl hterminating))
    · by_cases hsuspended : state = suspendedState
      · rw [if_neg hready, if_neg hterminating, if_pos hsuspended, readyHolds_setReady]
        exact iff_of_false Condition.fails_ne_holds fun h =>
          h.elim hready fun h => hsettled.mp h.1 (Or.inr (Or.inr hsuspended))
      · rw [if_neg hready, if_neg hterminating, if_neg hsuspended]
        simp [hsettled, hready, hterminating, hsuspended]

theorem state_setReadyForState (state : String) :
    (draft.setReadyForState now state).1.collected.state = draft.collected.state := by
  unfold setReadyForState
  split
  · rfl
  · split
    · rfl
    · split
      · rfl
      · rfl

theorem setFromWorkload_keeps (workload : Option DependentStatus) :
    (draft.setFromWorkload workload).1.collected.conditions = draft.collected.conditions ∧
      (draft.setFromWorkload workload).1.collected.state = draft.collected.state := by
  cases workload with
  | none => exact ⟨rfl, rfl⟩
  | some status => exact ⟨rfl, rfl⟩

end StatusDraft

namespace Plan

variable (plan : Plan) (observed : Observed) (deleting suspending : Bool) (now : String)
  (draft : StatusDraft)

theorem state_conclude :
    (plan.conclude observed deleting suspending now draft).1.collected.state =
      some (plan.siteState observed deleting suspending) := by
  rw [conclude, StatusDraft.state_setReadyForState, (StatusDraft.setFromWorkload_keeps _ _).2]
  rfl

/-- Concluding a pass over a site that is being deleted says that its finalizer has started. -/
theorem finalizerStarted_conclude :
    (plan.conclude observed true suspending now draft).1.collected.FinalizerStarted :=
  ⟨plan.state_conclude observed true suspending now draft,
    StatusDraft.content?_setReady _ now _ _ _⟩

def finalizerEnd (status : Option SiteStatus) : StatusDraft :=
  ((plan.conclude .none true false now (.ofCurrent status)).1.setTerminated now).1

theorem conditions_finalizerEnd (status : Option SiteStatus) :
    (plan.finalizerEnd now status).collected.conditions.map Condition.untimed =
      Conditions.overwrite ((status.getD .empty).conditions.map Condition.untimed)
        ⟨Condition.ready, Condition.fails, some "Terminated", some "Finalizer ended", none⟩ := by
  have hplaced : (plan.finalizerEnd now status).collected.conditions =
      ((((status.getD .empty).conditions.set now ⟨Condition.ready, Condition.fails,
        some "Terminating", some "Finalizer started", some now⟩).1).set now ⟨Condition.ready,
          Condition.fails, some "Terminated", some "Finalizer ended", some now⟩).1 := rfl
  rw [hplaced, Conditions.map_untimed_set, Conditions.map_untimed_set]
  exact Conditions.overwrite_overwrite _ rfl

/-- The last status of a site says nothing new only if the stored one is equal to it up to times. -/
theorem untimed_eq_of_finalizerEnd {status : Option SiteStatus}
    (unchanged : (plan.finalizerEnd now status).hasChanges = false) :
    ∃ current, status = some current ∧
      current.untimed = (plan.finalizerEnd now status).collected.untimed := by
  obtain ⟨hstate, hready⟩ := StatusDraft.finalizerEnded_setTerminated
    (plan.conclude .none true false now (.ofCurrent status)).1 now
  rw [← finalizerEnd] at hstate hready
  have hcurrent : (plan.finalizerEnd now status).current = status := rfl
  rcases StatusDraft.eq_of_hasChanges_eq_false unchanged with
    ⟨-, hempty⟩ | ⟨current, hstored, hfields, hsame⟩
  · rw [hempty] at hstate
    cases hstate
  · obtain rfl : status = some current := hcurrent.symm.trans hstored
    have hkept : current.conditions.map Condition.untimed =
        (plan.finalizerEnd now (some current)).collected.conditions.map Condition.untimed := by
      rw [conditions_finalizerEnd]
      exact (Conditions.overwrite_untimed_eq_self
        (c := ⟨_, Condition.fails, some "Terminated", some "Finalizer ended", none⟩)
        (Conditions.content?_of_same hsame hready)).symm
    refine ⟨current, rfl, ?_⟩
    calc current.untimed
        = { (plan.finalizerEnd now (some current)).collected with
            conditions := current.conditions.map Condition.untimed } := congrArg _ hfields
      _ = (plan.finalizerEnd now (some current)).collected.untimed := by
        rw [hkept, SiteStatus.untimed]

/-- Concluding a pass makes a site ready if that is its state, and keeps a site ready only in a
state that has not settled. -/
theorem readyHolds_conclude :
    (plan.conclude observed deleting suspending now draft).1.ReadyHolds ↔
      plan.siteState observed deleting suspending = "Ready" ∨
        isSettledState (plan.siteState observed deleting suspending) = false ∧
          draft.ReadyHolds := by
  rw [conclude, StatusDraft.readyHolds_setReadyForState, StatusDraft.ReadyHolds,
    (StatusDraft.setFromWorkload_keeps _ _).1]
  rfl

end Plan

end SiteOperator
