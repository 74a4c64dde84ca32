import SiteOperator.Proofs.Pass.Finalize
import SiteOperator.Proofs.Pass.Readiness
import SiteOperator.Proofs.Pass.Suspend
import SiteOperator.Proofs.Status.Transitions

/-!
# Times after a pass

The time of a condition should say since when the condition is what it is. A pass sets the condition
of a kind at most once, so these times are kept (`setOnce_mirror`). The site's own ready condition
may be set more than once: a dependent that is not ready sets it, and so does the state that the
pass ends with. If the two say different things, the condition gets a new time even if it already
was what the pass ends with. `keepsTimes_iff` says exactly when this happens.
-/

namespace SiteOperator

namespace Pass

open Conditions (renewed KeepsTime KeepsTimes SetOnce)

inductive Course where
  | present
  | suspend
  | finalize

def Course.program : Course → Plan → String → StatusDraft → PassProgram PassResult
  | present => Pass.present
  | suspend => Pass.suspend
  | finalize => Pass.finalize

/-- What the site's own ready condition says once there is nothing left to wait for. -/
def Course.readyContent : Course → String × Option String × Option String
  | present => ("True", some "Successful", some "LMSMoodle is ready")
  | suspend => ("False", some "Suspended", some "LMSMoodle is suspended")
  | finalize => ("False", some "Terminated", some "Finalizer ended")

/-- The pass has set the site's own ready condition to something else before it set it to what the
site ended with. -/
def Course.SetsReadyTwice (course : Course) (trace : List AnsweredCall) (result : PassResult) :
    Prop :=
  match course with
  | present => result.draft.collected.state = some "Ready" ∧ ¬ NoneUnready trace
  | suspend => result.draft.collected.state = some "Suspended" ∧ ¬ NoneUnready trace
  | finalize => result.outcome = .ok .settled

variable {plan : Plan} {now : String} {start draft : StatusDraft} {trace : List AnsweredCall}
  {result : PassResult} {progress : Progress} {type : String}

/-- An answer to applying a dependent publishes it, and no other answer touches the draft. -/
theorem publish_cases (now : String) (e : AnsweredCall) (draft : StatusDraft) :
    (∃ d status, e = applied d status ∧
        e.1.publish now e.2 draft = (draft.publish now d.kind (some status)).1) ∨
      (∀ d status, e ≠ applied d status) ∧ e.1.publish now e.2 draft = draft := by
  by_cases happlied : ∃ d status, e = applied d status
  · obtain ⟨d, status, rfl⟩ := happlied
    exact Or.inl ⟨d, status, rfl, rfl⟩
  · have hne : ∀ d status, e ≠ applied d status := fun d status h => happlied ⟨d, status, h⟩
    exact Or.inr ⟨hne, publish_eq_self hne now draft⟩

theorem ofType?_mirror_of_ne (hready : type ≠ Condition.ready)
    (hkind : ∀ d status, applied d status ∈ trace → d.kind.conditionType ≠ type) :
    (mirror now trace draft).ofType? type = draft.ofType? type := by
  induction trace generalizing draft with
  | nil => rfl
  | cons e rest ih =>
      have hrest := fun d status hmem => hkind d status (List.mem_cons_of_mem e hmem)
      rw [mirror, ih hrest]
      rcases publish_cases now e draft with ⟨d, status, rfl, hpublish⟩ | ⟨-, hpublish⟩
      · rw [hpublish, draft.ofType?_publish_of_ne now d.kind _ hready
          (hkind d status List.mem_cons_self)]
      · rw [hpublish]

/-- The condition of a kind is set at most once, because the kind is applied at most once. -/
theorem setOnce_mirror (hready : type ≠ Condition.ready) (last : AppliedLast (calls trace)) :
    SetOnce (draft.ofType? type) ((mirror now trace draft).ofType? type) := by
  induction trace generalizing draft with
  | nil => exact Or.inl rfl
  | cons e rest ih =>
      obtain ⟨hhead, hrest⟩ := List.pairwise_cons.mp last
      rw [mirror]
      rcases publish_cases now e draft with ⟨d, status, rfl, hpublish⟩ | ⟨-, hpublish⟩
      · rw [hpublish]
        by_cases htype : d.kind.conditionType = type
        · have hlater : ∀ d' status', applied d' status' ∈ rest →
              d'.kind.conditionType ≠ type := by
            intro d' status' hmem heq
            exact hhead _ (applied_mem_calls hmem) d rfl
              (DependentKind.conditionType_injective (heq.trans htype.symm))
          rw [ofType?_mirror_of_ne hready hlater, ← htype]
          exact draft.setOnce_publish now d.kind
        · have hkept := draft.ofType?_publish_of_ne now d.kind (some status) hready htype
          rw [← hkept]
          exact ih hrest
      · rw [hpublish]
        exact ih hrest

theorem ofType?_ready_mirror_of_noneUnready (h : NoneUnready trace) :
    (mirror now trace draft).ofType? Condition.ready = draft.ofType? Condition.ready := by
  induction trace generalizing draft with
  | nil => rfl
  | cons e rest ih =>
      obtain ⟨hhead, hrest⟩ := noneUnready_cons_iff.mp h
      rw [mirror, ih hrest]
      rcases publish_cases now e draft with ⟨d, status, rfl, hpublish⟩ | ⟨-, hpublish⟩
      · rw [hpublish]
        exact draft.ofType?_publish_ready_of_holds now d.kind (some status) (hhead d status rfl)
      · rw [hpublish]

/-- However many dependents came back unready, they set the site's own ready condition to one and
the same. -/
theorem ofType?_ready_mirror_of_unready (h : ¬ NoneUnready trace) :
    (mirror now trace draft).ofType? Condition.ready =
      some (renewed (draft.ofType? Condition.ready) (StatusDraft.unready now)) := by
  induction trace generalizing draft with
  | nil => exact absurd (fun _ _ hmem => absurd hmem List.not_mem_nil) h
  | cons e rest ih =>
      rw [mirror]
      rcases publish_cases now e draft with ⟨d, status, rfl, hpublish⟩ | ⟨hne, hpublish⟩
      · rw [hpublish]
        by_cases hholds : ∀ c, status.readyCondition? = some c → c.status = Condition.holds
        · have hrest : ¬ NoneUnready rest := by
            intro hrest
            refine h (noneUnready_cons_iff.mpr ⟨?_, hrest⟩)
            intro d' status' heq
            obtain ⟨-, rfl⟩ := applied_inj heq
            exact hholds
          rw [ih hrest, draft.ofType?_publish_ready_of_holds now d.kind (some status) hholds]
        · obtain ⟨source, hsource, hstatus⟩ : ∃ c, readyCondition? (some status) = some c ∧
              c.status ≠ Condition.holds := by
            simpa [readyCondition?] using hholds
          have hset := draft.ofType?_publish_ready_of_fails now d.kind hsource hstatus
          by_cases hrest : NoneUnready rest
          · rw [ofType?_ready_mirror_of_noneUnready hrest, hset]
          · rw [ih hrest, hset, Conditions.renewed_renewed]
      · have hrest : ¬ NoneUnready rest := by
          intro hrest
          exact h (noneUnready_cons_iff.mpr ⟨fun d status heq => absurd heq (hne d status), hrest⟩)
        rw [hpublish, ih hrest]

/-- The ready condition is set twice if a dependent came back unready and the state at the end sets
this condition too; otherwise it is set once or not at all. -/
theorem keepsTimes_conclude_iff {observed : Observed} {suspending : Bool}
    (last : AppliedLast (calls trace)) :
    KeepsTimes start.collected.conditions
        (plan.conclude observed false suspending now
          (mirror now trace start)).1.collected.conditions ↔
      ∀ set,
        (StatusDraft.readySettings (plan.siteState observed false suspending)).head? = some set →
        ¬ NoneUnready trace → ∀ c, start.ofType? Condition.ready = some c →
          c.content = set.content → c.lastTransitionTime = some now := by
  have hconclude := plan.ofType?_conclude observed false suspending now (mirror now trace start)
  have once : ∀ type, type ≠ Condition.ready → SetOnce (start.ofType? type)
      ((plan.conclude observed false suspending now (mirror now trace start)).1.ofType? type) := by
    intro type hready
    rw [hconclude, StatusDraft.ofType?_setReadyForState_of_ne _ now hready]
    exact setOnce_mirror hready last
  rw [Conditions.keepsTimes_iff_keepsTime once]
  change KeepsTime (start.ofType? Condition.ready) (StatusDraft.ofType? _ Condition.ready) ↔ _
  rw [hconclude, StatusDraft.ofType?_setReadyForState]
  cases hset : (StatusDraft.readySettings (plan.siteState observed false suspending)).head? with
  | none =>
      refine iff_of_true (SetOnce.keepsTime ?_) nofun
      by_cases hnone : NoneUnready trace
      · exact Or.inl (ofType?_ready_mirror_of_noneUnready hnone)
      · exact Or.inr ⟨_, ofType?_ready_mirror_of_unready hnone⟩
  | some set =>
      obtain ⟨htype, htime, hcontent⟩ :=
        StatusDraft.of_mem_readySettings now (List.mem_of_mem_head? hset)
      have htimed : (set.timed now).lastTransitionTime = some now := by
        simp [Condition.timed, htime]
      simp only [Option.some.injEq, forall_eq', if_pos htype]
      by_cases hnone : NoneUnready trace
      · rw [ofType?_ready_mirror_of_noneUnready hnone]
        exact iff_of_true (SetOnce.keepsTime (Or.inr ⟨_, rfl⟩)) fun h => absurd hnone h
      · rw [ofType?_ready_mirror_of_unready hnone,
          Conditions.keepsTime_renewed_renewed_iff (y := set.timed now) hcontent.symm, htimed,
          set.content_timed]
        exact ⟨fun h _ => h, fun h => h hnone⟩

/-- A pass that ends in a settled state sets the ready condition twice if a dependent came back
unready, and once otherwise; in any other state it sets it at most once. -/
theorem keepsTimes_concluded_iff {observed : Observed} {suspending : Bool} {set : Condition}
    {state : String} (last : AppliedLast (calls trace))
    (hsettled : isSettledState (plan.siteState observed false suspending) = true ↔
      plan.siteState observed false suspending = state)
    (hset : StatusDraft.readySettings state = [set])
    (hdraft : draft = (plan.conclude observed false suspending now (mirror now trace start)).1) :
    KeepsTimes start.collected.conditions draft.collected.conditions ↔
      (draft.collected.state = some state ∧ ¬ NoneUnready trace →
        ∀ c, start.ofType? Condition.ready = some c → c.content = set.content →
          c.lastTransitionTime = some now) := by
  rw [hdraft, keepsTimes_conclude_iff last, Plan.state_conclude, Option.some_inj, and_imp]
  by_cases hstate : plan.siteState observed false suspending = state
  · rw [hstate, hset]
    simp
  · have hunsettled := Bool.eq_false_iff.mpr fun h => hstate (hsettled.mp h)
    rw [StatusDraft.readySettings_eq_nil hunsettled]
    exact iff_of_true nofun fun h => absurd h hstate

/-- Starting the finalizer sets the ready condition once. -/
theorem ofType?_started (type : String) :
    (plan.conclude .none true false now start).1.ofType? type =
      if Condition.ready = type then
        some (renewed (start.ofType? type) ⟨Condition.ready, Condition.fails, some "Terminating",
          some "Finalizer started", some now⟩)
      else start.ofType? type :=
  (plan.ofType?_conclude .none true false now start type).trans
    (start.ofType?_setReadyForState now "Terminating")

/-- A pass over a site that is being deleted sets the ready condition when it starts the finalizer,
and once more if it ends it. -/
theorem keepsTimes_finalize_iff {ending : Ending}
    (hend : FinalizeEnd plan now start trace ending result) :
    KeepsTimes start.collected.conditions result.draft.collected.conditions ↔
      (result.outcome = .ok .settled →
        ∀ c, start.ofType? Condition.ready = some c →
          c.content = ("False", some "Terminated", some "Finalizer ended") →
          c.lastTransitionTime = some now) := by
  have hstarted : ∀ type, SetOnce (start.ofType? type)
      ((plan.conclude .none true false now start).1.ofType? type) := by
    intro type
    rw [ofType?_started]
    split
    · exact Or.inr ⟨_, rfl⟩
    · exact Or.inl rfl
  rcases hend.draft_eq with ⟨settled, hdraft⟩ | ⟨unsettled, hdraft⟩
  · have hterminated (type : String) : result.draft.ofType? type = _ :=
      hdraft ▸ (plan.conclude .none true false now start).1.ofType?_setTerminated now
    have once : ∀ type, type ≠ Condition.ready →
        SetOnce (start.ofType? type) (result.draft.ofType? type) := by
      intro type hready
      rw [hterminated, if_neg hready.symm]
      exact hstarted type
    rw [Conditions.keepsTimes_iff_keepsTime once]
    change KeepsTime (start.ofType? Condition.ready) (result.draft.ofType? Condition.ready) ↔ _
    rw [hterminated, if_pos rfl, ofType?_started, if_pos rfl,
      Conditions.keepsTime_renewed_renewed_iff (by simp [Condition.content])]
    exact ⟨fun h _ => h, fun h => h settled⟩
  · rw [hdraft]
    exact iff_of_true (fun type => (hstarted type).keepsTime) fun h => absurd h unsettled

/-- A pass that succeeds keeps the time of every condition that says the same before and after it,
unless the pass has set the site's own ready condition to something else in between: then the
condition has the time of the pass. -/
theorem keepsTimes_iff {site : String} {labels : Option (Entries String)}
    {template overrides : SpecBlocks} {course : Course}
    (h : Plan.compose site labels template overrides = .ok plan)
    (run : (course.program plan now start).Runs trace result)
    (ok : result.outcome = .ok progress) :
    KeepsTimes start.collected.conditions result.draft.collected.conditions ↔
      (course.SetsReadyTwice trace result →
        ∀ c, start.collected.conditions.ofType? "Ready" = some c →
          c.content = course.readyContent → c.lastTransitionTime = some now) := by
  have hplan := Plan.compose_wellFormed h
  cases course with
  | present =>
      have hrun := runs_present hplan run
      exact keepsTimes_concluded_iff (appliedLast_of_present hplan hrun)
        Plan.isSettledState_siteState_running rfl (hrun.conclude ok).1
  | suspend =>
      obtain ⟨ending, walk, hresult⟩ := runs_suspend run
      have hdraft : result.draft = (plan.conclude (Observed.none.learn trace) false true now
          (mirror now trace start)).1 := by
        cases ending with
        | failed error =>
            rw [hresult] at ok
            cases ok
        | stopped | completed => rw [hresult]; rfl
      exact keepsTimes_concluded_iff (appliedLast_of_suspend hplan walk)
        Plan.isSettledState_siteState_suspending rfl hdraft
  | finalize =>
      obtain ⟨moodle, hmoodle⟩ := Plan.compose_workload h
      obtain ⟨ending, -, hend⟩ := runs_finalize hplan hmoodle run
      exact keepsTimes_finalize_iff hend

/-- A site that was ready and whose workload is still ready keeps its times. -/
theorem keepsTimes_of_ready_workload :
    ∃ plan before, Plan.compose "a" none .empty .empty = .ok plan ∧
      ∃ trace result, (present plan "now" (.ofCurrent (some before))).Runs trace result ∧
        result.draft.collected.state = some "Ready" ∧
        KeepsTimes before.conditions result.draft.collected.conditions := by
  obtain ⟨moodle, hplan⟩ := Plan.compose_empty "a" none
  have run := Dialogue.runs_transcript
    (steady ⟨some (.withReady Condition.holds successfulReason), none, none, none⟩)
    (Course.present.program (.ofSpecs "a" none ⟨some moodle, none, none, none⟩ false) "now"
      (.ofCurrent (some { SiteStatus.empty with
        conditions :=
          [⟨"Ready", "True", some "Successful", some "LMSMoodle is ready", some "then"⟩],
        state := some "Ready" }))) ()
  refine ⟨_, _, hplan, _, _, run, rfl, (keepsTimes_iff hplan run rfl).mpr fun ⟨_, unready⟩ => ?_⟩
  refine absurd ?_ unready
  rintro d status (_ | ⟨_, _ | ⟨_, hmem⟩⟩) c hc
  · cases hc
    rfl
  · cases hmem

/-- A suspended site whose workload is suspended too, and therefore not ready: the workload takes
the ready condition away and the state of the site gives it back, with a new time that is written
along with whatever else is new. -/
theorem not_keepsTimes_of_suspended_site :
    ∃ plan before, Plan.compose "a" none .empty .empty = .ok plan ∧
      before.conditions.types.Nodup ∧ (∀ c ∈ before.conditions, c.lastTransitionTime ≠ none) ∧
      ∃ trace result, (suspend plan "now" (.ofCurrent (some before))).Runs trace result ∧
        result.outcome = .ok .settled ∧ result.draft.hasChanges = true ∧
        ¬ KeepsTimes before.conditions result.draft.collected.conditions := by
  obtain ⟨moodle, hplan⟩ := Plan.compose_empty "a" none
  have run := Dialogue.runs_transcript
    (steady ⟨some { DependentStatus.withReady "False" "Suspended" with
      state := some "Suspended", url := some "a.example" }, none, none, none⟩)
    (suspend (.ofSpecs "a" none ⟨some moodle, none, none, none⟩ false) "now"
      (.ofCurrent (some { SiteStatus.empty with
        conditions := [⟨"MoodleReady", "False", some "Suspended", none, some "then"⟩,
          ⟨"Ready", "False", some "Suspended", some "LMSMoodle is suspended", some "then"⟩],
        state := some "Suspended" }))) ()
  refine ⟨_, _, hplan, by decide, by decide, _, _, run, rfl, rfl, ?_⟩
  intro keeps
  have htime : some "now" = some "then" := keeps "Ready" _ _ rfl rfl rfl
  exact absurd htime (by decide)

end Pass

end SiteOperator
