import SiteOperator.Proofs.Pass.Schedule

/-!
# The pass over a site that should be suspended

Such a pass observes every configured dependent and then asks one after the other to suspend. It
goes on to the next only if the one before came back suspended, so it is a walk that stops at the
first dependent that did not (`runs_suspend`), and how it ends is a function of the answers
(`suspendEnd`).
-/

namespace SiteOperator

@[simp] theorem DependentSpec.kind_suspended (d : DependentSpec) : d.suspended.kind = d.kind := rfl

theorem DependentSpec.at?_suspended (d : DependentSpec) (key : String) :
    d.suspended.spec.at? key =
      if key = "cr_state" then some (.string "suspended") else d.spec.at? key :=
  Entries.at?_put d.spec lifecycleField key _

theorem isSuspended_some_iff {status : DependentStatus} :
    isSuspended (some status) = true ↔ status.state = some suspendedState := by
  simp [isSuspended]

namespace Pass

def NotSuspended (e : AnsweredCall) : Prop :=
  ∃ d status, e = applied d status ∧ status.state ≠ some suspendedState

def suspendSchedule (plan : Plan) : List DependentCall :=
  observations plan ++ applications plan suspendOrder DependentSpec.suspended

def suspendEnd (plan : Plan) (now : String) (observed : Observed) (draft : StatusDraft)
    (trace : List AnsweredCall) : Ending → PassResult
  | .failed error => ⟨.error error, mirror now trace draft⟩
  | .stopped => wait plan now true (observed.learn trace) (mirror now trace draft)
  | .completed => finish plan now true (observed.learn trace) (mirror now trace draft)

variable {plan : Plan} {now : String} {draft : StatusDraft} {trace : List AnsweredCall}
  {result : PassResult} {d : DependentSpec} {status : DependentStatus}

theorem notSuspended_applied_iff :
    NotSuspended (applied d status) ↔ status.state ≠ some suspendedState := by
  constructor
  · rintro ⟨d', status', heq, hstate⟩
    obtain ⟨-, rfl⟩ := applied_inj heq
    exact hstate
  · intro hstate
    exact ⟨d, status, rfl, hstate⟩

theorem not_notSuspended_applied_iff :
    ¬ NotSuspended (applied d status) ↔ status.state = some suspendedState := by
  rw [notSuspended_applied_iff, Decidable.not_not]

theorem runs_suspendEach {deps : List DependentSpec} {observed : Observed}
    (run : (suspendEach plan now deps observed draft).Runs trace result) :
    ∃ ending, Walk NotSuspended (deps.map fun d => .apply d.suspended) trace ending ∧
      result = suspendEnd plan now observed draft trace ending := by
  induction deps generalizing observed draft trace with
  | nil =>
      obtain ⟨rfl, rfl⟩ := Dialogue.runs_done_iff.mp run
      exact ⟨.completed, .nil, by rw [suspendEnd, Observed.learn_nil]; rfl⟩
  | cons d deps ih =>
      obtain ⟨answer, rest, rfl, hnext⟩ := Dialogue.runs_ask_iff.mp run
      cases answer with
      | error error =>
          obtain ⟨rfl, rfl⟩ := Dialogue.runs_done_iff.mp hnext
          exact ⟨.failed error, .fail (e := ⟨.apply d.suspended, .error error⟩) rfl, rfl⟩
      | ok status =>
          have hlearn : observed.set d.kind (some status) =
              observed.learn [applied d.suspended status] :=
            (Observed.learn_applied observed d.suspended status).symm
          dsimp only at hnext
          rw [hlearn] at hnext
          by_cases hstate : isSuspended (some status) = true
          · rw [if_pos hstate] at hnext
            obtain ⟨ending, walk, rfl⟩ := ih hnext
            have go : GoesOn NotSuspended (applied d.suspended status) :=
              ⟨rfl, not_notSuspended_applied_iff.mpr (isSuspended_some_iff.mp hstate)⟩
            refine ⟨ending, .step go walk, ?_⟩
            cases ending with
            | failed error => rfl
            | stopped | completed =>
                rw [suspendEnd, suspendEnd, ← Observed.learn_cons]
                rfl
          · rw [if_neg hstate] at hnext
            obtain ⟨rfl, rfl⟩ := Dialogue.runs_done_iff.mp hnext
            have stop : NotSuspended (applied d.suspended status) :=
              notSuspended_applied_iff.mpr fun h => hstate (isSuspended_some_iff.mpr h)
            exact ⟨.stopped, .stop rfl stop, rfl⟩

/-- A pass over a site that should be suspended is a walk along its schedule, and how it ends is a
function of the answers. -/
theorem runs_suspend (run : (suspend plan now draft).Runs trace result) :
    ∃ ending, Walk NotSuspended (suspendSchedule plan) trace ending ∧
      result = suspendEnd plan now .none draft trace ending := by
  have observes : ∀ d answer, ¬ NotSuspended ⟨.observe d, answer⟩ := by
    rintro d answer ⟨d', status, heq, -⟩
    cases heq
  obtain ⟨seen, observed, rest, rfl, hseen, hrest⟩ := Dialogue.runs_bind_iff.mp run
  rcases runs_observeAll observes hseen with ⟨error, walk, rfl⟩ | ⟨walkSeen, rfl⟩
  · obtain ⟨rfl, rfl⟩ := Dialogue.runs_done_iff.mp hrest
    have hdraft := mirror_observations now draft walk.calls_prefix_schedule
    rw [List.append_nil]
    exact ⟨.failed error, walk.extend nofun, by rw [suspendEnd, hdraft]⟩
  · have hdraft := mirror_observations now draft walkSeen.calls_prefix_schedule
    obtain ⟨ending, walk, rfl⟩ := runs_suspendEach hrest
    refine ⟨ending, walkSeen.append walk, ?_⟩
    cases ending with
    | failed error => rw [suspendEnd, suspendEnd, mirror_append, hdraft]
    | stopped | completed =>
        rw [suspendEnd, suspendEnd, mirror_append, hdraft, Observed.learn_append]

theorem nodup_suspendSchedule (h : plan.WellFormed) : (suspendSchedule plan).Nodup := by
  have hdistinct : suspendOrder.Nodup := by simp [suspendOrder]
  exact nodup_schedule h hdistinct fun _ => rfl

theorem appliedLast_suspendSchedule (h : plan.WellFormed) : AppliedLast (suspendSchedule plan) := by
  have hdistinct : suspendOrder.Nodup := by simp [suspendOrder]
  exact appliedLast_schedule h hdistinct fun _ => rfl

theorem appliedLast_of_suspend {ending : Ending} (h : plan.WellFormed)
    (walk : Walk NotSuspended (suspendSchedule plan) trace ending) : AppliedLast (calls trace) :=
  (appliedLast_suspendSchedule h).of_isPrefix walk.calls_prefix_schedule

/-- A configured dependent is asked to suspend if and only if no call before it failed and every
configured kind before it was asked and came back suspended. -/
theorem suspends_iff {ending : Ending} {kind : DependentKind} (h : plan.WellFormed)
    (walk : Walk NotSuspended (suspendSchedule plan) trace ending)
    (hd : plan.dependent? kind = some d) :
    .apply d.suspended ∈ calls trace ↔
      (∀ e ∈ trace, e.1 ∈ observations plan ++
          applications plan (kindsBefore suspendOrder kind) DependentSpec.suspended →
        failure? e = none) ∧
      ∀ earlier ∈ kindsBefore suspendOrder kind, ∀ b, plan.dependent? earlier = some b →
        ∃ status, applied b.suspended status ∈ trace ∧ status.state = some suspendedState := by
  have hnodup := nodup_suspendSchedule h
  have hlast := appliedLast_of_suspend h walk
  obtain ⟨after, hsplit⟩ := exists_schedule_eq (f := DependentSpec.suspended) hd
    (mem_suspendOrder kind)
  constructor
  · intro made
    have hgo := walk.goesOn_of_mem_calls hnodup hsplit made
    refine ⟨fun e he hbefore => (hgo e he hbefore).1, ?_⟩
    intro earlier hearlier b hb
    have hbefore : .apply b.suspended ∈ observations plan ++
        applications plan (kindsBefore suspendOrder kind) DependentSpec.suspended :=
      apply_mem_schedule_iff.mpr ⟨b, mem_configured.mpr ⟨earlier, hearlier, hb⟩, rfl⟩
    obtain ⟨status, hmem⟩ := exists_applied_of_mem_calls
      (walk.mem_calls_before hnodup hsplit made _ hbefore)
      fun e he hcall => (hgo e he (hcall ▸ hbefore)).1
    exact ⟨status, hmem, not_notSuspended_applied_iff.mp (hgo _ hmem hbefore).2⟩
  · rintro ⟨hnone, hsuspended⟩
    refine walk.mem_calls_of_goesOn hsplit fun e he hbefore => ⟨hnone e he hbefore, ?_⟩
    rintro ⟨asked, status, rfl, hstate⟩
    obtain ⟨b, hmem, rfl⟩ := apply_mem_schedule_iff.mp hbefore
    obtain ⟨earlier, hearlier, hb⟩ := mem_configured.mp hmem
    obtain ⟨other, hother, hstate'⟩ := hsuspended earlier hearlier b hb
    rw [hlast.status_eq he hother] at hstate
    exact hstate hstate'

/-- The order of the calls in a pass over a site that should be suspended. They are made along the
schedule that observes every configured dependent and then asks the kinds to suspend in the suspend
order. A kind is asked exactly if no earlier call failed and every configured kind before it was
asked in this very pass and came back with the state of a suspended one. What is applied is the
dependent of the plan with its names, and with the one field set that asks it to suspend; nothing
is deleted. -/
theorem suspend_order {site : String} {labels : Option (Entries String)}
    {template overrides : SpecBlocks}
    (h : Plan.compose site labels template overrides = .ok plan)
    (run : (suspend plan now draft).Runs trace result) :
    calls trace <+: suspendSchedule plan ∧
      (∀ kind d, plan.dependent? kind = some d →
        (.apply d.suspended ∈ calls trace ↔
          (∀ e ∈ trace, e.1 ∈ observations plan ++
              applications plan (kindsBefore suspendOrder kind) DependentSpec.suspended →
            failure? e = none) ∧
          ∀ earlier ∈ kindsBefore suspendOrder kind, ∀ b, plan.dependent? earlier = some b →
            ∃ status, applied b.suspended status ∈ trace ∧ status.state = some "Suspended")) ∧
      (∀ applied, .apply applied ∈ calls trace → ∃ d, plan.dependent? applied.kind = some d ∧
        applied.name = d.name ∧ applied.namespaceName = d.namespaceName ∧
        d.name = plan.names.baseName ∧ d.namespaceName = plan.names.namespaceName ∧
        ∀ key, applied.spec.at? key =
          if key = "cr_state" then some (.string "suspended") else d.spec.at? key) ∧
      (appliedKinds (calls trace)).Nodup ∧
      ∀ d, .delete d ∉ calls trace := by
  have hplan := Plan.compose_wellFormed h
  obtain ⟨ending, walk, -⟩ := runs_suspend run
  have hpre := walk.calls_prefix_schedule
  refine ⟨hpre, fun kind d hd => suspends_iff hplan walk hd, ?_,
    (appliedLast_of_suspend hplan walk).nodup_appliedKinds,
    fun d hmem => delete_not_mem_schedule (hpre.subset hmem)⟩
  intro asked hmem
  obtain ⟨d, hconfigured, rfl⟩ := apply_mem_schedule_iff.mp (hpre.subset hmem)
  obtain ⟨kind, -, hd⟩ := mem_configured.mp hconfigured
  obtain ⟨hkind, hname, hnamespace⟩ := hplan kind d hd
  have hfiled : plan.dependent? d.suspended.kind = some d := by
    rw [d.kind_suspended, hkind]
    exact hd
  exact ⟨d, hfiled, rfl, rfl, hname, hnamespace, d.at?_suspended⟩

/-- Once the workload comes back suspended, the cache is asked to suspend. -/
theorem suspend_order_of_suspended_workload :
    ∃ plan keydb,
      Plan.compose "a" none ⟨⟨none, none, some [], none⟩, none⟩ .empty = .ok plan ∧
        plan.dependent? .keydb = some keydb ∧
        .apply keydb.suspended ∈ calls ((suspend plan "now" (.ofCurrent none)).transcript
          (steady ⟨some { DependentStatus.empty with state := some suspendedState },
            none, none, none⟩) ()) := by
  obtain ⟨keydb, moodle, hplan⟩ : ∃ keydb moodle,
      Plan.compose "a" none ⟨⟨none, none, some [], none⟩, none⟩ .empty =
        .ok (Plan.ofSpecs "a" none ⟨some moodle, none, some keydb, none⟩ false) :=
    ⟨_, _, rfl⟩
  obtain ⟨-, hasked, -⟩ := suspend_order hplan (Dialogue.runs_transcript
    (steady ⟨some { DependentStatus.empty with state := some suspendedState }, none, none, none⟩)
    (suspend _ "now" (.ofCurrent none)) ())
  refine ⟨_, _, hplan, rfl, (hasked .keydb _ rfl).mpr ⟨?_, ?_⟩⟩
  · intro e he _
    exact failure?_eq_none_of_steady he
  · intro earlier hearlier b hb
    have hmoodle : earlier = .moodle := by
      simpa [kindsBefore, suspendOrder] using hearlier
    subst hmoodle
    cases hb
    exact ⟨_, .tail _ (.tail _ (.head _)), rfl⟩

end Pass

end SiteOperator
