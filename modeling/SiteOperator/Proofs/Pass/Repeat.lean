import SiteOperator.Proofs.Dialogue.Answers
import SiteOperator.Proofs.Pass.Present
import SiteOperator.Proofs.Pass.Suspend
import SiteOperator.Proofs.Status.Fixpoint

/-!
# A pass that is made twice

In a cluster in which every dependent keeps reporting the same (`Pass.keeping`), a pass that is made
once more makes the same calls. All that it can find to be different is that a dependent is there
which it applied the first time, and such a dependent reports what it reported when it was applied.
So the second pass learns the same, comes to the same end, and does the same to the status of the
site (`Pass.repeats`).
-/

namespace SiteOperator

def DependentCall.settings : (call : DependentCall) → call.Answer → Conditions
  | apply d, .ok status => StatusDraft.publishSettings d.kind (some status)
  | observe _, .ok _ | delete _, .ok _ | observe _, .error _ | apply _, .error _
  | delete _, .error _ => []

namespace Pass

open Dialogue (AnsweredBy)

def maintain (plan : Plan) (suspended : Bool) (now : String) (draft : StatusDraft) :
    PassProgram PassResult :=
  if suspended then suspend plan now draft else present plan now draft

/-- The answers of a cluster in which every dependent keeps reporting the same. A dependent that is
not there yet has an empty status once it is applied, and is there from then on. -/
def keeping : (call : DependentCall) → Observed → call.Answer × Observed
  | .observe d, known => (.ok (known.get d.kind), known)
  | .apply d, known =>
      (.ok ((known.get d.kind).getD .empty),
        known.set d.kind (some ((known.get d.kind).getD .empty)))
  | .delete _, known => (.ok .notFound, known)

def settings (trace : List AnsweredCall) : Conditions :=
  trace.flatMap fun e => e.1.settings e.2

theorem tells_mirror (now : String) (trace : List AnsweredCall) (draft : StatusDraft) :
    draft.Tells (settings trace) (mirror now trace draft) := by
  induction trace generalizing draft with
  | nil => exact .refl draft
  | cons e rest ih =>
      have head : draft.Tells (e.1.settings e.2) (e.1.publish now e.2 draft) := by
        obtain ⟨call, answer⟩ := e
        cases call with
        | observe d | delete d => cases answer <;> exact .refl draft
        | apply d =>
            cases answer with
            | error error => exact .refl draft
            | ok status => exact draft.tells_publish now d.kind (some status)
      exact head.trans (ih _)

section Keeping

variable {known last known' last' : Observed} {made made' : List AnsweredCall} {d : DependentSpec}
  {status : DependentStatus} {kind : DependentKind}

theorem failure?_eq_none_of_keeping (answered : AnsweredBy keeping known made last) :
    ∀ e ∈ made, failure? e = none := by
  induction answered with
  | nil => exact fun _ he => absurd he List.not_mem_nil
  | @cons call known last rest _ ih =>
      refine List.forall_mem_cons.mpr ⟨?_, ih⟩
      cases call <;> rfl

/-- What a kind reports, once it is there, is always the same. -/
theorem getD_get_keeping (call : DependentCall) (known : Observed) (kind : DependentKind) :
    (((keeping call known).2).get kind).getD .empty = (known.get kind).getD .empty := by
  cases call with
  | observe d | delete d => rfl
  | apply d =>
      simp only [keeping, PerKind.get_set]
      split
      · rename_i heq
        rw [heq, Option.getD_some]
      · rfl

theorem getD_get_of_keeping (answered : AnsweredBy keeping known made last)
    (kind : DependentKind) : (last.get kind).getD .empty = (known.get kind).getD .empty := by
  induction answered with
  | nil => rfl
  | cons _ ih => rw [ih, getD_get_keeping]

theorem status_eq_of_keeping (answered : AnsweredBy keeping known made last)
    (hmem : applied d status ∈ made) : status = (known.get d.kind).getD .empty := by
  induction answered with
  | nil => cases hmem
  | @cons call known last rest _ ih =>
      rcases List.mem_cons.mp hmem with heq | hmem
      · cases heq
        rfl
      · rw [ih hmem, getD_get_keeping]

theorem mem_appliedKinds_iff {calls : List DependentCall} :
    kind ∈ appliedKinds calls ↔ ∃ d, .apply d ∈ calls ∧ d.kind = kind := by
  rw [appliedKinds, List.mem_filterMap]
  constructor
  · rintro ⟨call, hmem, hkind⟩
    cases call with
    | apply d => exact ⟨d, hmem, Option.some.inj hkind⟩
    | observe d | delete d => cases hkind
  · rintro ⟨d, hmem, rfl⟩
    exact ⟨.apply d, hmem, rfl⟩

/-- A kind that is not applied stays as it is. -/
theorem get_of_not_applied (answered : AnsweredBy keeping known made last)
    (h : kind ∉ appliedKinds (calls made)) : last.get kind = known.get kind := by
  induction answered with
  | nil => rfl
  | @cons call known last rest _ ih =>
      have hrest : kind ∉ appliedKinds (calls rest) := by
        rw [mem_appliedKinds_iff] at h ⊢
        rintro ⟨d, hmem, hkind⟩
        exact h ⟨d, List.mem_cons_of_mem _ hmem, hkind⟩
      rw [ih hrest]
      cases call with
      | observe d | delete d => rfl
      | apply d =>
          have hne : kind ≠ d.kind := by
            rintro rfl
            exact h (mem_appliedKinds_iff.mpr ⟨d, List.mem_cons_self, rfl⟩)
          simp only [keeping, PerKind.get_set, if_neg hne]

/-- Two clusters in which a kind is alike report the same about it when they are asked the same. -/
theorem lastReport?_congr (answered : AnsweredBy keeping known made last)
    (answered' : AnsweredBy keeping known' made' last') (hcalls : calls made = calls made')
    (h : known.get kind = known'.get kind) : lastReport? kind made = lastReport? kind made' := by
  induction answered generalizing known' made' with
  | nil =>
      obtain rfl : made' = [] := List.map_eq_nil_iff.mp hcalls.symm
      rfl
  | @cons call known last rest _ ih =>
      cases answered' with
      | nil => cases hcalls
      | @cons call' _ _ rest' hrest =>
          obtain ⟨hcall, htail⟩ := List.cons.inj hcalls
          obtain rfl : call = call' := hcall
          have hreport : call.report? kind (keeping call known).1 =
              call.report? kind (keeping call known').1 := by
            cases call with
            | delete d => rfl
            | observe d | apply d =>
                simp only [DependentCall.report?, keeping]
                split
                · rename_i heq
                  rw [heq, h]
                · rfl
          have hstate : (keeping call known).2.get kind = (keeping call known').2.get kind := by
            cases call with
            | observe d | delete d => exact h
            | apply d =>
                simp only [keeping, PerKind.get_set]
                split
                · rename_i heq
                  rw [← heq, h]
                · exact h
          rw [lastReport?, lastReport?, ih hrest htail hstate, hreport]

theorem settings_congr (answered : AnsweredBy keeping known made last)
    (answered' : AnsweredBy keeping known' made' last') (hcalls : calls made = calls made')
    (h : ∀ kind, (known.get kind).getD .empty = (known'.get kind).getD .empty) :
    settings made = settings made' := by
  induction answered generalizing known' made' with
  | nil =>
      obtain rfl : made' = [] := List.map_eq_nil_iff.mp hcalls.symm
      rfl
  | @cons call known last rest _ ih =>
      cases answered' with
      | nil => cases hcalls
      | @cons call' _ _ rest' hrest =>
          obtain ⟨hcall, htail⟩ := List.cons.inj hcalls
          obtain rfl : call = call' := hcall
          have hhead : call.settings (keeping call known).1 =
              call.settings (keeping call known').1 := by
            cases call with
            | observe d | delete d => rfl
            | apply d => simp only [DependentCall.settings, keeping, h]
          have htail := ih hrest htail fun kind => by
            rw [getD_get_keeping, getD_get_keeping, h]
          rw [settings, settings, List.flatMap_cons, List.flatMap_cons, hhead]
          exact congrArg _ htail

/-- What has been reported, or was known before, is what the cluster has at the end. -/
theorem lastReport?_or_eq (answered : AnsweredBy keeping known made last) :
    (lastReport? kind made).or (known.get kind) = last.get kind := by
  induction answered with
  | nil => exact Option.none_or
  | @cons call known last rest _ ih =>
      have hreport : (call.report? kind (keeping call known).1).or (known.get kind) =
          (keeping call known).2.get kind := by
        cases call with
        | delete d => exact Option.none_or
        | observe d =>
            simp only [DependentCall.report?, keeping]
            split
            · rename_i heq
              rw [heq, Option.or_self]
            · exact Option.none_or
        | apply d =>
            simp only [DependentCall.report?, keeping, PerKind.get_set]
            by_cases heq : d.kind = kind
            · rw [if_pos heq, if_pos heq.symm, Option.some_or]
            · rw [if_neg heq, if_neg (Ne.symm heq), Option.none_or]
      rw [lastReport?, Option.or_assoc, hreport, ih]

/-- A kind that has been applied reports what it reports once it is there. -/
theorem lastReport?_of_applied (answered : AnsweredBy keeping known made last)
    (h : kind ∈ appliedKinds (calls made)) :
    lastReport? kind made = some ((known.get kind).getD .empty) := by
  induction answered with
  | nil => cases h
  | @cons call known last rest answered ih =>
      rw [lastReport?]
      by_cases hrest : kind ∈ appliedKinds (calls rest)
      · rw [ih hrest, getD_get_keeping, Option.some_or]
      · have hcall : ∃ d, call = .apply d ∧ d.kind = kind := by
          obtain ⟨d, hmem, hkind⟩ := mem_appliedKinds_iff.mp h
          rcases List.mem_cons.mp hmem with heq | hmem
          · exact ⟨d, heq.symm, hkind⟩
          · exact absurd (mem_appliedKinds_iff.mpr ⟨d, hmem, hkind⟩) hrest
        obtain ⟨d, rfl, rfl⟩ := hcall
        have hlast := (lastReport?_or_eq answered).trans (get_of_not_applied answered hrest)
        rw [keeping, PerKind.get_set, if_pos rfl] at hlast
        have hreport : (DependentCall.apply d).report? d.kind (keeping (.apply d) known).1 =
            some ((known.get d.kind).getD .empty) := if_pos rfl
        rw [hreport]
        exact hlast

/-- A cluster that has been through a trace is found as it was by the same calls. -/
theorem learn_congr (answered : AnsweredBy keeping known made last)
    (answered' : AnsweredBy keeping last made' last') (hcalls : calls made = calls made') :
    Observed.none.learn made = Observed.none.learn made' := by
  refine PerKind.eq_of_get_eq fun kind => ?_
  rw [Observed.get_learn_none, Observed.get_learn_none]
  by_cases happlied : kind ∈ appliedKinds (calls made)
  · rw [lastReport?_of_applied answered happlied,
      lastReport?_of_applied answered' (hcalls ▸ happlied), getD_get_of_keeping answered]
  · exact lastReport?_congr answered answered' hcalls (get_of_not_applied answered happlied).symm

end Keeping

/-- Two walks along one schedule that do not fail and stop at the same answers make the same calls
and end alike. -/
theorem Walk.eq_of_agree {stops : AnsweredCall → Prop} {schedule : List DependentCall}
    {trace trace' : List AnsweredCall} {ending ending' : Ending}
    (walk : Walk stops schedule trace ending) (walk' : Walk stops schedule trace' ending')
    (hnone : ∀ e ∈ trace, failure? e = none) (hnone' : ∀ e ∈ trace', failure? e = none)
    (agree : ∀ e ∈ trace, ∀ e' ∈ trace', e.1 = e'.1 → (stops e ↔ stops e')) :
    calls trace = calls trace' ∧ ending = ending' := by
  induction walk generalizing trace' with
  | nil =>
      cases walk'
      exact ⟨rfl, rfl⟩
  | fail h =>
      rw [hnone _ List.mem_cons_self] at h
      cases h
  | @stop e rest _ hstop =>
      generalize hschedule : e.1 :: rest = schedule at walk'
      cases walk' with
      | nil => cases hschedule
      | fail h =>
          rw [hnone' _ List.mem_cons_self] at h
          cases h
      | stop => exact ⟨by rw [calls_cons, calls_cons, (List.cons.inj hschedule).1], rfl⟩
      | step h =>
          have hstops := (agree _ List.mem_cons_self _ List.mem_cons_self
            (List.cons.inj hschedule).1).mp hstop
          exact absurd hstops h.2
  | @step e rest trace ending h walk ih =>
      generalize hschedule : e.1 :: rest = schedule at walk'
      cases walk' with
      | nil => cases hschedule
      | fail h =>
          rw [hnone' _ List.mem_cons_self] at h
          cases h
      | stop _ hstop =>
          have hstops := (agree _ List.mem_cons_self _ List.mem_cons_self
            (List.cons.inj hschedule).1).mpr hstop
          exact absurd hstops h.2
      | @step e' _ trace' _ _ walk' =>
          obtain ⟨hcall, rfl⟩ := List.cons.inj hschedule
          obtain ⟨hcalls, hending⟩ := ih walk' (List.forall_mem_cons.mp hnone).2
            (List.forall_mem_cons.mp hnone').2
            fun e he e' he' => agree e (List.mem_cons_of_mem _ he) e' (List.mem_cons_of_mem _ he')
          exact ⟨by rw [calls_cons, calls_cons, hcall, hcalls], hending⟩

section Repeats

variable {plan : Plan} {now later : String} {draft draft' : StatusDraft}
  {known last last' : Observed} {made made' : List AnsweredCall} {ended ended' : PassResult}

theorem not_failed_of_keeping {stops : AnsweredCall → Prop} {schedule : List DependentCall}
    {error : Raised} (answered : AnsweredBy keeping known made last) :
    ¬ Walk stops schedule made (.failed error) := by
  intro walk
  obtain ⟨before, final, rfl, hfinal, -⟩ := walk.failed
  rw [failure?_eq_none_of_keeping answered final (by simp)] at hfinal
  cases hfinal

/-- The test for going on depends on what the supporting dependents report. -/
theorem supportingReady_of_keeping (answered : AnsweredBy keeping known made last)
    (hcalls : calls made = supportingSchedule plan) :
    supportingReady plan (Observed.none.learn made) =
      (configured plan DependentKind.supporting).all fun d =>
        isReady (some ((known.get d.kind).getD .empty)) := by
  rw [supportingReady, Bool.eq_iff_iff, List.all_eq_true, List.all_eq_true]
  refine forall₂_congr fun d hd => ?_
  have happlied : d.kind ∈ appliedKinds (calls made) := mem_appliedKinds_iff.mpr
    ⟨d, hcalls ▸ apply_mem_schedule_iff.mpr ⟨d, hd, rfl⟩, rfl⟩
  rw [Observed.get_learn_none, lastReport?_of_applied answered happlied]

/-- A pass over a site that should run, in a cluster that answers every call, is through or waits.
-/
theorem ended_of_present (run : (present plan now draft).Runs made ended)
    (answered : AnsweredBy keeping known made last) :
    if (configured plan DependentKind.supporting).all
        (fun d => isReady (some ((known.get d.kind).getD .empty))) then
      calls made = presentSchedule plan ∧
        ended = finish plan now false (Observed.none.learn made) (mirror now made draft)
    else
      calls made = supportingSchedule plan ∧
        ended = wait plan now false (Observed.none.learn made) (mirror now made draft) := by
  rcases runs_present_cases run with
    ⟨error, walk, rfl⟩ | ⟨first, rest, rfl, walk, ⟨hready, hrest⟩ | ⟨hready, rfl, rfl⟩⟩
  · exact (not_failed_of_keeping answered walk).elim
  · obtain ⟨middle, hfirst, hanswered⟩ := answered.of_append
    rw [supportingReady_of_keeping hfirst walk.completed.1] at hready
    rw [if_pos hready]
    rcases runs_presentWorkload hrest with ⟨error, walkLast, rfl⟩ | ⟨walkLast, rfl⟩
    · exact (not_failed_of_keeping hanswered walkLast).elim
    · rw [calls_append, walk.completed.1, walkLast.completed.1, presentSchedule_eq,
        mirror_append, Observed.learn_append]
      exact ⟨rfl, rfl⟩
  · obtain ⟨middle, hfirst, -⟩ := answered.of_append
    rw [supportingReady_of_keeping hfirst walk.completed.1] at hready
    rw [if_neg (by rw [hready]; exact Bool.false_ne_true), List.append_nil]
    exact ⟨walk.completed.1, rfl⟩

/-- What two passes come to that have made the same calls and have learnt the same. -/
structure Alike (draft draft' : StatusDraft) (made made' : List AnsweredCall)
    (ended ended' : PassResult) : Prop where
  calls : calls made = calls made'
  outcome : ended.outcome = ended'.outcome
  drafts : draft.SameDone draft' ended.draft ended'.draft

theorem alike_of_learn_eq (suspending : Bool) (hcalls : calls made = calls made')
    (hlearn : Observed.none.learn made = Observed.none.learn made')
    (hsettings : settings made = settings made') (houtcome : ended.outcome = ended'.outcome)
    (hended : ended.draft = (plan.conclude (Observed.none.learn made) false suspending now
      (mirror now made draft)).1)
    (hended' : ended'.draft = (plan.conclude (Observed.none.learn made') false suspending later
      (mirror later made' draft')).1) : Alike draft draft' made made' ended ended' where
  calls := hcalls
  outcome := houtcome
  drafts := by
    have told := tells_mirror now made draft
    have told' := tells_mirror later made' draft'
    refine ⟨?_, ?_, _, _, _, hended ▸ plan.updatedBy_conclude _ false suspending now told, ?_⟩
    · rw [hended, Plan.current_conclude, told.rest]
    · rw [hended', Plan.current_conclude, told'.rest]
    · rw [hlearn, hsettings]
      exact hended' ▸ plan.updatedBy_conclude _ false suspending later told'

theorem present_repeats (run : (present plan now draft).Runs made ended)
    (run' : (present plan later draft').Runs made' ended')
    (answered : AnsweredBy keeping known made last)
    (answered' : AnsweredBy keeping last made' last') :
    Alike draft draft' made made' ended ended' := by
  have hreports (kind : DependentKind) :
      (known.get kind).getD .empty = (last.get kind).getD .empty :=
    (getD_get_of_keeping answered kind).symm
  have hend := ended_of_present run answered
  have hend' := ended_of_present run' answered'
  simp only [← hreports] at hend'
  split at hend
  · rename_i hready
    rw [if_pos hready] at hend'
    obtain ⟨hcalls, rfl⟩ := hend
    obtain ⟨hcalls', rfl⟩ := hend'
    have heq := hcalls.trans hcalls'.symm
    have hlearn := learn_congr answered answered' heq
    refine alike_of_learn_eq false heq hlearn
      (settings_congr answered answered' heq hreports) ?_ rfl rfl
    simp only [finish, hlearn, Plan.conclude]
  · rename_i hwaits
    rw [if_neg hwaits] at hend'
    obtain ⟨hcalls, rfl⟩ := hend
    obtain ⟨hcalls', rfl⟩ := hend'
    have heq := hcalls.trans hcalls'.symm
    exact alike_of_learn_eq false heq (learn_congr answered answered' heq)
      (settings_congr answered answered' heq hreports) rfl rfl rfl

theorem suspend_repeats (run : (suspend plan now draft).Runs made ended)
    (run' : (suspend plan later draft').Runs made' ended')
    (answered : AnsweredBy keeping known made last)
    (answered' : AnsweredBy keeping last made' last') :
    Alike draft draft' made made' ended ended' := by
  have hreports (kind : DependentKind) :
      (known.get kind).getD .empty = (last.get kind).getD .empty :=
    (getD_get_of_keeping answered kind).symm
  have hnone := failure?_eq_none_of_keeping answered
  have hnone' := failure?_eq_none_of_keeping answered'
  obtain ⟨ending, walk, rfl⟩ := runs_suspend run
  obtain ⟨ending', walk', rfl⟩ := runs_suspend run'
  have agree : ∀ e ∈ made, ∀ e' ∈ made', e.1 = e'.1 → (NotSuspended e ↔ NotSuspended e') := by
    have transfer {known known' last last' : Observed} {made made' : List AnsweredCall}
        (answered : AnsweredBy keeping known made last)
        (answered' : AnsweredBy keeping known' made' last')
        (hreports : ∀ kind, (known.get kind).getD .empty = (known'.get kind).getD .empty)
        (e : AnsweredCall) (he : e ∈ made) (e' : AnsweredCall) (he' : e' ∈ made')
        (hcall : e.1 = e'.1) (stops : NotSuspended e) : NotSuspended e' := by
      obtain ⟨d, status, rfl, hstate⟩ := stops
      obtain ⟨status', rfl⟩ := exists_eq_applied hcall.symm
        (failure?_eq_none_of_keeping answered' e' he')
      rw [status_eq_of_keeping answered he, hreports,
        ← status_eq_of_keeping answered' he'] at hstate
      exact ⟨d, status', rfl, hstate⟩
    intro e he e' he' hcall
    exact ⟨transfer answered answered' hreports e he e' he' hcall,
      transfer answered' answered (fun kind => (hreports kind).symm) e' he' e he hcall.symm⟩
  obtain ⟨hcalls, rfl⟩ := walk.eq_of_agree walk' hnone hnone' agree
  have hlearn := learn_congr answered answered' hcalls
  have hsettings := settings_congr answered answered' hcalls hreports
  cases ending with
  | failed error => exact (not_failed_of_keeping answered walk).elim
  | stopped => exact alike_of_learn_eq true hcalls hlearn hsettings rfl rfl rfl
  | completed =>
      refine alike_of_learn_eq true hcalls hlearn hsettings ?_ rfl rfl
      simp only [suspendEnd, finish, hlearn, Plan.conclude]

/-- A pass that is made once more in a cluster in which every dependent keeps reporting the same
makes the same calls, comes to the same end, and does the same to the status of the site. -/
theorem repeats (suspended : Bool)
    (run : (maintain plan suspended now draft).Runs made ended)
    (run' : (maintain plan suspended later draft').Runs made' ended')
    (answered : AnsweredBy keeping known made last)
    (answered' : AnsweredBy keeping last made' last') :
    Alike draft draft' made made' ended ended' := by
  cases suspended with
  | true => exact suspend_repeats run run' answered answered'
  | false => exact present_repeats run run' answered answered'

end Repeats

end Pass

end SiteOperator
