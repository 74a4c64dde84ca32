import SiteOperator.Proofs.Pass.Walk
import SiteOperator.Proofs.Status.Draft

/-!
# What a pass learns from its calls

The statuses that a pass knows at its end are the ones that its calls reported last: the answer to
applying a dependent, and before that the answer to observing it (`Observed.learn`). The draft has
published the answers to applying dependents, in their order (`mirror`). Both are functions of the
trace alone, and the statements here say that the steps of a pass compute them.
-/

namespace SiteOperator

theorem PerKind.eq_of_get_eq {α : Type} {values others : PerKind α}
    (h : ∀ kind, values.get kind = others.get kind) : values = others := by
  obtain ⟨moodle, postgres, keydb, nfs⟩ := values
  obtain ⟨moodle', postgres', keydb', nfs'⟩ := others
  obtain rfl : moodle = moodle' := h .moodle
  obtain rfl : postgres = postgres' := h .postgres
  obtain rfl : keydb = keydb' := h .keydb
  obtain rfl : nfs = nfs' := h .nfs
  rfl

/-- The status of a kind that an answer reports. An observation may find no such dependent. -/
def DependentCall.report? (kind : DependentKind) :
    (call : DependentCall) → call.Answer → Option DependentStatus
  | observe d, .ok status => if d.kind = kind then status else none
  | apply d, .ok status => if d.kind = kind then some status else none
  | delete _, .ok _ | observe _, .error _ | apply _, .error _ | delete _, .error _ => none

def DependentCall.publish (now : String) :
    (call : DependentCall) → call.Answer → StatusDraft → StatusDraft
  | apply d, .ok status, draft => (draft.publish now d.kind (some status)).1
  | observe _, .ok _, draft | delete _, .ok _, draft | observe _, .error _, draft
  | apply _, .error _, draft | delete _, .error _, draft => draft

namespace Pass

def applied (d : DependentSpec) (status : DependentStatus) : AnsweredCall :=
  ⟨.apply d, (.ok status : Except Raised DependentStatus)⟩

theorem applied_inj {d d' : DependentSpec} {status status' : DependentStatus}
    (h : applied d status = applied d' status') : d = d' ∧ status = status' := by
  cases h
  exact ⟨rfl, rfl⟩

def lastReport? (kind : DependentKind) : List AnsweredCall → Option DependentStatus
  | [] => none
  | e :: rest => (lastReport? kind rest).or (e.1.report? kind e.2)

def mirror (now : String) : List AnsweredCall → StatusDraft → StatusDraft
  | [], draft => draft
  | e :: rest, draft => mirror now rest (e.1.publish now e.2 draft)

theorem lastReport?_append (kind : DependentKind) (first rest : List AnsweredCall) :
    lastReport? kind (first ++ rest) =
      (lastReport? kind rest).or (lastReport? kind first) := by
  induction first with
  | nil => simp [lastReport?]
  | cons e first ih => rw [List.cons_append, lastReport?, lastReport?, ih, Option.or_assoc]

theorem mirror_append (now : String) (first rest : List AnsweredCall) (draft : StatusDraft) :
    mirror now (first ++ rest) draft = mirror now rest (mirror now first draft) := by
  induction first generalizing draft with
  | nil => rfl
  | cons e first ih => exact ih _

theorem exists_eq_applied {e : AnsweredCall} {d : DependentSpec} (hcall : e.1 = .apply d)
    (h : failure? e = none) : ∃ status, e = applied d status := by
  obtain ⟨call, answer⟩ := e
  cases hcall
  cases answer with
  | ok status => exact ⟨status, rfl⟩
  | error error => cases h

theorem publish_eq_self {e : AnsweredCall} (h : ∀ d status, e ≠ applied d status) (now : String)
    (draft : StatusDraft) : e.1.publish now e.2 draft = draft := by
  obtain ⟨call, answer⟩ := e
  cases call with
  | observe d => cases answer <;> rfl
  | delete d => cases answer <;> rfl
  | apply d =>
      cases answer with
      | error error => rfl
      | ok status => exact absurd rfl (h d status)

theorem exists_applied_of_mem_calls {trace : List AnsweredCall} {d : DependentSpec}
    (hmem : .apply d ∈ calls trace)
    (hnone : ∀ e ∈ trace, e.1 = .apply d → failure? e = none) :
    ∃ status, applied d status ∈ trace := by
  obtain ⟨e, he, hcall⟩ := mem_calls_iff.mp hmem
  obtain ⟨status, rfl⟩ := exists_eq_applied hcall (hnone e he hcall)
  exact ⟨status, he⟩

theorem applied_mem_calls {trace : List AnsweredCall} {d : DependentSpec} {status : DependentStatus}
    (h : applied d status ∈ trace) : .apply d ∈ calls trace :=
  mem_calls_iff.mpr ⟨applied d status, h, rfl⟩

theorem mirror_observations (now : String) (draft : StatusDraft) {deps : List DependentSpec}
    {trace : List AnsweredCall} (h : calls trace <+: deps.map .observe) :
    mirror now trace draft = draft := by
  have hne : ∀ e ∈ trace, ∀ d status, e ≠ applied d status := by
    rintro e he d status rfl
    obtain ⟨d', -, hcall⟩ := List.mem_map.mp (h.subset (applied_mem_calls he))
    cases hcall
  clear h
  induction trace with
  | nil => rfl
  | cons e rest ih =>
      obtain ⟨hhead, hrest⟩ := List.forall_mem_cons.mp hne
      rw [mirror, publish_eq_self hhead, ih hrest]

/-- Every dependent that was applied came back without a ready condition or with one that holds. -/
def NoneUnready (trace : List AnsweredCall) : Prop :=
  ∀ d status, applied d status ∈ trace →
    ∀ c, status.readyCondition? = some c → c.status = Condition.holds

theorem noneUnready_cons_iff {e : AnsweredCall} {rest : List AnsweredCall} :
    NoneUnready (e :: rest) ↔
      (∀ d status, e = applied d status →
        ∀ c, status.readyCondition? = some c → c.status = Condition.holds) ∧
      NoneUnready rest := by
  constructor
  · intro hall
    refine ⟨?_, fun d status hmem => hall d status (List.mem_cons_of_mem _ hmem)⟩
    intro d status heq
    exact hall d status (heq ▸ List.mem_cons_self)
  · rintro ⟨hhead, hrest⟩ d status hmem
    rcases List.mem_cons.mp hmem with heq | hmem
    · exact hhead d status heq.symm
    · exact hrest d status hmem

theorem readyHolds_publish_answer (now : String) (e : AnsweredCall) (draft : StatusDraft) :
    (e.1.publish now e.2 draft).ReadyHolds ↔
      draft.ReadyHolds ∧ ∀ d status, e = applied d status →
        ∀ c, status.readyCondition? = some c → c.status = Condition.holds := by
  by_cases happlied : ∃ d status, e = applied d status
  · obtain ⟨d, status, rfl⟩ := happlied
    have hpublish : ((applied d status).1.publish now (applied d status).2 draft).ReadyHolds ↔
        draft.ReadyHolds ∧ ∀ c, status.readyCondition? = some c → c.status = Condition.holds :=
      draft.readyHolds_publish now d.kind (some status)
    rw [hpublish]
    refine and_congr_right fun _ => ?_
    constructor
    · intro hstatus d' status' heq
      obtain ⟨-, rfl⟩ := applied_inj heq
      exact hstatus
    · intro hall
      exact hall d status rfl
  · have hne : ∀ d status, e ≠ applied d status := fun d status h => happlied ⟨d, status, h⟩
    rw [publish_eq_self hne]
    exact (and_iff_left fun d status heq => absurd heq (hne d status)).symm

/-- A site is ready after the answers of a trace if it was before and no dependent that was applied
came back unready. -/
theorem readyHolds_mirror (now : String) (trace : List AnsweredCall) (draft : StatusDraft) :
    (mirror now trace draft).ReadyHolds ↔ draft.ReadyHolds ∧ NoneUnready trace := by
  induction trace generalizing draft with
  | nil => simp [mirror, NoneUnready]
  | cons e rest ih =>
      rw [mirror, ih, readyHolds_publish_answer, noneUnready_cons_iff, and_assoc]

end Pass

namespace Observed

open Pass

def learn (observed : Observed) (trace : List AnsweredCall) : Observed :=
  .ofFn fun kind => (lastReport? kind trace).or (observed.get kind)

@[simp] theorem get_learn (observed : Observed) (trace : List AnsweredCall) (kind : DependentKind) :
    (observed.learn trace).get kind = (lastReport? kind trace).or (observed.get kind) :=
  PerKind.get_ofFn _ kind

theorem get_learn_none (trace : List AnsweredCall) (kind : DependentKind) :
    (Observed.none.learn trace).get kind = lastReport? kind trace := by
  rw [get_learn]
  cases kind <;> exact Option.or_none

@[simp] theorem learn_nil (observed : Observed) : observed.learn [] = observed :=
  PerKind.eq_of_get_eq fun kind => by simp [lastReport?]

theorem learn_append (observed : Observed) (first rest : List AnsweredCall) :
    observed.learn (first ++ rest) = (observed.learn first).learn rest :=
  PerKind.eq_of_get_eq fun kind => by simp [lastReport?_append, Option.or_assoc]

theorem learn_cons (observed : Observed) (e : AnsweredCall) (rest : List AnsweredCall) :
    observed.learn (e :: rest) = (observed.learn [e]).learn rest :=
  learn_append observed [e] rest

theorem learn_singleton (observed : Observed) (e : AnsweredCall) (kind : DependentKind)
    (status : DependentStatus)
    (h : ∀ other, e.1.report? other e.2 = if kind = other then some status else Option.none) :
    observed.learn [e] = observed.set kind (some status) := by
  refine PerKind.eq_of_get_eq fun other => ?_
  rw [get_learn, PerKind.get_set, lastReport?, lastReport?, h, Option.none_or]
  by_cases hkind : kind = other
  · simp [hkind]
  · simp [hkind, Ne.symm hkind]

theorem learn_applied (observed : Observed) (d : DependentSpec) (status : DependentStatus) :
    observed.learn [applied d status] = observed.set d.kind (some status) :=
  learn_singleton observed _ d.kind status fun _ => rfl

theorem learn_absent (observed : Observed) (d : DependentSpec) :
    observed.learn [⟨.observe d, (.ok Option.none : Except Raised (Option DependentStatus))⟩] =
      observed := by
  refine PerKind.eq_of_get_eq fun other => ?_
  rw [get_learn]
  simp [lastReport?, DependentCall.report?]

end Observed

namespace Pass

variable {stops : AnsweredCall → Prop} {deps : List DependentSpec} {observed : Observed}
  {trace : List AnsweredCall}

/-- Observing dependents one after the other is a walk that stops at no answer; if it is completed,
everything that was reported is known. -/
theorem runs_observeAll (go : ∀ d answer, ¬ stops ⟨.observe d, answer⟩)
    {result : Except Raised Observed} (run : (observeAll deps observed).Runs trace result) :
    (∃ error, Walk stops (deps.map .observe) trace (.failed error) ∧ result = .error error) ∨
      (Walk stops (deps.map .observe) trace .completed ∧ result = .ok (observed.learn trace)) := by
  induction deps generalizing observed trace with
  | nil =>
      obtain ⟨rfl, rfl⟩ := Dialogue.runs_done_iff.mp run
      exact Or.inr ⟨.nil, by rw [Observed.learn_nil]⟩
  | cons d deps ih =>
      obtain ⟨answer, rest, rfl, hnext⟩ := Dialogue.runs_ask_iff.mp run
      cases answer with
      | error error =>
          obtain ⟨rfl, rfl⟩ := Dialogue.runs_done_iff.mp hnext
          exact Or.inl ⟨error, .fail (e := ⟨.observe d, .error error⟩) rfl, rfl⟩
      | ok found =>
          have hrest : (observeAll deps (observed.learn [⟨.observe d, .ok found⟩])).Runs rest
              result := by
            cases found with
            | none =>
                rw [Observed.learn_absent]
                exact hnext
            | some status =>
                rw [Observed.learn_singleton observed _ d.kind status fun _ => rfl]
                exact hnext
          rcases ih hrest with ⟨error, walk, rfl⟩ | ⟨walk, rfl⟩
          · exact Or.inl ⟨error, .step ⟨rfl, go d _⟩ walk, rfl⟩
          · exact Or.inr ⟨.step ⟨rfl, go d _⟩ walk, by rw [← Observed.learn_cons]⟩

/-- Applying dependents one after the other is a walk that stops at no answer. Everything that came
back is published, and if the walk is completed it is known. -/
theorem runs_applyAll (go : ∀ d answer, ¬ stops ⟨.apply d, answer⟩) {now : String}
    {draft : StatusDraft} {result : Except Raised Observed × StatusDraft}
    (run : (applyAll now deps observed draft).Runs trace result) :
    (∃ error, Walk stops (deps.map .apply) trace (.failed error) ∧
        result = (.error error, mirror now trace draft)) ∨
      (Walk stops (deps.map .apply) trace .completed ∧
        result = (.ok (observed.learn trace), mirror now trace draft)) := by
  induction deps generalizing observed trace draft with
  | nil =>
      obtain ⟨rfl, rfl⟩ := Dialogue.runs_done_iff.mp run
      exact Or.inr ⟨.nil, by rw [Observed.learn_nil]; rfl⟩
  | cons d deps ih =>
      obtain ⟨answer, rest, rfl, hnext⟩ := Dialogue.runs_ask_iff.mp run
      cases answer with
      | error error =>
          obtain ⟨rfl, rfl⟩ := Dialogue.runs_done_iff.mp hnext
          exact Or.inl ⟨error, .fail (e := ⟨.apply d, .error error⟩) rfl, rfl⟩
      | ok status =>
          have hrest : (applyAll now deps (observed.learn [applied d status])
              (draft.publish now d.kind (some status)).1).Runs rest result := by
            rw [Observed.learn_applied]
            exact hnext
          rcases ih hrest with ⟨error, walk, rfl⟩ | ⟨walk, rfl⟩
          · exact Or.inl ⟨error, .step ⟨rfl, go d _⟩ walk, rfl⟩
          · exact Or.inr ⟨.step ⟨rfl, go d _⟩ walk, by rw [← Observed.learn_cons]; rfl⟩

/-- The answers of a cluster in which every dependent keeps reporting the same. A dependent that is
not there yet has an empty status once it is applied. -/
def steady (statuses : Observed) : (call : DependentCall) → Unit → call.Answer × Unit
  | .observe d, _ => (.ok (statuses.get d.kind), ())
  | .apply d, _ => (.ok ((statuses.get d.kind).getD .empty), ())
  | .delete _, _ => (.ok .notFound, ())

theorem failure?_eq_none_of_steady {α : Type} {statuses : Observed} {program : PassProgram α}
    {e : AnsweredCall} (h : e ∈ program.transcript (steady statuses) ()) : failure? e = none := by
  induction program with
  | done => cases h
  | ask call next ih =>
      rcases List.mem_cons.mp h with rfl | h
      · cases call with
        | observe d | apply d | delete d => rfl
      · exact ih _ h

end Pass

end SiteOperator
