import SiteOperator.Pass
import SiteOperator.Proofs.Dialogue.Runs

/-!
# Walks along a schedule of calls

A pass makes the calls of a fixed schedule one after the other. It ends early at the first call
that fails, and some passes also end at an answer they do not go on from. `Walk stops schedule
trace ending` says that `trace` is such a walk: the schedule is cut right after the first answer
that is an error or that satisfies `stops`, and `ending` says which of the three ways it ended.

From this alone follow the order of the calls (`Walk.calls_prefix_schedule`), the place of the cut
(`Walk.completed`, `Walk.failed`, `Walk.stopped`) and when a call of the schedule is made at all: if
the walk goes on after every call before it (`Walk.mem_calls_of_goesOn`), and only then if no call
comes twice (`Walk.goesOn_of_mem_calls`). So the statements about the passes need no induction of
their own.
-/

namespace SiteOperator

def DependentCall.dependent : DependentCall → DependentSpec
  | observe dependent | apply dependent | delete dependent => dependent

def DependentCall.error? : (call : DependentCall) → call.Answer → Option Raised
  | observe _, .error error | apply _, .error error | delete _, .error error => some error
  | observe _, .ok _ | apply _, .ok _ | delete _, .ok _ => none

namespace Pass

abbrev AnsweredCall := Dialogue.Answered DependentCall DependentCall.Answer

def failure? (e : AnsweredCall) : Option Raised := e.1.error? e.2

def calls (trace : List AnsweredCall) : List DependentCall := trace.map Sigma.fst

@[simp] theorem calls_nil : calls [] = [] := rfl

@[simp] theorem calls_cons (e : AnsweredCall) (trace : List AnsweredCall) :
    calls (e :: trace) = e.1 :: calls trace := rfl

@[simp] theorem calls_append (first rest : List AnsweredCall) :
    calls (first ++ rest) = calls first ++ calls rest := List.map_append

theorem mem_calls_iff {call : DependentCall} {trace : List AnsweredCall} :
    call ∈ calls trace ↔ ∃ e ∈ trace, e.1 = call := List.mem_map

/-- A call that is made once has one answer. -/
theorem eq_of_call_eq {trace : List AnsweredCall} (distinct : (calls trace).Nodup)
    {e e' : AnsweredCall} (he : e ∈ trace) (he' : e' ∈ trace) (hcall : e.1 = e'.1) : e = e' := by
  induction trace with
  | nil => cases he
  | cons head rest ih =>
      obtain ⟨hhead, hrest⟩ := List.nodup_cons.mp distinct
      rcases List.mem_cons.mp he with rfl | hlater
      · rcases List.mem_cons.mp he' with rfl | hlater'
        · rfl
        · exact absurd (mem_calls_iff.mpr ⟨e', hlater', hcall.symm⟩) hhead
      · rcases List.mem_cons.mp he' with rfl | hlater'
        · exact absurd (mem_calls_iff.mpr ⟨e, hlater, hcall⟩) hhead
        · exact ih hrest hlater hlater'

/-- The last call of a trace failed with an error, and no call before it failed. -/
def FailsLast (trace : List AnsweredCall) (error : Raised) : Prop :=
  ∃ before last, trace = before ++ [last] ∧ failure? last = some error ∧
    ∀ e ∈ before, failure? e = none

inductive Ending where
  | completed
  | failed (error : Raised)
  | stopped

/-- The walk goes on after a call: it did not fail, and its answer is none to stop at. -/
def GoesOn (stops : AnsweredCall → Prop) (e : AnsweredCall) : Prop := failure? e = none ∧ ¬ stops e

/-- The calls of the schedule are made in order, up to and with the first one that fails or whose
answer is one to stop at. -/
inductive Walk (stops : AnsweredCall → Prop) :
    List DependentCall → List AnsweredCall → Ending → Prop where
  | nil : Walk stops [] [] .completed
  | fail {e : AnsweredCall} {rest : List DependentCall} {error : Raised}
      (h : failure? e = some error) : Walk stops (e.1 :: rest) [e] (.failed error)
  | stop {e : AnsweredCall} {rest : List DependentCall} (h : failure? e = none) (hstop : stops e) :
      Walk stops (e.1 :: rest) [e] .stopped
  | step {e : AnsweredCall} {rest : List DependentCall} {trace : List AnsweredCall}
      {ending : Ending} (h : GoesOn stops e) (walk : Walk stops rest trace ending) :
      Walk stops (e.1 :: rest) (e :: trace) ending

namespace Walk

variable {stops : AnsweredCall → Prop} {schedule later : List DependentCall}
  {trace rest : List AnsweredCall} {ending : Ending} {error : Raised}

theorem append (first : Walk stops schedule trace .completed)
    (second : Walk stops later rest ending) :
    Walk stops (schedule ++ later) (trace ++ rest) ending := by
  generalize hend : Ending.completed = e at first
  induction first with
  | nil => exact second
  | fail => cases hend
  | stop => cases hend
  | step h _ ih => exact .step h (ih hend)

theorem extend (walk : Walk stops schedule trace ending) (early : ending ≠ .completed) :
    Walk stops (schedule ++ later) trace ending := by
  induction walk with
  | nil => exact absurd rfl early
  | fail h => exact .fail h
  | stop h hstop => exact .stop h hstop
  | step h _ ih => exact .step h (ih early)

/-- The calls are made in the order of the schedule, none is left out and none is made twice. -/
theorem calls_prefix_schedule (walk : Walk stops schedule trace ending) :
    calls trace <+: schedule := by
  induction walk with
  | nil => exact List.prefix_rfl
  | fail | stop => exact (List.prefix_cons_inj _).mpr List.nil_prefix
  | step _ _ ih => exact (List.prefix_cons_inj _).mpr ih

theorem completed (walk : Walk stops schedule trace .completed) :
    calls trace = schedule ∧ ∀ e ∈ trace, GoesOn stops e := by
  generalize hend : Ending.completed = e at walk
  induction walk with
  | nil => simp
  | fail => cases hend
  | stop => cases hend
  | step h _ ih =>
      obtain ⟨hcalls, hall⟩ := ih hend
      exact ⟨by rw [calls_cons, hcalls], List.forall_mem_cons.mpr ⟨h, hall⟩⟩

theorem failed (walk : Walk stops schedule trace (.failed error)) : FailsLast trace error := by
  generalize hend : Ending.failed error = e at walk
  induction walk with
  | nil => cases hend
  | @fail e _ _ h =>
      cases hend
      exact ⟨[], e, rfl, h, by simp⟩
  | stop => cases hend
  | step h _ ih =>
      obtain ⟨before, last, rfl, hlast, hall⟩ := ih hend
      exact ⟨_ :: before, last, rfl, hlast, List.forall_mem_cons.mpr ⟨h.1, hall⟩⟩

theorem stopped (walk : Walk stops schedule trace .stopped) :
    ∃ before last, trace = before ++ [last] ∧ failure? last = none ∧ stops last ∧
      ∀ e ∈ before, GoesOn stops e := by
  generalize hend : Ending.stopped = e at walk
  induction walk with
  | nil => cases hend
  | fail => cases hend
  | @stop e _ h hstop => exact ⟨[], e, rfl, h, hstop, by simp⟩
  | step h _ ih =>
      obtain ⟨before, last, rfl, hlast, hstop, hall⟩ := ih hend
      exact ⟨_ :: before, last, rfl, hlast, hstop, List.forall_mem_cons.mpr ⟨h, hall⟩⟩

theorem mem_calls_of_goesOn (walk : Walk stops schedule trace ending)
    {before after : List DependentCall} {call : DependentCall}
    (split : schedule = before ++ call :: after)
    (go : ∀ e ∈ trace, e.1 ∈ before → GoesOn stops e) : call ∈ calls trace := by
  induction walk generalizing before with
  | nil => simp at split
  | @fail e tail error h =>
      cases before with
      | nil => exact (List.cons.inj split).1 ▸ List.mem_cons_self
      | cons head before =>
          have hgo := go e List.mem_cons_self ((List.cons.inj split).1 ▸ List.mem_cons_self)
          simp [GoesOn, h] at hgo
  | @stop e tail h hstop =>
      cases before with
      | nil => exact (List.cons.inj split).1 ▸ List.mem_cons_self
      | cons head before =>
          have hgo := go e List.mem_cons_self ((List.cons.inj split).1 ▸ List.mem_cons_self)
          exact absurd hstop hgo.2
  | step h walk ih =>
      cases before with
      | nil => exact (List.cons.inj split).1 ▸ List.mem_cons_self
      | cons head before =>
          refine List.mem_cons_of_mem _ (ih (List.cons.inj split).2 ?_)
          intro e he hbefore
          exact go e (List.mem_cons_of_mem _ he) (List.mem_cons_of_mem _ hbefore)

theorem goesOn_of_mem_calls (walk : Walk stops schedule trace ending) (distinct : schedule.Nodup)
    {before after : List DependentCall} {call : DependentCall}
    (split : schedule = before ++ call :: after) (made : call ∈ calls trace) :
    ∀ e ∈ trace, e.1 ∈ before → GoesOn stops e := by
  induction walk generalizing before with
  | nil => cases made
  | fail | stop =>
      cases before with
      | nil => simp
      | cons head before =>
          obtain ⟨rfl, rfl⟩ := List.cons.inj split
          obtain rfl := List.mem_singleton.mp made
          simp at distinct
  | @step e tail trace ending h walk ih =>
      cases before with
      | nil => simp
      | cons head before =>
          obtain ⟨rfl, rfl⟩ := List.cons.inj split
          obtain ⟨hhead, htail⟩ := List.nodup_cons.mp distinct
          have hne : call ≠ e.1 := by
            rintro rfl
            simp at hhead
          have hrest := ih htail rfl ((List.mem_cons.mp made).resolve_left hne)
          intro e' he' hbefore
          rcases List.mem_cons.mp he' with rfl | he'
          · exact h
          · have hcall := walk.calls_prefix_schedule.subset (mem_calls_iff.mpr ⟨e', he', rfl⟩)
            rcases List.mem_cons.mp hbefore with heq | hbefore
            · exact absurd (heq ▸ hcall) hhead
            · exact hrest e' he' hbefore

theorem mem_calls_before (walk : Walk stops schedule trace ending) (distinct : schedule.Nodup)
    {before after : List DependentCall} {call : DependentCall}
    (split : schedule = before ++ call :: after) (made : call ∈ calls trace) :
    ∀ earlier ∈ before, earlier ∈ calls trace := by
  have hbefore : before <+: schedule := ⟨call :: after, split.symm⟩
  rcases List.prefix_or_prefix_of_prefix walk.calls_prefix_schedule hbefore with hpre | hpre
  · rw [split] at distinct
    exact absurd rfl
      ((List.nodup_append.mp distinct).2.2 call (hpre.subset made) call List.mem_cons_self)
  · exact fun earlier hearlier => hpre.subset hearlier

end Walk

end Pass

end SiteOperator
