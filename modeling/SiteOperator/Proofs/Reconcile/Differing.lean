import SiteOperator.Proofs.Reconcile.Played

/-!
# One task in two clusters

Two clusters may hold different objects at some paths and the same ones everywhere else
(`Cluster.AgreeOff`). A task that sends nothing that leads to such a path makes the same run in both
and leaves them differing as before (`Task.Plays.transfer`).
-/

namespace SiteOperator

open Dialogue (AnsweredBy)

variable {collects : Bool} {cluster other last left : Cluster} {paths : String → Prop}
  {trace : List AnsweredEffect} {request : Request}

def Cluster.AgreeOff (paths : String → Prop) (cluster other : Cluster) : Prop :=
  ∀ path, ¬ paths path → other.object? path = cluster.object? path

namespace Cluster

variable {wire : WireRequest}

theorem AgreeOff.refl (paths : String → Prop) (cluster : Cluster) :
    AgreeOff paths cluster cluster :=
  fun _ _ => rfl

theorem AgreeOff.symm (h : AgreeOff paths cluster other) : AgreeOff paths other cluster :=
  fun path off => (h path off).symm

theorem AgreeOff.trans {third : Cluster} (h : AgreeOff paths cluster other)
    (h' : AgreeOff paths other third) : AgreeOff paths cluster third :=
  fun path off => (h' path off).trans (h path off)

theorem object?_storePatched (cluster : Cluster) (collects : Bool) (path : String)
    (object : Json) : (cluster.storePatched collects path object).object? path =
      if collects && isTerminating object && !hasFinalizers object then none else some object := by
  unfold storePatched
  split
  · rw [object?_remove, if_pos rfl]
  · rw [object?_store, if_pos rfl]

/-- How a request is answered, and what becomes of the object that it leads to, depends on that
object only. -/
theorem answer_congr (collects : Bool)
    (h : other.object? (target wire) = cluster.object? (target wire)) :
    (other.answer collects wire).1 = (cluster.answer collects wire).1 ∧
      (other.answer collects wire).2.object? (target wire) =
        (cluster.answer collects wire).2.object? (target wire) := by
  cases hobject : cluster.object? (target wire) <;> rw [hobject] at h <;>
    cases hverb : wire.verb <;>
    simp only [answer, hverb, hobject, h] <;>
    (try split) <;>
    simp [merge, object?_storePatched, object?_store, object?_remove, hobject, h]

theorem AgreeOff.answer (agree : AgreeOff paths cluster other) (off : ¬ paths (target wire)) :
    (other.answer collects wire).1 = (cluster.answer collects wire).1 ∧
      AgreeOff paths (cluster.answer collects wire).2 (other.answer collects wire).2 := by
  obtain ⟨hreply, hobject⟩ := answer_congr collects (agree _ off)
  refine ⟨hreply, fun path hpath => ?_⟩
  by_cases htarget : target wire = path
  · rw [← htarget, hobject]
  · rw [object?_answer_of_ne htarget, object?_answer_of_ne htarget, agree path hpath]

/-- The two clusters give the same answers to requests that avoid the paths. -/
theorem AgreeOff.answeredBy (agree : AgreeOff paths cluster other)
    (answered : AnsweredBy (serve collects) cluster trace last)
    (avoids : OnlySends (·.Avoids paths) trace) :
    ∃ left, AnsweredBy (serve collects) other trace left ∧ AgreeOff paths last left := by
  induction answered generalizing other with
  | nil => exact ⟨other, .nil, agree⟩
  | @cons effect cluster last trace _ ih =>
      have hstep : (serve collects effect other).1 = (serve collects effect cluster).1 ∧
          AgreeOff paths (serve collects effect cluster).2 (serve collects effect other).2 := by
        cases effect with
        | record measurement => exact ⟨rfl, agree⟩
        | send request =>
            cases hwire : request.wire? with
            | none =>
                simp only [serve, hwire]
                exact ⟨rfl, agree⟩
            | some wire =>
                simp only [serve, hwire]
                exact agree.answer (avoids request _ List.mem_cons_self wire hwire)
      obtain ⟨left, hrest, hleft⟩ :=
        ih hstep.2 fun request reply hmem => avoids request reply (List.mem_cons_of_mem _ hmem)
      refine ⟨left, ?_, hleft⟩
      rw [← hstep.1]
      exact .cons hrest

end Cluster

theorem Request.Avoids.leavesPath {path : String} (h : request.Avoids paths) (hpath : paths path) :
    request.LeavesPath path :=
  leavesPath_of_target_ne fun wire hwire heq => h wire hwire (heq ▸ hpath)

namespace Task

variable {α : Type} {task : Task α} {result : Except Raised α}

/-- A task makes the same run in two clusters that agree off the paths that it avoids. These paths
it leaves alone in both. -/
theorem Plays.transfer (plays : task.Plays collects cluster trace result last)
    (agree : Cluster.AgreeOff paths cluster other)
    (avoids : Always (OnlySends (·.Avoids paths)) task) :
    ∃ left, task.Plays collects other trace result left ∧ Cluster.AgreeOff paths last left := by
  obtain ⟨left, answered, hleft⟩ :=
    agree.answeredBy plays.answered (avoids _ _ plays.runs)
  exact ⟨left, ⟨plays.runs, answered⟩, hleft⟩

theorem Plays.object?_of_avoids {path : String}
    (plays : task.Plays collects cluster trace result last)
    (avoids : Always (OnlySends (·.Avoids paths)) task) (hpath : paths path) :
    last.object? path = cluster.object? path :=
  plays.object?_eq fun _ _ run => (avoids _ _ run).mono fun _ h => h.leavesPath hpath

end Task

end SiteOperator
