/-!
# Work queues

A work queue says when which key is due.  A key is due once: of two times the earlier one counts,
so asking for work never delays work that is already due.
-/

namespace SiteOperator

/-- What a reconcile is asked for: the name of an object, and the namespace in which it is looked
for first. -/
structure WorkKey where
  namespaceName : Option String
  name : String
  deriving DecidableEq

/-- The keys that are due, each with its time in milliseconds. -/
abbrev WorkQueue := List (WorkKey × Nat)

namespace WorkQueue

def dueAt? : WorkQueue → WorkKey → Option Nat
  | [], _ => none
  | (k, due) :: rest, key => if k = key then some due else dueAt? rest key

def schedule (key : WorkKey) (due : Nat) : WorkQueue → WorkQueue
  | [] => [(key, due)]
  | (k, t) :: rest => if k = key then (k, min t due) :: rest else (k, t) :: schedule key due rest

theorem dueAt?_schedule (queue : WorkQueue) (key other : WorkKey) (due : Nat) :
    dueAt? (schedule key due queue) other =
      if other = key then some (match dueAt? queue key with
        | some earlier => min earlier due
        | none => due)
      else dueAt? queue other := by
  induction queue with
  | nil =>
      by_cases h : other = key
      · simp [schedule, dueAt?, h]
      · simp [schedule, dueAt?, h, Ne.symm h]
  | cons entry rest ih =>
      obtain ⟨k, t⟩ := entry
      by_cases hk : k = key
      · subst hk
        by_cases h : other = k
        · simp [schedule, dueAt?, h]
        · simp [schedule, dueAt?, h, Ne.symm h]
      · by_cases h : other = key
        · subst h
          simp [schedule, dueAt?, hk, ih]
        · simp [schedule, dueAt?, hk, ih, h]

/-- The entries that are due at a time and whose keys are free. -/
def ready (queue : WorkQueue) (time : Nat) (busy : List WorkKey) : WorkQueue :=
  queue.filter fun (key, due) => decide (due ≤ time) && !busy.contains key

def waiting (queue : WorkQueue) (time : Nat) (busy : List WorkKey) : WorkQueue :=
  queue.filter fun (key, due) => !(decide (due ≤ time) && !busy.contains key)

def earliest? (queue : WorkQueue) : Option Nat := (queue.map (·.2)).min?

end WorkQueue

end SiteOperator
