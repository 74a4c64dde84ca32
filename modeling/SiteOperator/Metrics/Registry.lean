import SiteOperator.Decimal.Binary64
import SiteOperator.Entries

/-!
# Metrics

The operator counts its reconciles by outcome, the reasons why a site is looked at again, the
dependents it applies and deletes, and its errors; it measures how long reconciles take and how many
sites reference each template.  Everything starts at nothing, and a series exists once it has been
recorded.
-/

namespace SiteOperator

/-- How a reconcile is counted. -/
inductive Outcome where
  | success
  | error
  | requeue
  deriving DecidableEq

def Outcome.label : Outcome → String
  | success => "success"
  | error => "error"
  | requeue => "requeue"

/-- A series that counts events. -/
inductive Counter where
  | reconciliations (resource : String) (outcome : Outcome)
  | requeues (resource reason : String)
  | applied (kind : String)
  | deleted (kind : String)
  | errors (resource reason : String)
  deriving DecidableEq

/-- The durations of the reconciles of one resource: how many lie under each bound, their sum in
seconds and their number. -/
structure Histogram where
  below : List Nat
  sum : Binary64
  count : Nat
  deriving DecidableEq

namespace Histogram

def bounds : List (Nat × Nat) :=
  [(1, 100), (5, 100), (1, 10), (1, 2), (1, 1), (2, 1), (5, 1), (10, 1), (30, 1)]

def boundValues : List Binary64 :=
  bounds.map fun (num, den) => (Binary64.ofRatio? false num den).getD (.zero false)

def empty : Histogram := ⟨bounds.map fun _ => 0, .zero false, 0⟩

/-- A duration in seconds: the whole seconds and the rest are rounded by themselves. -/
def seconds (microseconds : Nat) : Binary64 :=
  let whole := Binary64.ofNat? (microseconds / 1000000)
  let rest := Binary64.ofRatio? false (microseconds % 1000000) 1000000
  ((whole.bind fun w => rest.bind fun r => w.add? r)).getD (.zero false)

def observe (histogram : Histogram) (duration : Binary64) : Histogram where
  below := (boundValues.zip histogram.below).map fun (bound, n) =>
    if duration.le bound then n + 1 else n
  sum := (histogram.sum.add? duration).getD histogram.sum
  count := histogram.count + 1

end Histogram

/-- All series with their values. -/
structure Registry where
  counters : List (Counter × Nat)
  references : Entries Nat
  durations : Entries Histogram
  deriving DecidableEq

namespace Registry

def empty : Registry := ⟨[], [], []⟩

def bump (counter : Counter) : List (Counter × Nat) → List (Counter × Nat)
  | [] => [(counter, 1)]
  | (c, n) :: rest => if c = counter then (c, n + 1) :: rest else (c, n) :: bump counter rest

def count (registry : Registry) (counter : Counter) : Registry :=
  { registry with counters := bump counter registry.counters }

def value (registry : Registry) (counter : Counter) : Nat :=
  match registry.counters.find? fun e => e.1 = counter with
  | some (_, n) => n
  | none => 0

def observe (registry : Registry) (resource : String) (duration : Binary64) : Registry :=
  let histogram := (registry.durations.at? resource).getD .empty
  { registry with durations := registry.durations.put resource (histogram.observe duration) }

def recordSuccess (registry : Registry) (resource : String) (duration : Binary64) : Registry :=
  (registry.count (.reconciliations resource .success)).observe resource duration

def recordError (registry : Registry) (resource : String) (duration : Binary64) : Registry :=
  (registry.count (.reconciliations resource .error)).observe resource duration

/-- Counts a reconcile that waits for something, and for what. -/
def recordRequeue (registry : Registry) (resource reason : String) : Registry :=
  (registry.count (.reconciliations resource .requeue)).count (.requeues resource reason)

def recordFailure (registry : Registry) (resource reason : String) : Registry :=
  registry.count (.errors resource reason)

def setReferences (registry : Registry) (template : String) (sites : Nat) : Registry :=
  { registry with references := registry.references.put template sites }

end Registry

end SiteOperator
