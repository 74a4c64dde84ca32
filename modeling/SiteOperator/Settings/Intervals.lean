import SiteOperator.Fault
import SiteOperator.Pass

/-!
# When to look again

After every reconcile the next one is due after an interval: one for sites that have settled, one
while something is awaited, and one after an error that may pass by itself.  All intervals are in
seconds.
-/

namespace SiteOperator

/-- The intervals between reconciles. -/
structure Intervals where
  settled : Nat
  waiting : Nat
  error : Nat
  deriving DecidableEq

namespace Intervals

def standard : Intervals := ⟨300, 10, 30⟩

def afterProgress (intervals : Intervals) : Progress → Nat
  | .settled => intervals.settled
  | .requeue => intervals.waiting

/-- The interval after an error.  An error that stays until the user mends it is not looked at more
often than a site that has settled. -/
def afterFault (intervals : Intervals) (fault : Fault) : Nat :=
  if fault.transient then intervals.error else intervals.settled

end Intervals

end SiteOperator
