import SiteOperator.Cluster.Environment
import SiteOperator.Reconcile.Template
import SiteOperator.Settings.Intervals

/-!
# Attempts

An attempt is one reconcile with everything around it: it is counted by its outcome, its error is
counted by its reason, and it says when the next one is due.
-/

namespace SiteOperator

/-- How an attempt ends: when the next one is due, in seconds, and its error if it failed. -/
structure Attempt where
  requeueAfter : Nat
  fault : Option Fault
  deriving DecidableEq

namespace Attempt

def noTime : Binary64 := .zero false

/-- Counts a reconcile of a resource by its outcome; `awaited` is what a reconcile waits for that
has not settled. -/
def conclude (intervals : Intervals) (resource awaited : String)
    (outcome : Except Raised Progress) (registry : Registry) : Attempt × Registry :=
  match outcome with
  | .ok progress =>
      let registry := match progress with
        | .requeue => registry.recordRequeue resource awaited
        | .settled => registry
      (⟨intervals.afterProgress progress, none⟩, registry.recordSuccess resource noTime)
  | .error error =>
      let fault := error.classify
      (⟨intervals.afterFault fault, some fault⟩,
        (registry.recordError resource noTime).recordFailure resource fault.reason)

def run (intervals : Intervals) (resource awaited : String) (task : Task Progress)
    (env : Environment) : Attempt × Environment :=
  let (outcome, env) := env.run task
  let (attempt, registry) := conclude intervals resource awaited outcome env.registry
  (attempt, { env with registry := registry })

end Attempt

def Site.attempt (site : Site) (intervals : Intervals) (manager now : String)
    (env : Environment) : Attempt × Environment :=
  Attempt.run intervals resourceType.kind "dependant_wait" (site.reconcile manager now) env

def Template.attempt (template : Template) (intervals : Intervals) (cache : SiteCache)
    (env : Environment) : Attempt × Environment :=
  Attempt.run intervals resourceType.kind "store_sync" (template.reconcile cache) env

end SiteOperator
