import SiteOperator.Plan
import SiteOperator.Status.Draft

/-!
# The state of a site

The state of a site names the first dependent that is not where it should be, together with the
reason it gives, or else says that the site has settled.
-/

namespace SiteOperator

/-- The latest known status of each kind. -/
abbrev Observed := PerKind (Option DependentStatus)

def Observed.none : Observed := .const Option.none

/-- Whether a site may be left alone in this state for a while. -/
def isSettledState (state : String) : Bool :=
  ["Ready", "Terminating", suspendedState].contains state

/-- The order in which the kinds decide the state of a site that should run. -/
def runningOrder : List DependentKind := [.postgres, .keydb, .nfs, .moodle]

/-- The order in which the kinds are suspended, one after the other. -/
def suspendOrder : List DependentKind := [.moodle, .keydb, .nfs, .postgres]

namespace Plan

/-- The first configured kind whose reason is not the expected one. -/
def firstUnexpected? (plan : Plan) (observed : Observed) (order : List DependentKind)
    (expected : String) : Option DependentKind :=
  order.find? fun kind => plan.has kind && readyReason (observed.get kind) ≠ expected

def siteState (plan : Plan) (observed : Observed) (deleting suspending : Bool) : String :=
  if deleting then "Terminating"
  else if suspending then
    match plan.firstUnexpected? observed suspendOrder suspendedState with
    | some kind => "Suspending" ++ kindReadyReason kind (observed.get kind)
    | none => suspendedState
  else
    match plan.firstUnexpected? observed runningOrder successfulReason with
    | some kind => kindReadyReason kind (observed.get kind)
    | none => "Ready"

/-- Writes the state of the site, what the workload reports and the matching ready condition into a
draft, and gives the state. -/
def conclude (plan : Plan) (observed : Observed) (deleting suspending : Bool) (now : String)
    (draft : StatusDraft) : StatusDraft × String :=
  let state := plan.siteState observed deleting suspending
  let draft := (draft.setState state).1
  let draft := (draft.setFromWorkload observed.moodle).1
  ((draft.setReadyForState now state).1, state)

end Plan

end SiteOperator
