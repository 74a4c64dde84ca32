import SiteOperator.Dependent.Kind
import SiteOperator.Json.Printer
import SiteOperator.Resource.Dependent

/-!
# Readiness of dependents

What the operator concludes from the status of one dependent, which may not exist yet.
-/

namespace SiteOperator

/-- The reason of a dependent that has no ready condition, or whose condition has no reason. -/
def pendingReason : String := "Pending"

def successfulReason : String := "Successful"

/-- The state and the reason of a dependent that is suspended. -/
def suspendedState : String := "Suspended"

/-- The ready condition of a dependent that may not exist. -/
def readyCondition? (status : Option DependentStatus) : Option Condition :=
  status.bind DependentStatus.readyCondition?

def readyReason (status : Option DependentStatus) : String :=
  ((readyCondition? status).bind Condition.reason).getD pendingReason

/-- The reason of a dependent's ready condition after the name of its kind. -/
def kindReadyReason (kind : DependentKind) (status : Option DependentStatus) : String :=
  kind.name ++ readyReason status

def isReady (status : Option DependentStatus) : Bool :=
  match readyCondition? status with
  | some condition => condition.status = Condition.holds
  | none => false

def isSuspended (status : Option DependentStatus) : Bool :=
  status.bind DependentStatus.state = some suspendedState

/-- A quantity of storage as the site shows it: a text and an integer as they are, a double with one
decimal place, and any other value as JSON. -/
def storageText : Json → String
  | .number (.int n) => toString n
  | .number (.double x) => x.oneDecimal
  | .string s => s
  | other => other.compact

end SiteOperator
