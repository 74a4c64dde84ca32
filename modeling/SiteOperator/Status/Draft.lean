import SiteOperator.Resource.Site
import SiteOperator.Status.Readiness

/-!
# Drafts of a site's status

A reconcile collects every change of a site's status in a draft and writes it once, if it says
something new.  Each step of a draft answers whether it changed anything; `now` is the time that
conditions without a time of their own receive.
-/

namespace SiteOperator

/-- The status that is stored, if there is one, and the status that is being collected. -/
structure StatusDraft where
  current : Option SiteStatus
  collected : SiteStatus
  deriving DecidableEq

namespace StatusDraft

def ofCurrent (current : Option SiteStatus) : StatusDraft :=
  ⟨current, current.getD .empty⟩

def setCondition (draft : StatusDraft) (now : String) (condition : Condition) :
    StatusDraft × Bool :=
  let (conditions, changed) := draft.collected.conditions.set now condition
  ({ draft with collected := { draft.collected with conditions := conditions } }, changed)

def setReady (draft : StatusDraft) (now status reason message : String) : StatusDraft × Bool :=
  draft.setCondition now ⟨Condition.ready, status, some reason, some message, some now⟩

/-- Publishes the ready condition of a dependent under the type of its kind.  The site is not ready
while a dependent is not; a dependent without the condition changes nothing.  The answer says
whether anything changed and whether the dependent is ready. -/
def publish (draft : StatusDraft) (now : String) (kind : DependentKind)
    (status : Option DependentStatus) : StatusDraft × Bool × Bool :=
  match readyCondition? status with
  | none => (draft, false, false)
  | some source =>
      let (draft, changed) := draft.setCondition now { source with type := kind.conditionType }
      if source.status = Condition.holds then (draft, changed, true)
      else
        let (draft, unready) :=
          draft.setReady now Condition.fails "DependantNotReady" "Dependant is not ready"
        (draft, changed || unready, false)

/-- Replaces a value by one that is there, and says whether it was another one. -/
def replace {α : Type} [DecidableEq α] (slot : Option α) : Option α → Option α × Bool
  | none => (slot, false)
  | some x => (some x, decide (slot ≠ some x))

/-- The integer that a value holds, if it fits 64 bits with a sign. -/
def usersOf? (value : Json) : Option Int := Decoder.integer64 value

/-- Takes over what the workload reports: its address, its release, the storage that is used and
the number of registered users.  What it does not report stays. -/
def setFromWorkload (draft : StatusDraft) (workload : Option DependentStatus) :
    StatusDraft × Bool :=
  match workload with
  | none => (draft, false)
  | some workload =>
      let status := draft.collected
      let storage := (workload.usageItem? "storage_total").map fun item => storageText item.value
      let users := (workload.usageItem? "users_total").bind fun item => usersOf? item.value
      let (url, urlChanged) := replace status.url workload.url
      let (release, releaseChanged) :=
        replace status.release (workload.version.bind WorkloadVersion.release)
      let (storageGb, storageChanged) := replace status.storageGb storage
      let (registeredUsers, usersChanged) := replace status.registeredUsers users
      ({ draft with collected := { status with
          url := url, release := release, storageGb := storageGb,
          registeredUsers := registeredUsers } },
        urlChanged || releaseChanged || storageChanged || usersChanged)

def setState (draft : StatusDraft) (state : String) : StatusDraft × Bool :=
  let (state, changed) := replace draft.collected.state (some state)
  ({ draft with collected := { draft.collected with state := state } }, changed)

/-- Sets the site's own ready condition to what a settled state says.  The other states leave it as
the dependents have set it. -/
def setReadyForState (draft : StatusDraft) (now state : String) : StatusDraft × Bool :=
  if state = "Ready" then
    draft.setReady now Condition.holds successfulReason "LMSMoodle is ready"
  else if state = "Terminating" then
    draft.setReady now Condition.fails "Terminating" "Finalizer started"
  else if state = suspendedState then
    draft.setReady now Condition.fails suspendedState "LMSMoodle is suspended"
  else (draft, false)

def setTerminated (draft : StatusDraft) (now : String) : StatusDraft × Bool :=
  let (draft, condition) := draft.setReady now Condition.fails "Terminated" "Finalizer ended"
  let (draft, state) := draft.setState "Terminated"
  (draft, state || condition)

/-- Whether the collected status says something new.  Times alone are nothing new. -/
def hasChanges (draft : StatusDraft) : Bool :=
  let new := draft.collected
  match draft.current with
  | none => new ≠ .empty
  | some current =>
      current.state ≠ new.state || current.url ≠ new.url || current.release ≠ new.release ||
        current.storageGb ≠ new.storageGb || current.registeredUsers ≠ new.registeredUsers ||
        !Conditions.same current.conditions new.conditions

end StatusDraft

end SiteOperator
