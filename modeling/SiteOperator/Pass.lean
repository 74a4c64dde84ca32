import SiteOperator.Dialogue
import SiteOperator.Status.State

/-!
# Passes

A pass walks over the dependents of a plan in a fixed order, collects what it learns in a draft of
the site's status, and answers whether the site has settled.  It talks to the cluster only by
observing, applying and deleting dependents.  It never waits: a dependent that is not there yet ends
the pass.

* `present` applies the supporting dependents, and the workload once they are all ready.
* `suspend` applies each dependent only after those before it have been suspended.
* `finalize` deletes the workload, and the supporting dependents once it is gone.

The draft of a pass that fails holds what was collected before the failure.
-/

namespace SiteOperator

/-- What came of a request to delete an object. -/
inductive DeleteOutcome where
  /-- The object was there and owned, and has been asked to go. -/
  | deleted
  | alreadyDeleting
  | notOwned
  | notFound
  deriving DecidableEq

/-- Whether the object may still be around because of the site. -/
def DeleteOutcome.isPending : DeleteOutcome → Bool
  | deleted | alreadyDeleting => true
  | notOwned | notFound => false

/-- Whether there is something left to wait for. -/
inductive Progress where
  | settled
  | requeue
  deriving DecidableEq

def Progress.ofState (state : String) : Progress :=
  if isSettledState state then settled else requeue

/-- What a pass asks of the cluster. -/
inductive DependentCall where
  | observe (dependent : DependentSpec)
  | apply (dependent : DependentSpec)
  | delete (dependent : DependentSpec)
  deriving DecidableEq

/-- The answers to the calls: the status of a dependent that may not exist, the status of a
dependent after it has been applied, or what came of a deletion; each may be an error instead. -/
def DependentCall.Answer : DependentCall → Type
  | observe _ => Except Raised (Option DependentStatus)
  | apply _ => Except Raised DependentStatus
  | delete _ => Except Raised DeleteOutcome

/-- A program that calls for dependents. -/
abbrev PassProgram (α : Type) := Dialogue DependentCall DependentCall.Answer α

/-- How a pass ends, and what it has collected. -/
structure PassResult where
  outcome : Except Raised Progress
  draft : StatusDraft

namespace Pass

def observeAll : List DependentSpec → Observed → PassProgram (Except Raised Observed)
  | [], observed => .done (.ok observed)
  | dependent :: rest, observed => .ask (.observe dependent) fun
      | .error error => .done (.error error)
      | .ok status =>
          observeAll rest <| match status with
            | some status => observed.set dependent.kind (some status)
            | none => observed

/-- Applies dependents one after the other and publishes the conditions they report. -/
def applyAll (now : String) : List DependentSpec → Observed → StatusDraft →
    PassProgram (Except Raised Observed × StatusDraft)
  | [], observed, draft => .done (.ok observed, draft)
  | dependent :: rest, observed, draft => .ask (.apply dependent) fun
      | .error error => .done (.error error, draft)
      | .ok status =>
          applyAll now rest (observed.set dependent.kind (some status))
            (draft.publish now dependent.kind (some status)).1

/-- The dependents of a plan that are configured, in an order of kinds. -/
def configured (plan : Plan) (order : List DependentKind) : List DependentSpec :=
  order.filterMap plan.dependent?

def deleteOrder : List DependentKind := [.keydb, .postgres, .nfs]

/-- Ends a pass over a site that should run or be suspended. -/
def finish (plan : Plan) (now : String) (suspending : Bool) (observed : Observed)
    (draft : StatusDraft) : PassResult :=
  let (draft, state) := plan.conclude observed false suspending now draft
  ⟨.ok (Progress.ofState state), draft⟩

def wait (plan : Plan) (now : String) (suspending : Bool) (observed : Observed)
    (draft : StatusDraft) : PassResult :=
  ⟨.ok .requeue, (plan.conclude observed false suspending now draft).1⟩

def supportingReady (plan : Plan) (observed : Observed) : Bool :=
  (configured plan DependentKind.supporting).all fun dependent =>
    isReady (observed.get dependent.kind)

def presentWorkload (plan : Plan) (now : String) (observed : Observed) (draft : StatusDraft) :
    PassProgram PassResult :=
  (applyAll now (configured plan [.moodle]) observed draft).bind fun
    | (.error error, draft) => .done ⟨.error error, draft⟩
    | (.ok observed, draft) => .done (finish plan now false observed draft)

def present (plan : Plan) (now : String) (draft : StatusDraft) : PassProgram PassResult :=
  (observeAll plan.dependents.present .none).bind fun
    | .error error => .done ⟨.error error, draft⟩
    | .ok observed =>
        (applyAll now (configured plan DependentKind.supporting) observed draft).bind fun
          | (.error error, draft) => .done ⟨.error error, draft⟩
          | (.ok observed, draft) =>
              if supportingReady plan observed then presentWorkload plan now observed draft
              else .done (wait plan now false observed draft)

/-- Suspends dependents one after the other, up to the first that has not been suspended yet. -/
def suspendEach (plan : Plan) (now : String) : List DependentSpec → Observed → StatusDraft →
    PassProgram PassResult
  | [], observed, draft => .done (finish plan now true observed draft)
  | dependent :: rest, observed, draft => .ask (.apply dependent.suspended) fun
      | .error error => .done ⟨.error error, draft⟩
      | .ok status =>
          let observed := observed.set dependent.kind (some status)
          let draft := (draft.publish now dependent.kind (some status)).1
          if isSuspended (some status) then suspendEach plan now rest observed draft
          else .done (wait plan now true observed draft)

def suspend (plan : Plan) (now : String) (draft : StatusDraft) : PassProgram PassResult :=
  (observeAll plan.dependents.present .none).bind fun
    | .error error => .done ⟨.error error, draft⟩
    | .ok observed => suspendEach plan now (configured plan suspendOrder) observed draft

/-- Deletes dependents one after the other and says whether any of them may still be around. -/
def deleteAll : List DependentSpec → PassProgram (Except Raised Bool)
  | [] => .done (.ok false)
  | dependent :: rest => .ask (.delete dependent) fun
      | .error error => .done (.error error)
      | .ok outcome => (deleteAll rest).bind fun
          | .error error => .done (.error error)
          | .ok pending => .done (.ok (outcome.isPending || pending))

def finalize (plan : Plan) (now : String) (draft : StatusDraft) : PassProgram PassResult :=
  let draft := (plan.conclude .none true false now draft).1
  (deleteAll (configured plan [.moodle])).bind fun
    | .error error => .done ⟨.error error, draft⟩
    | .ok true => .done ⟨.ok .requeue, draft⟩
    | .ok false => (deleteAll (configured plan deleteOrder)).bind fun
        | .error error => .done ⟨.error error, draft⟩
        | .ok true => .done ⟨.ok .requeue, draft⟩
        | .ok false => .done ⟨.ok .settled, (draft.setTerminated now).1⟩

end Pass

end SiteOperator
