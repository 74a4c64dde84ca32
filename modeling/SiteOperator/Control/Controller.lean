import SiteOperator.Control.Duty
import SiteOperator.Watch.Feed

/-!
# Controllers

A controller follows the collections of its duty, keeps the objects of the main one as its watch
last showed them, and reconciles every key that is due.  Different keys are reconciled side by
side, one request of each in a round; a key that becomes due while it is being reconciled waits.
After a reconcile the next one of the same key is due after the interval that its outcome asks
for.
-/

namespace SiteOperator

/-- A controller at work. -/
structure Controller where
  duty : Duty
  feed : Feed
  /-- The objects of the main collection as they were last seen. -/
  objects : List (WorkKey × Sighting)
  listed : Bool
  queue : WorkQueue
  running : List (WorkKey × Reconcile)

/-- Runs a program up to the answer to its next request, and says what that request has changed. -/
def Environment.advance {α : Type} (env : Environment) :
    EffectProgram α → (EffectProgram α × List Change) × Environment
  | .done result => ((.done result, []), env)
  | .ask (.record measurement) next => (env.record measurement).advance (next ())
  | .ask (.send request) next =>
      let (reply, after) := env.answer (.send request)
      let changes := match request.wire? with
        | some wire => (Change.between? (Cluster.target wire) env.cluster after.cluster).toList
        | none => []
      ((next reply, changes), after)

namespace Controller

def start (duty : Duty) : Controller := ⟨duty, .start duty.collections, [], false, [], []⟩

/-- The object for a key: in the namespace of the key, or else without a namespace. -/
def lookup? (controller : Controller) (key : WorkKey) : Option Sighting :=
  match controller.objects.lookup key with
  | some seen => some seen
  | none => controller.objects.lookup ⟨none, key.name⟩

/-- Keeps an object in place of an earlier one of the same key. -/
def put (objects : List (WorkKey × Sighting)) (seen : Sighting) : List (WorkKey × Sighting) :=
  (seen.ownKey, seen) :: objects.filter fun entry => entry.1 ≠ seen.ownKey

def keep (controller : Controller) : WatchEvent → Controller
  | .listBegins => { controller with objects := [] }
  | .listed seen | .applied seen =>
      { controller with objects := put controller.objects seen }
  | .listEnds => { controller with listed := true }
  | .deleted seen =>
      { controller with
        objects := controller.objects.filter fun entry => entry.1 ≠ seen.ownKey }

/-- The keys that an event makes due.  An object of the main collection that has gone leaves nothing
to reconcile. -/
def dueKeys (controller : Controller) (cache : SiteCache) (event : FeedEvent) : List WorkKey :=
  match event.2 with
  | .listed seen | .applied seen => controller.duty.keys cache seen
  | .deleted seen =>
      if event.1 = controller.duty.main then [] else controller.duty.keys cache seen
  | .listBegins | .listEnds => []

def receive (cache : SiteCache) (time : Nat) (controller : Controller) (event : FeedEvent) :
    Controller :=
  let queue := (controller.dueKeys cache event).foldl
    (fun queue key => queue.schedule key time) controller.queue
  let controller := { controller with queue := queue }
  if event.1 = controller.duty.main then controller.keep event.2 else controller

def busy (controller : Controller) : List WorkKey := controller.running.map (·.1)

/-- Begins the reconciles that are due.  A key without an object is dropped. -/
def beginDue (controller : Controller) (cache : SiteCache) (time : Nat) : Controller :=
  if controller.listed then
    let ready := controller.queue.ready time controller.busy
    let begun := ready.filterMap fun (key, _) => do
      let seen ← controller.lookup? key
      let reconcile ← controller.duty.reconcile cache seen
      return (key, reconcile)
    { controller with
      queue := controller.queue.waiting time controller.busy
      running := controller.running ++ begun }
  else controller

/-- Counts a reconcile that has ended and schedules the next one of its key. -/
def conclude (controller : Controller) (intervals : Intervals) (key : WorkKey)
    (outcome : Except Raised Progress) (env : Environment) : Controller × Environment :=
  let duty := controller.duty
  let (attempt, registry) :=
    Attempt.conclude intervals duty.resource duty.awaited outcome env.registry
  let due := env.time + attempt.requeueAfter * 1000
  ({ controller with queue := controller.queue.schedule key due },
    { env with registry := registry })

/-- Takes each of some reconciles one request further, and says what has changed. -/
def advance (intervals : Intervals) : List (WorkKey × Reconcile) → Controller → Environment →
    (Controller × List Change) × Environment
  | [], controller, env => ((controller, []), env)
  | (key, reconcile) :: rest, controller, env =>
      let ((reconcile, changes), env) := env.advance reconcile
      let (controller, env) := match reconcile with
        | .done outcome => controller.conclude intervals key outcome env
        | .ask _ _ => ({ controller with running := controller.running ++ [(key, reconcile)] }, env)
      let ((controller, later), env) := advance intervals rest controller env
      ((controller, changes ++ later), env)

/-- One round: begins what is due, takes every reconcile one request further, and then reads the
feed.  So a reconcile that is due begins with the object as it was seen before. -/
def round (controller : Controller) (intervals : Intervals) (cache : SiteCache)
    (env : Environment) : (Controller × List Change) × Environment :=
  let controller := controller.beginDue cache env.time
  let ((controller, changes), env) :=
    advance intervals controller.running { controller with running := [] } env
  let ((events, feed), env) := controller.feed.poll env
  ((events.foldl (receive cache env.time) { controller with feed := feed }, changes), env)

def isQuiet (controller : Controller) (time : Nat) : Bool :=
  controller.feed.isQuiet time && controller.running.isEmpty &&
    (!controller.listed || (controller.queue.ready time []).isEmpty)

/-- The times at which a controller with nothing to do has something to do again. -/
def alarms (controller : Controller) : List Nat :=
  controller.feed.resumesAt ::
    if controller.listed then controller.queue.earliest?.toList else []

end Controller

end SiteOperator
