import SiteOperator.Control.Controller

/-!
# The operator

The operator consists of a feed of all sites, from which the cache of sites is kept, and of one
controller for sites and one for templates, which begin once the cache is complete.  They work in
rounds on one cluster; rounds take no time.  When nothing is left to do, the clock moves on to the
next time at which something is due.
-/

namespace SiteOperator

/-- The parts of the operator that can be run. -/
inductive OperatorPart where
  | siteCache
  | sites
  | templates
  deriving DecidableEq

/-- The operator at work in an environment. -/
structure Operator where
  environment : Environment
  intervals : Intervals
  siteFeed : Option Feed
  cache : SiteCache
  controllers : List Controller

def WatchEvent.cacheEvent? : WatchEvent → Option CacheEvent
  | .listBegins => some .listBegins
  | .listed (.site site) => some (.listed site)
  | .listEnds => some .listEnds
  | .applied (.site site) => some (.applied site)
  | .deleted (.site site) => some (.deleted site)
  | _ => none

namespace Operator

/-- The operator with some of its parts, before anything has happened. -/
def start (parts : List OperatorPart) (intervals : Intervals) (manager now : String)
    (environment : Environment) : Operator where
  environment := environment
  intervals := intervals
  siteFeed := if parts.contains .siteCache then some (.start [.sites]) else none
  cache := .empty
  controllers :=
    (if parts.contains .sites then [.start (.sites manager now)] else []) ++
      if parts.contains .templates then [.start .templates] else []

/-- Whether the operator reports that it is ready: a controller has seen that the cache is
complete. -/
def ready (operator : Operator) : Bool :=
  operator.cache.synced && !operator.controllers.isEmpty

def working (operator : Operator) : List Controller :=
  if operator.cache.synced then operator.controllers else []

def notify (operator : Operator) (change : Change) : Operator :=
  { operator with
    siteFeed := operator.siteFeed.map fun feed => feed.notify change
    controllers := operator.controllers.map fun controller =>
      { controller with feed := controller.feed.notify change } }

def readSites (operator : Operator) : Operator :=
  match operator.siteFeed with
  | none => operator
  | some feed =>
      let ((events, feed), environment) := feed.poll operator.environment
      { operator with
        environment := environment
        siteFeed := some feed
        cache := (events.filterMap fun event => event.2.cacheEvent?).foldl SiteCache.receive
          operator.cache }

def roundAll (intervals : Intervals) (cache : SiteCache) : List Controller → Environment →
    (List Controller × List Change) × Environment
  | [], env => (([], []), env)
  | controller :: rest, env =>
      let ((controller, changes), env) := controller.round intervals cache env
      let ((rest, later), env) := roundAll intervals cache rest env
      ((controller :: rest, changes ++ later), env)

/-- A round: first the cache, then the controllers, and then every watch hears what has
changed. -/
def round (operator : Operator) : Operator :=
  let operator := operator.readSites
  if operator.cache.synced then
    let ((controllers, changes), environment) :=
      roundAll operator.intervals operator.cache operator.controllers operator.environment
    changes.foldl notify { operator with controllers := controllers, environment := environment }
  else operator

def isQuiet (operator : Operator) : Bool :=
  let time := operator.environment.time
  (operator.siteFeed.all fun feed => feed.isQuiet time) &&
    operator.working.all fun controller => controller.isQuiet time

/-- The next time after the present one at which there is something to do. -/
def nextAlarm? (operator : Operator) : Option Nat :=
  let alarms := operator.siteFeed.toList.map Feed.resumesAt ++
    operator.working.flatMap Controller.alarms
  (alarms.filter fun time => decide (operator.environment.time < time)).min?

def setTime (operator : Operator) (time : Nat) : Operator :=
  { operator with environment := { operator.environment with time := time } }

/-- Works until the clock shows a time, for at most so many rounds.  What becomes due at that time
itself is left for later, so that whoever acts then acts first. -/
def workUntil (time : Nat) : Nat → Operator → Operator
  | 0, operator => operator
  | rounds + 1, operator =>
      if time ≤ operator.environment.time then operator
      else if operator.isQuiet then
        workUntil time rounds (operator.setTime (min time (operator.nextAlarm?.getD time)))
      else workUntil time rounds operator.round

def edit (operator : Operator) (path : String) (change : Cluster → Cluster) : Operator :=
  let before := operator.environment.cluster
  let after := change before
  let operator := { operator with environment := { operator.environment with cluster := after } }
  (Change.between? path before after).toList.foldl notify operator

/-- Ends every connection by which a collection is followed. -/
def close (operator : Operator) (path : String) (expired : Bool) : Operator :=
  { operator with
    siteFeed := operator.siteFeed.map fun feed => feed.close path expired
    controllers := operator.controllers.map fun controller =>
      { controller with feed := controller.feed.close path expired } }

end Operator

end SiteOperator
