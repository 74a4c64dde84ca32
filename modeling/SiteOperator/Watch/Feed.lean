import SiteOperator.Watch.Stream

/-!
# Feeds

A feed reads several watches in turn.  When one of them fails, the whole feed pauses: for the same
time after every list that fails, and ever longer while connections keep failing.
-/

namespace SiteOperator

/-- The watches of one reader, how often in a row they have failed, and when the feed goes on, in
milliseconds. -/
structure Feed where
  watches : List Watch
  failures : Nat
  resumesAt : Nat
  deriving DecidableEq

/-- An event with the collection that it comes from. -/
abbrev FeedEvent := Collection × WatchEvent

namespace Feed

def start (collections : List Collection) : Feed := ⟨collections.map Watch.start, 0, 0⟩

def firstPause : Nat := 1200

def longestPause : Nat := 30000

/-- How long the feed pauses after some failures before this one: each pause is twice as long as the
one before. -/
def pause : Nat → Nat
  | 0 => firstPause
  | failures + 1 => min longestPause (2 * pause failures)

/-- Reads watches in turn, up to the first one that fails: the events, the watch that failed, and
the watches afterwards.  A watch that has failed comes last from then on, so that it does not keep
the others from being read. -/
def pollAll : List Watch → Environment →
    (List FeedEvent × Option Watch × List Watch) × Environment
  | [], env => (([], none, []), env)
  | watch :: rest, env =>
      if watch.isQuiet then
        let ((events, failed, rest), env) := pollAll rest env
        ((events, failed, watch :: rest), env)
      else
        let (report, env) := watch.poll env
        let events := report.events.map fun event => (watch.collection, event)
        if report.failed then ((events, some report.watch, rest ++ [report.watch]), env)
        else
          let ((later, failed, rest), env) := pollAll rest env
          ((events ++ later, failed, report.watch :: rest), env)

def isQuiet (feed : Feed) (time : Nat) : Bool :=
  time < feed.resumesAt || feed.watches.all Watch.isQuiet

def poll (feed : Feed) (env : Environment) : (List FeedEvent × Feed) × Environment :=
  if env.time < feed.resumesAt then (([], feed), env)
  else
    let ((events, failed, watches), env) := pollAll feed.watches env
    let failures := if events.isEmpty then feed.failures else 0
    match failed with
    | none => ((events, ⟨watches, failures, feed.resumesAt⟩), env)
    | some watch =>
        let failures := if watch.stage = .unlisted then 0 else failures
        ((events, ⟨watches, failures + 1, env.time + pause failures⟩), env)

def notify (feed : Feed) (change : Change) : Feed :=
  { feed with watches := feed.watches.map fun watch => watch.notify change }

/-- Ends the connections by which the feed follows a collection. -/
def close (feed : Feed) (path : String) (expired : Bool) : Feed :=
  { feed with watches := feed.watches.map fun watch =>
      if watch.collection.type.path = path then watch.close expired else watch }

end Feed

end SiteOperator
