import SiteOperator.Cluster.Store
import SiteOperator.Json.Reader
import SiteOperator.Metrics.Registry

/-!
# Tasks in a cluster

An environment is a cluster with its disruptions, the metrics of the operator and the requests that
have been answered so far.  It answers all effects of a task.
-/

namespace SiteOperator

/-- A request with the code of its answer and the time at which it was sent, in milliseconds. -/
structure Exchange where
  request : WireRequest
  code : Nat
  time : Nat
  deriving DecidableEq

/-- Everything that a task acts on. -/
structure Environment where
  cluster : Cluster
  disruptions : List Disruption
  registry : Registry
  exchanges : List Exchange
  time : Nat
  /-- Whether objects without finalizers go once they are being deleted. -/
  collects : Bool
  deriving DecidableEq

namespace Environment

def disrupt (verb : Verb) (path : String) (env : Environment) :
    Option DisruptedReply × Environment :=
  match Disruption.take? verb path env.time env.disruptions with
  | some (reply, disruptions) => (some reply, { env with disruptions := disruptions })
  | none => (none, env)

def note (request : WireRequest) (code : Nat) (env : Environment) : Environment :=
  { env with exchanges := ⟨request, code, env.time⟩ :: env.exchanges }

def exchange (request : WireRequest) (env : Environment) : Reply × Environment :=
  let (reply, env) := match env.disrupt request.verb request.path with
    | (some reply, env) => (reply.toReply Json.parse?, env)
    | (none, env) =>
        let (reply, cluster) := env.cluster.answer env.collects request
        (reply, { env with cluster := cluster })
  (reply, env.note request reply.code)

def record (measurement : Measurement) (env : Environment) : Environment :=
  { env with registry := match measurement with
    | .applied kind => env.registry.count (.applied kind)
    | .deleted kind => env.registry.count (.deleted kind)
    | .references template sites => env.registry.setReferences template sites }

def answer : (effect : Effect) → Environment → effect.Answer × Environment
  | .send request, env => match request.wire? with
      | some request => env.exchange request
      | none => (.failure .notFound, env)
  | .record measurement, env => ((), env.record measurement)

def run {α : Type} (env : Environment) (task : Task α) : Except Raised α × Environment :=
  Dialogue.run answer task.run env

end Environment

end SiteOperator
