import SiteOperator.Metrics.Exposition

/-!
# Health

The operator answers probes and shows its metrics.  It is alive while it answers, and ready once the
cache of sites is complete.
-/

namespace SiteOperator

/-- The answer to a request for the state of the operator. -/
structure HealthReply where
  code : Nat
  contentType : Option String
  body : String
  deriving DecidableEq

namespace HealthReply

def plain (code : Nat) (body : String) : HealthReply :=
  ⟨code, some "text/plain; charset=utf-8", body⟩

def bare (code : Nat) : HealthReply := ⟨code, none, ""⟩

def metrics (registry : Registry) : HealthReply :=
  ⟨200, some "text/plain; version=0.0.4; charset=utf-8", Exposition.text registry⟩

end HealthReply

namespace Health

/-- The path of a target: what stands before a query and before a fragment. -/
def pathOf (target : String) : String :=
  String.ofList ((target.toList.takeWhile (· ≠ '#')).takeWhile (· ≠ '?'))

def page? (ready : Bool) (registry : Registry) (path : String) : Option HealthReply :=
  if path = "/healthz" then some (.plain 200 "ok")
  else if path = "/readyz" then
    some (if ready then .plain 200 "ready" else .plain 503 "not ready")
  else if path = "/metrics" then some (.metrics registry)
  else none

/-- Answers a request.  Pages can only be read, with or without their text. -/
def answer (ready : Bool) (registry : Registry) (method target : String) : HealthReply :=
  match page? ready registry (pathOf target) with
  | none => .bare 404
  | some page =>
      if method = "GET" then page
      else if method = "HEAD" then { page with body := "" }
      else .bare 405

end Health

end SiteOperator
