import SiteOperator.Cluster.Task

/-!
# A cluster that holds objects

`Cluster` keeps objects by their paths and answers requests as the API does, as far as the operator
depends on it.  It checks no object and adds nothing to one but the time of its deletion: what is
created is stored as it was sent, what is applied takes the place of the whole object but for its
status, and there are neither versions nor managers of fields.  A disruption takes the place of these
rules for the requests that it matches.
-/

namespace SiteOperator

namespace Json

mutual

/-- Merges a patch into a value: an object is merged field by field, a null removes a field, and any
other value takes the place of what was there. -/
def mergePatch : Json → Json → Json
  | .object patch, target => .object (mergePatchFields patch (target.fields?.getD []))
  | value, _ => value

/-- Merges the fields of a patch into those of an object. -/
def mergePatchFields : List (String × Json) → Fields → Fields
  | [], target => target
  | (key, value) :: rest, target =>
      mergePatchFields rest <|
        if value.isNull then target.remove key
        else target.put key (mergePatch value ((target.at? key).getD .null))

end

end Json

/-- The objects of a cluster by their paths. -/
structure Cluster where
  objects : Entries Json
  deriving DecidableEq

def ApiStatus.notFound : ApiStatus := ⟨404, "NotFound"⟩

def ApiStatus.alreadyExists : ApiStatus := ⟨409, "AlreadyExists"⟩

namespace Cluster

def empty : Cluster := ⟨[]⟩

def object? (cluster : Cluster) (path : String) : Option Json := cluster.objects.at? path

def store (cluster : Cluster) (path : String) (object : Json) : Cluster :=
  ⟨cluster.objects.put path object⟩

def remove (cluster : Cluster) (path : String) : Cluster := ⟨cluster.objects.remove path⟩

/-- Merges a patch into the object at a path, which starts as null if there is none. -/
def merge (cluster : Cluster) (path : String) (patch : Json) : Cluster :=
  cluster.store path (patch.mergePatch ((cluster.object? path).getD .null))

def hasFinalizers (object : Json) : Bool :=
  match (object.field "metadata").field "finalizers" with
  | .array (_ :: _) => true
  | _ => false

def isTerminating (object : Json) : Bool :=
  !((object.field "metadata").field "deletionTimestamp").isNull

def deletionTime : String := "2025-01-01T00:00:00Z"

def deletedStatus : Json :=
  .ofFields [("apiVersion", .string "v1"), ("kind", .string "Status"),
    ("status", .string "Success")]

/-- The path of the object that a path leads to, also through its status. -/
def objectPath (path : String) : String :=
  let ending := "/status".toList
  let cs := path.toList
  if ending.isSuffixOf cs then String.ofList (cs.take (cs.length - ending.length)) else path

/-- Stores what a patch has made of an object.  An object that is being deleted goes with its last
finalizer, if the cluster sees to that. -/
def storePatched (cluster : Cluster) (collects : Bool) (path : String) (object : Json) :
    Cluster :=
  if collects && isTerminating object && !hasFinalizers object then cluster.remove path
  else cluster.store path object

/-- The object as it is stored when it is applied.  The status of an earlier object stays and nothing
else of it: fields that others manage are not kept, which they would be by a server. -/
def applied (earlier : Option Json) (body : Json) : Json :=
  let status := ((earlier.bind Json.fields?).bind fun fields => Entries.at? fields "status")
  match status, body with
  | some status, .object fields => .object (Entries.put fields "status" status)
  | _, _ => body

def target (request : WireRequest) : String :=
  match request.verb, request.body with
  | .post, some (_, body) => match (body.field "metadata").field "name" with
      | .string name => request.path ++ "/" ++ name
      | _ => request.path ++ "/"
  | .patch, some (.applyPatch, _) => request.path
  | .patch, _ => objectPath request.path
  | _, _ => request.path

/-- Answers a request, by the simplified rules of this cluster.  `collects` says whether objects
without finalizers go once they are being deleted. -/
def answer (collects : Bool) (request : WireRequest) (cluster : Cluster) : Reply × Cluster :=
  let path := target request
  let body := match request.body with
    | some (_, body) => body
    | none => .null
  match request.verb, cluster.object? path with
  | .post, some _ => (.failure .alreadyExists, cluster)
  | .post, none => (.success 201 (some body), cluster.store path body)
  | .patch, earlier =>
      if request.body.map (·.1) = some .applyPatch then
        let object := applied earlier body
        (.success 200 (some object), cluster.store path object)
      else match earlier with
        | none => (.failure .notFound, cluster)
        | some object =>
            let object := body.mergePatch object
            (.success 200 (some object), cluster.storePatched collects path object)
  | .delete, some object =>
      let cluster :=
        if hasFinalizers object then
          cluster.merge path
            (.ofFields [("metadata", .ofFields [("deletionTimestamp", .string deletionTime)])])
        else cluster.remove path
      (.success 200 (some deletedStatus), cluster)
  | .get, some object | .list, some object | .watch, some object =>
      (.success 200 (some object), cluster)
  | _, none => (.failure .notFound, cluster)

end Cluster

/-- What a disrupted request is answered. -/
inductive DisruptedReply where
  | status (status : ApiStatus)
  | raw (text : String)
  deriving DecidableEq

/-- A disruption: the requests that it matches, what they are answered, how many of them it still
answers, and the second from which on it answers none. -/
structure Disruption where
  verb : Verb
  path : Option String
  reply : DisruptedReply
  remaining : Option Nat
  ends : Option Nat
  deriving DecidableEq

namespace Disruption

/-- Whether a disruption answers a request that is sent at some time, in milliseconds. -/
def covers (disruption : Disruption) (verb : Verb) (path : String) (time : Nat) : Bool :=
  disruption.verb = verb && (disruption.path = none || disruption.path = some path) &&
    disruption.remaining ≠ some 0 &&
    match disruption.ends with
    | some second => time < second * 1000
    | none => true

/-- The first disruption that answers a request, and the disruptions that are left after it. -/
def take? (verb : Verb) (path : String) (time : Nat) :
    List Disruption → Option (DisruptedReply × List Disruption)
  | [] => none
  | disruption :: rest =>
      if disruption.covers verb path time then
        some (disruption.reply,
          { disruption with remaining := disruption.remaining.map (· - 1) } :: rest)
      else (take? verb path time rest).map fun (reply, rest) => (reply, disruption :: rest)

end Disruption

def DisruptedReply.toReply (parse : String → Option Json) : DisruptedReply → Reply
  | .status refusal => .failure refusal
  | .raw body => .success 200 (parse body)

end SiteOperator
