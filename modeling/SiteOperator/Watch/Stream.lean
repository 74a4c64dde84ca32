import SiteOperator.Cluster.Environment
import SiteOperator.Watch.Collection

/-!
# Watches

A watch lists its collection once and then follows it: every change of an object of the collection
becomes one event, in order.  Changes gather in the inbox of the watch from its list on, so none
is lost while the watch is not connected.  A watch that is told that its version has expired
forgets its inbox and lists again.
-/

namespace SiteOperator

/-- A change of the object at a path: what was there before and what is there now. -/
structure Change where
  path : String
  before : Option Json
  after : Option Json
  deriving DecidableEq

/-- The change at a path between two states of a cluster, if there is one. -/
def Change.between? (path : String) (before after : Cluster) : Option Change :=
  if before.object? path = after.object? path then none
  else some ⟨path, before.object? path, after.object? path⟩

/-- What a watch tells its reader. -/
inductive WatchEvent where
  | listBegins
  | listed (seen : Sighting)
  | listEnds
  | applied (seen : Sighting)
  | deleted (seen : Sighting)
  deriving DecidableEq

/-- What waits in the inbox of a watch. -/
inductive Notice where
  | changed (change : Change)
  | line (text : String)
  | closed
  /-- The version from which the watch follows has expired. -/
  | expired
  deriving DecidableEq

/-- How far a watch has come: it has no list, it has one, or it is connected. -/
inductive WatchStage where
  | unlisted
  | listed
  | connected
  deriving DecidableEq

/-- What a line of a watch says. -/
inductive WatchLine where
  | event (event : WatchEvent)
  /-- Nothing that the reader has to know: a bookmark, or a line that breaks off. -/
  | silent
  | expired
  | unreadable
  deriving DecidableEq

namespace WatchLine

def ofText (collection : Collection) (text : String) : WatchLine :=
  match Json.parse text with
  | .error .unfinished => silent
  | .error .malformed => unreadable
  | .ok value =>
      let object := value.field "object"
      let telling (event : Sighting → WatchEvent) : WatchLine :=
        match collection.read object with
        | none => unreadable
        | some seen => match (object.field "metadata").field "resourceVersion" with
            | .string "" => expired
            | .string _ => .event (event seen)
            | _ => expired
      match value.field "type" with
      | .string "ADDED" | .string "MODIFIED" => telling .applied
      | .string "DELETED" => telling .deleted
      | .string "BOOKMARK" => silent
      | .string "ERROR" => if object.field "code" = .int 410 then expired else unreadable
      | _ => unreadable

end WatchLine

/-- A watch of a collection. -/
structure Watch where
  collection : Collection
  stage : WatchStage
  inbox : List Notice
  deriving DecidableEq

/-- What a watch has to tell, whether something went wrong after that, and the watch afterwards. -/
structure WatchReport where
  events : List WatchEvent
  failed : Bool
  watch : Watch
  deriving DecidableEq

namespace Watch

def start (collection : Collection) : Watch := ⟨collection, .unlisted, []⟩

/-- Puts a change into the inbox, if it is one of the collection that the list does not show yet. -/
def notify (watch : Watch) (change : Change) : Watch :=
  if watch.stage ≠ .unlisted && watch.collection.holds change.path then
    { watch with inbox := watch.inbox ++ [.changed change] }
  else watch

/-- Ends the connection of the watch, if it is connected. -/
def close (watch : Watch) (expired : Bool) : Watch :=
  if watch.stage = .connected then
    { watch with inbox := watch.inbox ++ [if expired then .expired else .closed] }
  else watch

def isQuiet (watch : Watch) : Bool := watch.stage = .connected && watch.inbox.isEmpty

def eventOf? (collection : Collection) (change : Change) : Option WatchEvent :=
  match change.before, change.after with
  | _, some object => (collection.read object).map .applied
  | some object, none => (collection.read object).map .deleted
  | none, none => none

def failure (watch : Watch) : WatchReport := ⟨[], true, watch⟩

/-- The report of a watch with one more event at its beginning. -/
def reportAfter (event : WatchEvent) (report : WatchReport) : WatchReport :=
  { report with events := event :: report.events }

/-- Reads an inbox up to the first notice that ends the connection or that cannot be read. -/
def readInbox (collection : Collection) : List Notice → WatchReport
  | [] => ⟨[], false, ⟨collection, .connected, []⟩⟩
  | .changed change :: rest => match eventOf? collection change with
      | some event => reportAfter event (readInbox collection rest)
      | none => failure ⟨collection, .connected, rest⟩
  | .line text :: rest => match WatchLine.ofText collection text with
      | .event event => reportAfter event (readInbox collection rest)
      | .silent => readInbox collection rest
      | .expired => failure (start collection)
      | .unreadable => failure ⟨collection, .connected, rest⟩
  | .closed :: rest => ⟨[], false, ⟨collection, .listed, rest⟩⟩
  | .expired :: _ => failure (start collection)

/-- The request by which the watch lists or follows its collection. -/
def request (watch : Watch) (verb : Verb) : WireRequest :=
  ⟨verb, watch.collection.type.path, none, none⟩

def listReport (collection : Collection) : Option (List Sighting) → WatchReport
  | some sightings =>
      ⟨[.listBegins] ++ sightings.map .listed ++ [.listEnds], false, ⟨collection, .listed, []⟩⟩
  | none => failure (start collection)

def list (watch : Watch) (env : Environment) : WatchReport × Environment :=
  let collection := watch.collection
  let request := watch.request .list
  match env.disrupt .list request.path with
  | (some (.status status), env) => (failure watch, env.note request status.code)
  | (some (.raw text), env) =>
      (listReport collection ((Json.parse? text).bind collection.readList), env.note request 200)
  | (none, env) =>
      (listReport collection ((collection.objects env.cluster.objects).mapM collection.read),
        env.note request 200)

def connect (watch : Watch) (env : Environment) : WatchReport × Environment :=
  let request := watch.request .watch
  match env.disrupt .watch request.path with
  | (some (.status status), env) => (failure watch, env.note request status.code)
  | (some (.raw text), env) =>
      let lines := (text.splitOn "\n").map Notice.line
      (⟨[], false, ⟨watch.collection, .connected, lines ++ [.closed] ++ watch.inbox⟩⟩,
        env.note request 200)
  | (none, env) =>
      (⟨[], false, { watch with stage := .connected }⟩, env.note request 200)

/-- Takes the watch one stage further, or reads its inbox. -/
def poll (watch : Watch) (env : Environment) : WatchReport × Environment :=
  match watch.stage with
  | .unlisted => watch.list env
  | .listed => watch.connect env
  | .connected => (readInbox watch.collection watch.inbox, env)

end Watch

end SiteOperator
