import SiteOperator.Cluster.Task
import SiteOperator.Pass
import SiteOperator.Resource.Objects
import SiteOperator.Resource.Shape

/-!
# Acting on the objects of a site

Objects are created only if they do not exist, dependents are applied whatever they hold, and an
object is deleted only if its controller is the site and it is not going already.
-/

namespace SiteOperator

namespace Task

/-- Creates an object unless one of that name exists, and says whether it did. -/
def createMissing (object : Locator) (shapes : List (String × Shape)) (body : Json) :
    Task Bool := do
  let read := Decoder.typedMeta object.type shapes
  match ← find? object read with
  | some _ => pure false
  | none =>
      let _ ← within ("failed to create " ++ object.name) (request (.create object body) read)
      pure true

end Task

namespace ObjectMeta

/-- What becomes of an object that must not be deleted for an owner; nothing if it may be
deleted. -/
def deleteRefusal? (data : ObjectMeta) (uid : String) : Option DeleteOutcome :=
  if data.isTerminating then some .alreadyDeleting
  else if data.ownedBy uid then none
  else some .notOwned

end ObjectMeta

namespace Task

def deleteOwned (object : Locator) (kind : String) (uid : String) (read : Decoder ObjectMeta) :
    Task DeleteOutcome := do
  match ← find? object read with
  | none => pure .notFound
  | some data => match data.deleteRefusal? uid with
      | some outcome => pure outcome
      | none =>
          let found ← within ("failed to delete " ++ kind ++ " " ++ object.name)
            (remove object read)
          pure (if found then .deleted else .notFound)

end Task

/-- In whose name the dependents of a site are applied. -/
structure SiteOwner where
  reference : OwnerReference
  labels : Entries String
  manager : String
  deriving DecidableEq

namespace SiteOwner

def dependentStatus : Decoder DependentStatus := fun value =>
  (Decoder.anyMeta value).map fun _ => DependentStatus.ofObject value

def observe (dependent : DependentSpec) : Task (Option DependentStatus) :=
  Task.find? dependent.locator dependentStatus

def apply (owner : SiteOwner) (dependent : DependentSpec) : Task DependentStatus := do
  let body := dependent.object owner.reference owner.labels
  let status ← Task.within ("failed to apply " ++ dependent.name)
    (Task.request (.apply dependent.locator owner.manager body) dependentStatus)
  Task.record (.applied dependent.kind.name)
  pure status

def delete (owner : SiteOwner) (dependent : DependentSpec) : Task DeleteOutcome := do
  let outcome ← Task.deleteOwned dependent.locator dependent.kind.name owner.reference.uid
    Decoder.anyMeta
  if outcome = .deleted then Task.record (.deleted dependent.kind.name)
  pure outcome

def perform (owner : SiteOwner) : (call : DependentCall) → EffectProgram call.Answer
  | .observe dependent => (observe dependent).run
  | .apply dependent => (owner.apply dependent).run
  | .delete dependent => (owner.delete dependent).run

def runPass (owner : SiteOwner) (pass : PassProgram PassResult) :
    Task (Progress × StatusDraft) :=
  ExceptT.mk <| (pass.translate owner.perform).bind fun result => .done <|
    match result.outcome with
    | .ok progress => .ok (progress, result.draft)
    | .error error => .error error

end SiteOwner

end SiteOperator
