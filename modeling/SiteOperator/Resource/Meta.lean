import SiteOperator.Json.Decode
import SiteOperator.Resource.Timestamp

/-!
# Metadata of objects

The part of an object's metadata that the operator looks at, and owner references.  The controller
of an object is the first owner reference that says so; an object is owned by whoever has the
controller's UID.
-/

namespace SiteOperator

/-- A reference from an object to one of its owners. -/
structure OwnerReference where
  apiVersion : String
  kind : String
  name : String
  uid : String
  controller : Option Bool
  blockOwnerDeletion : Option Bool
  deriving DecidableEq

namespace OwnerReference

/-- Reads an owner reference; a text that is missing is empty. -/
def decode : Decoder OwnerReference := fun value => do
  let fields ← Decoder.object value
  let apiVersion ← fields.optional "apiVersion" Decoder.text
  let kind ← fields.optional "kind" Decoder.text
  let name ← fields.optional "name" Decoder.text
  let uid ← fields.optional "uid" Decoder.text
  let controller ← fields.optional "controller" Decoder.flag
  let blockOwnerDeletion ← fields.optional "blockOwnerDeletion" Decoder.flag
  return ⟨apiVersion.getD "", kind.getD "", name.getD "", uid.getD "", controller,
    blockOwnerDeletion⟩

def encode (owner : OwnerReference) : Json :=
  .ofFields
    ([("apiVersion", .string owner.apiVersion), ("kind", .string owner.kind),
      ("name", .string owner.name), ("uid", .string owner.uid)] ++
      Json.fieldIf "controller" (owner.controller.map .bool) ++
      Json.fieldIf "blockOwnerDeletion" (owner.blockOwnerDeletion.map .bool))

/-- Whether the reference names the controller of the object. -/
def isController (owner : OwnerReference) : Bool := owner.controller = some true

end OwnerReference

/-- The metadata of an object. -/
structure ObjectMeta where
  name : Option String
  generateName : Option String
  namespaceName : Option String
  uid : Option String
  labels : Option (Entries String)
  finalizers : Option (List String)
  ownerReferences : Option (List OwnerReference)
  deletionTimestamp : Option String
  deriving DecidableEq

namespace ObjectMeta

def empty : ObjectMeta := ⟨none, none, none, none, none, none, none, none⟩

def timestamp : Decoder String := fun value =>
  (Decoder.text value).bind fun s => if Timestamp.isValid s then some s else none

/-- Reads metadata.  Fields that the operator does not look at must still have the right type. -/
def decode : Decoder ObjectMeta := fun value => do
  let fields ← Decoder.object value
  let name ← fields.optional "name" Decoder.text
  let generateName ← fields.optional "generateName" Decoder.text
  let namespaceName ← fields.optional "namespace" Decoder.text
  let uid ← fields.optional "uid" Decoder.text
  let labels ← fields.optional "labels" (Decoder.map Decoder.text)
  let finalizers ← fields.optional "finalizers" (Decoder.list Decoder.text)
  let ownerReferences ← fields.optional "ownerReferences" (Decoder.list OwnerReference.decode)
  let deletionTimestamp ← fields.optional "deletionTimestamp" timestamp
  let _ ← fields.optional "annotations" (Decoder.map Decoder.text)
  let _ ← fields.optional "creationTimestamp" timestamp
  let _ ← fields.optional "deletionGracePeriodSeconds" Decoder.integer64
  let _ ← fields.optional "generation" Decoder.integer64
  let _ ← fields.optional "managedFields" (Decoder.list Decoder.object)
  let _ ← fields.optional "resourceVersion" Decoder.text
  let _ ← fields.optional "selfLink" Decoder.text
  return ⟨name, generateName, namespaceName, uid, labels, finalizers, ownerReferences,
    deletionTimestamp⟩

def encode (data : ObjectMeta) : Json :=
  .ofFields
    (Json.fieldIf "name" (data.name.map .string) ++
      Json.fieldIf "generateName" (data.generateName.map .string) ++
      Json.fieldIf "namespace" (data.namespaceName.map .string) ++
      Json.fieldIf "uid" (data.uid.map .string) ++
      Json.fieldIf "labels" (data.labels.map .textMap) ++
      Json.fieldIf "finalizers" (data.finalizers.map .strings) ++
      Json.fieldIf "ownerReferences"
        (data.ownerReferences.map fun owners => .array (owners.map OwnerReference.encode)) ++
      Json.fieldIf "deletionTimestamp" (data.deletionTimestamp.map .string))

/-- The name of the object: its own, or else the start of a generated one, or else nothing. -/
def anyName (data : ObjectMeta) : String :=
  match data.name with
  | some name => name
  | none => data.generateName.getD ""

def isTerminating (data : ObjectMeta) : Bool := data.deletionTimestamp.isSome

def controller? (data : ObjectMeta) : Option OwnerReference :=
  (data.ownerReferences.getD []).find? OwnerReference.isController

def ownedBy (data : ObjectMeta) (uid : String) : Bool :=
  match data.controller? with
  | some owner => owner.uid = uid
  | none => false

def finalizerList (data : ObjectMeta) : List String := data.finalizers.getD []

def hasFinalizer (data : ObjectMeta) (finalizer : String) : Bool :=
  data.finalizerList.contains finalizer

/-- The finalizers with one more at the end; nothing if it is there already. -/
def finalizersWith? (data : ObjectMeta) (finalizer : String) : Option (List String) :=
  if data.hasFinalizer finalizer then none else some (data.finalizerList ++ [finalizer])

/-- The finalizers without one of them; nothing if it is not there. -/
def finalizersWithout? (data : ObjectMeta) (finalizer : String) : Option (List String) :=
  if data.hasFinalizer finalizer then some (data.finalizerList.filter (· ≠ finalizer)) else none

/-- The metadata with one owner, its controller, and with the given labels. -/
def withOwnerAndLabels (data : ObjectMeta) (owner : OwnerReference) (labels : Entries String) :
    ObjectMeta :=
  { data with ownerReferences := some [owner], labels := some labels }

end ObjectMeta

end SiteOperator
