import SiteOperator.Fault
import SiteOperator.Resource.Condition
import SiteOperator.Resource.Template

/-!
# Sites

A site references a template, may override any part of it, and says whether it should run or be
suspended.  Its status collects what its dependents report.
-/

namespace SiteOperator

/-- What a user wants of a site. -/
inductive DesiredState where
  | ready
  | suspended
  deriving DecidableEq

namespace DesiredState

def name : DesiredState → String
  | ready => "Ready"
  | suspended => "Suspended"

def ofName? (name : String) : Option DesiredState :=
  [ready, suspended].find? fun state => state.name = name

/-- Reads a desired state: its name, or an object that holds nothing under that name. -/
def decode : Decoder DesiredState
  | .string name => ofName? name
  | .object [(name, .null)] => ofName? name
  | _ => none

end DesiredState

/-- The spec of a site. -/
structure SiteSpec where
  templateName : String
  desiredState : Option DesiredState
  overrides : SpecBlocks
  deriving DecidableEq

namespace SiteSpec

/-- Reads the spec of a site, whose overrides stand beside its own fields. -/
def decode : Decoder SiteSpec := fun value => do
  let fields ← Decoder.object value
  let templateName ← fields.required "lmsMoodleTemplateName" Decoder.text
  let desiredState ← fields.optional "desiredState" DesiredState.decode
  let overrides ← SpecBlocks.ofFields? fields
  return ⟨templateName, desiredState, overrides⟩

def encode (spec : SiteSpec) : Json :=
  .ofFields
    ([("lmsMoodleTemplateName", .string spec.templateName)] ++
      Json.fieldIf "desiredState" (spec.desiredState.map fun state => .string state.name) ++
      spec.overrides.toFields)

def isSuspended (spec : SiteSpec) : Bool := spec.desiredState = some .suspended

end SiteSpec

/-- The status that the operator publishes for a site. -/
structure SiteStatus where
  conditions : Conditions
  state : Option String
  url : Option String
  storageGb : Option String
  registeredUsers : Option Int
  release : Option String
  deriving DecidableEq

namespace SiteStatus

def empty : SiteStatus := ⟨[], none, none, none, none, none⟩

def decode : Decoder SiteStatus := fun value => do
  let fields ← Decoder.record
    ["conditions", "state", "url", "storageGb", "registeredUsers", "release"] value
  let conditions ← fields.defaulted "conditions" [] (Decoder.list Condition.decode)
  let state ← fields.optional "state" Decoder.text
  let url ← fields.optional "url" Decoder.text
  let storageGb ← fields.optional "storageGb" Decoder.text
  let registeredUsers ← fields.optional "registeredUsers" Decoder.integer64
  let release ← fields.optional "release" Decoder.text
  return ⟨conditions, state, url, storageGb, registeredUsers, release⟩

def encode (status : SiteStatus) : Json :=
  .ofFields
    ([("conditions", .array (status.conditions.map Condition.encode))] ++
      Json.fieldIf "state" (status.state.map .string) ++
      Json.fieldIf "url" (status.url.map .string) ++
      Json.fieldIf "storageGb" (status.storageGb.map .string) ++
      Json.fieldIf "registeredUsers" (status.registeredUsers.map .int) ++
      Json.fieldIf "release" (status.release.map .string))

end SiteStatus

/-- A site. -/
structure Site where
  metadata : ObjectMeta
  spec : SiteSpec
  status : Option SiteStatus
  deriving DecidableEq

namespace Site

/-- The objects by which sites are represented in the cluster. -/
def resourceType : ResourceType :=
  ⟨"lms.krestomat.io", "v1alpha1", "LMSMoodle", "lmsmoodles"⟩

/-- Reads a site: an object, or an array of its three parts. -/
def decode : Decoder Site
  | .object fields => do
      let metadata ← Fields.required fields "metadata" ObjectMeta.decode
      let spec ← Fields.required fields "spec" SiteSpec.decode
      let status ← Fields.optional fields "status" SiteStatus.decode
      return ⟨metadata, spec, status⟩
  | .array [metadata, spec, status] => do
      let metadata ← ObjectMeta.decode metadata
      let spec ← SiteSpec.decode spec
      let status ← Decoder.nullable SiteStatus.decode status
      return ⟨metadata, spec, status⟩
  | _ => none

def name (site : Site) : String := site.metadata.anyName

/-- The owner reference that makes a site the controller of an object; nothing if the site has no
name or no UID. -/
def ownerReference? (site : Site) : Option OwnerReference := do
  let name ← site.metadata.name
  let uid ← site.metadata.uid
  return ⟨resourceType.apiVersion, resourceType.kind, name, uid, some true, none⟩

/-- The owner reference of a site, or the fault that its metadata is incomplete. -/
def ownerReference (site : Site) : Except Fault OwnerReference :=
  match site.ownerReference? with
  | some owner => .ok owner
  | none => .error (.missingMetadata resourceType.kind "uid")

end Site

end SiteOperator
