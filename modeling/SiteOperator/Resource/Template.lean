import SiteOperator.Dependent.Kind
import SiteOperator.Resource.Meta

/-!
# Templates

A template holds the baseline spec block of each kind of dependent.  A site carries blocks of the
same layout, which override those of its template.
-/

namespace SiteOperator

/-- A spec block for each kind that has one, and whether the default network policies are left
out. -/
structure SpecBlocks where
  blocks : PerKind (Option Fields)
  omitPolicies : Option Bool
  deriving DecidableEq

namespace SpecBlocks

def empty : SpecBlocks := ⟨.const none, none⟩

/-- The key of the switch that leaves out the default network policies. -/
def omitPoliciesKey : String := "lmsMoodleNetpolOmit"

def ofFields? (fields : Fields) : Option SpecBlocks := do
  let moodle ← fields.optional DependentKind.moodle.specKey Decoder.object
  let postgres ← fields.optional DependentKind.postgres.specKey Decoder.object
  let keydb ← fields.optional DependentKind.keydb.specKey Decoder.object
  let nfs ← fields.optional DependentKind.nfs.specKey Decoder.object
  let omitPolicies ← fields.optional omitPoliciesKey Decoder.flag
  return ⟨⟨moodle, postgres, keydb, nfs⟩, omitPolicies⟩

def decode : Decoder SpecBlocks := fun value =>
  (Decoder.record (DependentKind.all.map DependentKind.specKey ++ [omitPoliciesKey]) value).bind
    ofFields?

def toFields (spec : SpecBlocks) : List (String × Json) :=
  (DependentKind.all.flatMap fun kind =>
    Json.fieldIf kind.specKey ((spec.blocks.get kind).map .object)) ++
    Json.fieldIf omitPoliciesKey (spec.omitPolicies.map .bool)

def encode (spec : SpecBlocks) : Json := .ofFields spec.toFields

end SpecBlocks

/-- The status that the operator publishes for a template. -/
structure TemplateStatus where
  state : Option String
  sites : List String
  siteCount : Int
  deriving DecidableEq

namespace TemplateStatus

def decode : Decoder TemplateStatus := fun value => do
  let fields ← Decoder.record ["state", "lmsMoodles", "lmsMoodleCount"] value
  let state ← fields.optional "state" Decoder.text
  let sites ← fields.defaulted "lmsMoodles" [] (Decoder.list Decoder.text)
  let siteCount ← fields.defaulted "lmsMoodleCount" 0 Decoder.integer64
  return ⟨state, sites, siteCount⟩

def encode (status : TemplateStatus) : Json :=
  .ofFields
    (Json.fieldIf "state" (status.state.map .string) ++
      [("lmsMoodles", .strings status.sites), ("lmsMoodleCount", .int status.siteCount)])

end TemplateStatus

/-- A template. -/
structure Template where
  metadata : ObjectMeta
  spec : SpecBlocks
  status : Option TemplateStatus
  deriving DecidableEq

namespace Template

/-- The objects by which templates are represented in the cluster. -/
def resourceType : ResourceType :=
  ⟨"lms.krestomat.io", "v1alpha1", "LMSMoodleTemplate", "lmsmoodletemplates"⟩

/-- Reads a template: an object, or an array of its three parts. -/
def decode : Decoder Template
  | .object fields => do
      let metadata ← Fields.required fields "metadata" ObjectMeta.decode
      let spec ← Fields.required fields "spec" SpecBlocks.decode
      let status ← Fields.optional fields "status" TemplateStatus.decode
      return ⟨metadata, spec, status⟩
  | .array [metadata, spec, status] => do
      let metadata ← ObjectMeta.decode metadata
      let spec ← SpecBlocks.decode spec
      let status ← Decoder.nullable TemplateStatus.decode status
      return ⟨metadata, spec, status⟩
  | _ => none

end Template

end SiteOperator
