import SiteOperator.Resource.Condition

/-!
# What dependents report

The status that the controller of a dependent publishes, as far as the operator reads it.  The
workload also reports its address, its release and how much is used of what.
-/

namespace SiteOperator

/-- One quantity that the workload reports. -/
structure UsageItem where
  name : String
  value : Json
  deriving DecidableEq

namespace UsageItem

def decode : Decoder UsageItem := fun value => do
  let fields ← Decoder.record ["name", "value"] value
  let name ← fields.required "name" Decoder.text
  let value ← fields.defaulted "value" .null Decoder.anything
  return ⟨name, value⟩

def encode (item : UsageItem) : Json :=
  .ofFields [("name", .string item.name), ("value", item.value)]

end UsageItem

/-- The version that the workload reports. -/
structure WorkloadVersion where
  release : Option String
  deriving DecidableEq

namespace WorkloadVersion

def decode : Decoder WorkloadVersion := fun value => do
  let fields ← Decoder.record ["release"] value
  let release ← fields.optional "release" Decoder.text
  return ⟨release⟩

def encode (version : WorkloadVersion) : Json :=
  .ofFields (Json.fieldIf "release" (version.release.map .string))

end WorkloadVersion

/-- The status of a dependent. -/
structure DependentStatus where
  conditions : Conditions
  state : Option String
  url : Option String
  version : Option WorkloadVersion
  usage : List UsageItem
  deriving DecidableEq

namespace DependentStatus

def empty : DependentStatus := ⟨[], none, none, none, []⟩

def decode : Decoder DependentStatus := fun value => do
  let fields ← Decoder.record ["conditions", "state", "url", "version", "usage"] value
  let conditions ← fields.defaulted "conditions" [] (Decoder.list Condition.decode)
  let state ← fields.optional "state" Decoder.text
  let url ← fields.optional "url" Decoder.text
  let version ← fields.optional "version" WorkloadVersion.decode
  let usage ← fields.defaulted "usage" [] (Decoder.list UsageItem.decode)
  return ⟨conditions, state, url, version, usage⟩

def encode (status : DependentStatus) : Json :=
  .ofFields
    ([("conditions", .array (status.conditions.map Condition.encode))] ++
      Json.fieldIf "state" (status.state.map .string) ++
      Json.fieldIf "url" (status.url.map .string) ++
      Json.fieldIf "version" (status.version.map WorkloadVersion.encode) ++
      [("usage", .array (status.usage.map UsageItem.encode))])

def condition? (status : DependentStatus) (type : String) : Option Condition :=
  status.conditions.ofType? type

/-- The condition that says whether the dependent is ready. -/
def readyCondition? (status : DependentStatus) : Option Condition :=
  status.condition? Condition.ready

def usageItem? (status : DependentStatus) (name : String) : Option UsageItem :=
  status.usage.find? fun item => item.name = name

/-- Reads what an object reports.  A status that is missing or that cannot be read is that of a
dependent that has reported nothing. -/
def ofObject (object : Json) : DependentStatus :=
  ((object.fields?.bind fun fields => fields.at? "status").bind decode).getD empty

end DependentStatus

end SiteOperator
