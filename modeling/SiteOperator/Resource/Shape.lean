import SiteOperator.Dependent.Kind
import SiteOperator.Resource.Meta

/-!
# Shapes of objects

The operator reads namespaces, network policies and dependents only for their metadata, but
refuses an object whose other fields do not have the shape that the API gives them.  Every field
of a shape may be absent or null.
-/

namespace SiteOperator

/-- The shape of a JSON value. -/
inductive Shape where
  | text
  | integer32
  | timestamp
  | textOrInteger
  | texts
  | textMap
  | listOf (item : Shape)
  | record (fields : List (String × Shape))

namespace Shape

def isInteger32 (value : Json) : Bool :=
  (Decoder.integerBetween (-(Nat.pow 2 31 : Nat)) ((Nat.pow 2 31 : Nat) - 1) value).isSome

mutual

def fits : Shape → Json → Bool
  | text, value => (Decoder.text value).isSome
  | integer32, value => isInteger32 value
  | timestamp, value => (ObjectMeta.timestamp value).isSome
  | textOrInteger, value =>
      (Decoder.text value).isSome ||
        isInteger32 value
  | texts, value => (Decoder.list Decoder.text value).isSome
  | textMap, value => (Decoder.map Decoder.text value).isSome
  | listOf item, .array items => items.all fun x => fits item x
  | listOf _, _ => false
  | record shapes, .object fields => fieldsFit shapes fields
  | record _, _ => false

def fieldsFit : List (String × Shape) → Fields → Bool
  | [], _ => true
  | (key, shape) :: rest, fields =>
      (match fields.at? key with
        | none | some .null => true
        | some value => fits shape value) &&
        fieldsFit rest fields

end

def labelSelector : Shape :=
  record
    [("matchExpressions",
        listOf (record [("key", text), ("operator", text), ("values", texts)])),
      ("matchLabels", textMap)]

def policyPeer : Shape :=
  record
    [("ipBlock", record [("cidr", text), ("except", texts)]),
      ("namespaceSelector", labelSelector), ("podSelector", labelSelector)]

def policyPort : Shape :=
  record [("endPort", integer32), ("port", textOrInteger), ("protocol", text)]

def networkPolicy : List (String × Shape) :=
  [("spec", record
    [("egress", listOf (record [("ports", listOf policyPort), ("to", listOf policyPeer)])),
      ("ingress", listOf (record [("from", listOf policyPeer), ("ports", listOf policyPort)])),
      ("podSelector", labelSelector), ("policyTypes", texts)])]

def namespaces : List (String × Shape) :=
  [("spec", record [("finalizers", texts)]),
    ("status", record
      [("conditions", listOf (record
        [("lastTransitionTime", timestamp), ("message", text), ("reason", text),
          ("status", text), ("type", text)])),
        ("phase", text)])]

end Shape

/-- Reads the metadata of an object of a known type: its API version and kind are right if they are
there, and its fields have their shapes. -/
def Decoder.typedMeta (type : ResourceType) (shapes : List (String × Shape)) :
    Decoder ObjectMeta := fun value => do
  let fields ← Decoder.object value
  let matching (key expected : String) : Bool :=
    match fields.at? key with
    | none => true
    | some found => found = .string expected
  if matching "apiVersion" type.apiVersion && matching "kind" type.kind &&
      Shape.fieldsFit shapes fields then
    (fields.optional "metadata" ObjectMeta.decode).map fun data => data.getD .empty
  else none

def Decoder.anyMeta : Decoder ObjectMeta := fun value => do
  let fields ← Decoder.object value
  fields.defaulted "metadata" .empty ObjectMeta.decode

end SiteOperator
