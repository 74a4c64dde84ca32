import SiteOperator.Proofs.Json.Fields
import SiteOperator.Resource.Objects
import SiteOperator.Resource.Shape

/-!
# Metadata that the operator writes and reads

What the operator writes into the metadata of an object it reads again (`ObjectMeta.decode_encode`).
An object that it writes for a site therefore has that site as its controller and is not going, for
whoever reads it before anyone has changed it. Who owns an object is read off the owners that it
names, whatever else it holds (`Json.HasMeta.ownedBy_eq`).
-/

namespace SiteOperator

theorem OwnerReference.decode_encode (owner : OwnerReference) :
    decode owner.encode = some owner := by
  simp [decode, encode, Decoder.object, Json.ofFields, Json.fields?, Fields.optional,
    Entries.at?_ofList, Entries.at?_append, Entries.at?_cons, Json.at?_fieldIf,
    Json.reverse_fieldIf, Decoder.nullable_flag]

namespace ObjectMeta

variable {data : ObjectMeta}

/-- Metadata whose time of deletion is a time is read as it was written. -/
theorem decode_encode
    (h : ∀ time, data.deletionTimestamp = some time → Timestamp.isValid time = true) :
    decode data.encode = some data := by
  have lists (value : Option (List String)) :
      Decoder.nullable (Decoder.list Decoder.text) ((value.map Json.strings).getD .null) =
        some value :=
    Decoder.nullable_getD_map value (fun texts _ => Decoder.text_strings texts) nofun
  have maps (value : Option (Entries String)) :
      Decoder.nullable (Decoder.map Decoder.text) ((value.map Json.textMap).getD .null) =
        some value :=
    Decoder.nullable_getD_map value (fun texts _ => Decoder.map_textMap texts) nofun
  have owners (value : Option (List OwnerReference)) :
      Decoder.nullable (Decoder.list OwnerReference.decode)
        ((value.map fun owners => Json.array (owners.map OwnerReference.encode)).getD .null) =
        some value :=
    Decoder.nullable_getD_map value
      (fun owners _ => Decoder.list_map owners OwnerReference.decode_encode) nofun
  have times : Decoder.nullable timestamp ((data.deletionTimestamp.map Json.string).getD .null) =
      some data.deletionTimestamp :=
    Decoder.nullable_getD_map _ (fun time htime => by simp [timestamp, Decoder.text, h time htime])
      nofun
  simp [decode, encode, Decoder.object, Json.ofFields, Json.fields?, Fields.optional,
    Entries.at?_ofList, Entries.at?_append, Json.at?_fieldIf, Json.reverse_fieldIf,
    Decoder.nullable_text, lists, maps, owners, times]

end ObjectMeta

theorem ObjectMeta.decode_encode_ownedMeta (name : String) (namespaceName : Option String)
    (owner : OwnerReference) (labels : Entries String) :
    decode (ownedMeta name namespaceName owner labels).encode =
      some (ownedMeta name namespaceName owner labels) :=
  decode_encode nofun

theorem ObjectMeta.controller?_ownedMeta (name : String) (namespaceName : Option String)
    {owner : OwnerReference} (labels : Entries String) (h : owner.controller = some true) :
    (ownedMeta name namespaceName owner labels).controller? = some owner := by
  simp [ownedMeta, withOwnerAndLabels, controller?, OwnerReference.isController, h]

theorem ObjectMeta.nullable_encode_ownedMeta (name : String) (namespaceName : Option String)
    (owner : OwnerReference) (labels : Entries String) :
    Decoder.nullable decode (ownedMeta name namespaceName owner labels).encode =
      some (some (ownedMeta name namespaceName owner labels)) :=
  congrArg (Option.map some) (decode_encode_ownedMeta name namespaceName owner labels)

theorem DependentSpec.anyMeta_object (d : DependentSpec) (owner : OwnerReference)
    (labels : Entries String) :
    Decoder.anyMeta (d.object owner labels) =
      some (ownedMeta d.name (some d.namespaceName) owner labels) := by
  simp [Decoder.anyMeta, object, objectJson, Json.ofFields, Decoder.object, Json.fields?,
    Fields.defaulted, Entries.at?_ofList, Entries.at?_cons, ObjectMeta.decode_encode_ownedMeta]

/-- The owners that an object names, if they can be read, whatever else the object holds. -/
def Json.owners? (object : Json) : Option (Option (List OwnerReference)) :=
  Decoder.nullable (Decoder.list OwnerReference.decode)
    ((object.field "metadata").field "ownerReferences")

/-- Whether the controller among the owners that an object names has the UID. -/
def Json.ownedBy (object : Json) (uid : String) : Bool :=
  object.owners?.any fun owners => { ObjectMeta.empty with ownerReferences := owners }.ownedBy uid

theorem Json.ownedBy_congr {object other : Json} (uid : String)
    (h : (object.field "metadata").field "ownerReferences" =
      (other.field "metadata").field "ownerReferences") :
    object.ownedBy uid = other.ownedBy uid := by
  rw [ownedBy, ownedBy, owners?, owners?, h]

theorem ObjectMeta.owners_of_decode {value : Json} {data : ObjectMeta}
    (h : ObjectMeta.decode value = some data) :
    Decoder.nullable (Decoder.list OwnerReference.decode) (value.field "ownerReferences") =
      some data.ownerReferences := by
  simp only [ObjectMeta.decode, Option.bind_eq_bind, Option.bind_eq_some_iff] at h
  obtain ⟨fields, hfields, _, -, _, -, _, -, _, -, _, -, _, -, owners, howners, _, -, _, -, _, -, _,
    -, _, -, _, -, _, -, _, -, hdata⟩ := h
  cases hdata
  have hobject : value.fields? = some fields := hfields
  simpa [Json.field, hobject, Fields.optional] using howners

/-- The data is what is read of the metadata of an object, or nothing if it has none. -/
def Json.HasMeta (object : Json) (data : ObjectMeta) : Prop :=
  object.field "metadata" = .null ∧ data = .empty ∨
    ObjectMeta.decode (object.field "metadata") = some data

theorem Decoder.hasMeta_of_anyMeta {object : Json} {data : ObjectMeta}
    (h : anyMeta object = some data) : object.HasMeta data := by
  obtain ⟨fields, hfields, hdata⟩ := Option.bind_eq_some_iff.mp h
  have hobject : object.fields? = some fields := hfields
  have hfield : object.field "metadata" = (Entries.at? fields "metadata").getD .null := by
    simp [Json.field, hobject]
  rw [Json.HasMeta, hfield]
  unfold Fields.defaulted at hdata
  cases hmeta : Entries.at? fields "metadata" with
  | none =>
      rw [hmeta] at hdata
      exact Or.inl ⟨rfl, (Option.some.inj hdata).symm⟩
  | some value =>
      rw [hmeta] at hdata
      exact Or.inr hdata

/-- What is read of an object tells who owns it. -/
theorem Json.HasMeta.ownedBy_eq {object : Json} {data : ObjectMeta} (h : object.HasMeta data)
    (uid : String) : object.ownedBy uid = data.ownedBy uid := by
  have howners : object.owners? = some data.ownerReferences := by
    rw [owners?]
    rcases h with ⟨hnull, rfl⟩ | hdecode
    · rw [hnull]
      rfl
    · exact ObjectMeta.owners_of_decode hdecode
  rw [ownedBy, howners]
  rfl

theorem ObjectMeta.ownedBy_of_anyMeta {object : Json} {data : ObjectMeta} (uid : String)
    (h : Decoder.anyMeta object = some data) : object.ownedBy uid = data.ownedBy uid :=
  (Decoder.hasMeta_of_anyMeta h).ownedBy_eq uid

namespace SiteNames

variable (names : SiteNames) (owner : OwnerReference) (labels : Entries String)

theorem typedMeta_namespaceObject :
    Decoder.typedMeta .namespaces Shape.namespaces (names.namespaceObject owner labels) =
      some (ownedMeta names.namespaceName none owner labels) := by
  simp [Decoder.typedMeta, namespaceObject, objectJson, Json.ofFields, Decoder.object, Json.fields?,
    Fields.optional, Entries.at?_ofList, Entries.at?_cons, Shape.namespaces, Shape.fieldsFit,
    ObjectMeta.nullable_encode_ownedMeta]

/-- A network policy whose spec has the shape of one is read with its metadata. -/
theorem typedMeta_policyObject {name : String} {pods ingress : Json}
    (h : Shape.fieldsFit Shape.networkPolicy [("spec", .ofFields
      [("policyTypes", .strings ["Ingress"]), ("podSelector", pods),
        ("ingress", .array [ingress])])] = true) :
    Decoder.typedMeta .networkPolicies Shape.networkPolicy
        (names.policyObject name pods ingress owner labels) =
      some (ownedMeta name (some names.namespaceName) owner labels) := by
  simpa [Decoder.typedMeta, policyObject, objectJson, Json.ofFields, Decoder.object, Json.fields?,
    Fields.optional, Entries.at?_ofList, Entries.at?_cons, Shape.networkPolicy, Shape.fieldsFit,
    ObjectMeta.nullable_encode_ownedMeta] using h

theorem typedMeta_namespacePolicyObject :
    Decoder.typedMeta .networkPolicies Shape.networkPolicy
        (names.namespacePolicyObject owner labels) =
      some (ownedMeta names.namespacePolicy (some names.namespaceName) owner labels) :=
  names.typedMeta_policyObject owner labels (by decide)

theorem typedMeta_nginxPolicyObject :
    Decoder.typedMeta .networkPolicies Shape.networkPolicy (names.nginxPolicyObject owner labels) =
      some (ownedMeta names.nginxPolicy (some names.namespaceName) owner labels) :=
  names.typedMeta_policyObject owner labels (by decide)

end SiteNames

end SiteOperator
