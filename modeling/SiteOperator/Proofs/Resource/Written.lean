import SiteOperator.Proofs.Resource.Metadata

/-!
# What stands in the objects that the operator writes

The objects that are created for a site carry the names under which they are looked for, the labels
of the site, and the reference to it as their only owner (`Json.MadeFor`).
-/

namespace SiteOperator

theorem Json.field_ofFields (fields : List (String × Json)) (key : String) :
    (ofFields fields).field key = (Entries.at? fields.reverse key).getD .null := by
  simp [ofFields, field, fields?, Entries.at?_ofList]

theorem ObjectMeta.field_encode_name (data : ObjectMeta) :
    data.encode.field "name" = (data.name.map .string).getD .null := by
  simp [encode, Json.field_ofFields, Entries.at?_append, Json.at?_fieldIf, Json.reverse_fieldIf]

theorem ObjectMeta.field_encode_labels (data : ObjectMeta) :
    data.encode.field "labels" = (data.labels.map .textMap).getD .null := by
  simp [encode, Json.field_ofFields, Entries.at?_append, Json.at?_fieldIf, Json.reverse_fieldIf]

theorem ObjectMeta.field_encode_ownerReferences (data : ObjectMeta) :
    data.encode.field "ownerReferences" = (data.ownerReferences.map fun owners =>
      .array (owners.map OwnerReference.encode)).getD .null := by
  simp [encode, Json.field_ofFields, Entries.at?_append, Json.at?_fieldIf, Json.reverse_fieldIf]

theorem field_metadata_objectJson (type : ResourceType) (data : ObjectMeta)
    {fields : List (String × Json)} (h : Entries.at? fields.reverse "metadata" = none) :
    (objectJson type data fields).field "metadata" = data.encode := by
  simp [objectJson, Json.field_ofFields, Entries.at?_append, Entries.at?_cons, h]

/-- An object that belongs to a site has its name in its metadata. -/
theorem field_name_objectJson (type : ResourceType) (name : String) (namespaceName : Option String)
    (owner : OwnerReference) (labels : Entries String) {fields : List (String × Json)}
    (h : Entries.at? fields.reverse "metadata" = none) :
    ((objectJson type (ownedMeta name namespaceName owner labels) fields).field "metadata").field
      "name" = .string name := by
  rw [field_metadata_objectJson _ _ h, ObjectMeta.field_encode_name]
  rfl

/-- The object carries exactly these labels, and the owner and no one else as its owner. -/
structure Json.MadeFor (object : Json) (owner : OwnerReference) (labels : Entries String) :
    Prop where
  labels : (object.field "metadata").field "labels" = .textMap labels
  owners : (object.field "metadata").field "ownerReferences" = .array [owner.encode]

theorem madeFor_objectJson (type : ResourceType) (name : String) (namespaceName : Option String)
    (owner : OwnerReference) (labels : Entries String) {fields : List (String × Json)}
    (h : Entries.at? fields.reverse "metadata" = none) :
    (objectJson type (ownedMeta name namespaceName owner labels) fields).MadeFor owner labels := by
  constructor <;> rw [field_metadata_objectJson _ _ h]
  · rw [ObjectMeta.field_encode_labels]
    rfl
  · rw [ObjectMeta.field_encode_ownerReferences]
    rfl

namespace SiteNames

variable (names : SiteNames) (owner : OwnerReference) (labels : Entries String)

theorem madeFor_namespaceObject : (names.namespaceObject owner labels).MadeFor owner labels :=
  madeFor_objectJson _ _ _ _ _ rfl

theorem madeFor_policyObject (name : String) (pods ingress : Json) :
    (names.policyObject name pods ingress owner labels).MadeFor owner labels :=
  madeFor_objectJson _ _ _ _ _ rfl

theorem field_name_namespaceObject :
    ((names.namespaceObject owner labels).field "metadata").field "name" =
      .string names.namespaceLocator.name :=
  field_name_objectJson _ _ _ _ _ rfl

theorem field_name_policyObject (name : String) (pods ingress : Json) :
    ((names.policyObject name pods ingress owner labels).field "metadata").field "name" =
      .string (names.policyLocator name).name :=
  field_name_objectJson _ _ _ _ _ rfl

end SiteNames

end SiteOperator
