import SiteOperator.Proofs.Json.Merge
import SiteOperator.Proofs.Reconcile.Serving
import SiteOperator.Proofs.Status.Fixpoint

/-!
# Sites after a patch

A site is read from its metadata, its spec and its status (`Site.ReadFrom`). A patch of the metadata
leaves the other two as they are, and of the metadata all that it does not name
(`Site.metadata_patched`); once labels have been merged into a site, no more patch of these labels
is needed. A status that has been merged into a site is read as it was written, if it does not
leave out what was there before (`Site.status_patched`). An object that is only marked as going when
it is deleted can be read as before (`Decoder.exists_typedMeta_deletion`).
-/

namespace SiteOperator

theorem Json.optional_eq {value : Json} {fields : Fields} (h : value.fields? = some fields)
    {α : Type} (key : String) (read : Decoder α) :
    fields.optional key read = Decoder.nullable read (value.field key) := by
  simp [Json.field, h, Fields.optional]

theorem Json.required_eq {value : Json} {fields : Fields} (h : value.fields? = some fields)
    {α : Type} {read : Decoder α} (hnull : read .null = none) (key : String) :
    fields.required key read = read (value.field key) := by
  cases hat : Entries.at? fields key <;> simp [Fields.required, Json.field, h, hat, hnull]

theorem Decoder.nullable_object {α : Type} (read : Decoder α) (fields : Fields) :
    nullable read (.object fields) = (read (.object fields)).map some := rfl

theorem Decoder.eq_null_of_nullable {α : Type} {read : Decoder α} {value : Json}
    (h : nullable read value = some none) : value = .null := by
  cases value with
  | null => rfl
  | bool | number | string | array | object => simp [nullable] at h

theorem Condition.decode_encode (c : Condition) : decode c.encode = some c := by
  simp [decode, encode, Decoder.record, Json.ofFields, Fields.optional, Fields.required,
    Entries.at?_ofList, Entries.at?_append, Entries.at?_cons, Json.at?_fieldIf,
    Json.reverse_fieldIf, Decoder.text, Decoder.nullable_text]

namespace ObjectMeta

variable {value v : Json} {data again : ObjectMeta} {key : String}

structure ReadFrom (value : Json) (data : ObjectMeta) : Prop where
  name : Decoder.nullable Decoder.text (value.field "name") = some data.name
  generateName : Decoder.nullable Decoder.text (value.field "generateName") = some data.generateName
  uid : Decoder.nullable Decoder.text (value.field "uid") = some data.uid
  labels : Decoder.nullable (Decoder.map Decoder.text) (value.field "labels") = some data.labels
  finalizers : Decoder.nullable (Decoder.list Decoder.text) (value.field "finalizers") =
    some data.finalizers
  deletionTimestamp : Decoder.nullable timestamp (value.field "deletionTimestamp") =
    some data.deletionTimestamp

theorem readFrom_of_decode (h : decode value = some data) : data.ReadFrom value := by
  simp only [decode, Option.bind_eq_bind, Option.bind_eq_some_iff] at h
  obtain ⟨fields, hfields, name, hname, generateName, hgenerate, _, -, uid, huid, labels, hlabels,
    finalizers, hfinalizers, _, -, deletion, hdeletion, _, -, _, -, _, -, _, -, _, -, _, -, _, -,
    hdata⟩ := h
  cases hdata
  have hobject : value.fields? = some fields := hfields
  simp only [Json.optional_eq hobject] at hname hgenerate huid hlabels hfinalizers hdeletion
  exact ⟨hname, hgenerate, huid, hlabels, hfinalizers, hdeletion⟩

/-- There is a time of deletion in what was read exactly if there is one in the object. -/
theorem ReadFrom.isNull_deletionTimestamp (h : data.ReadFrom value) :
    (value.field "deletionTimestamp").isNull = !data.isTerminating := by
  have htime := h.deletionTimestamp
  cases hdata : data.deletionTimestamp with
  | none =>
      rw [hdata] at htime
      rw [Decoder.eq_null_of_nullable htime, isTerminating, hdata]
      rfl
  | some time =>
      rw [hdata] at htime
      rw [isTerminating, hdata]
      cases hfield : value.field "deletionTimestamp" with
      | null =>
          rw [hfield] at htime
          cases htime
      | bool | number | string | array | object => rfl

/-- The metadata of one object at two times: neither its name nor its UID has changed, nor whether
it is being deleted. -/
structure Continues (data again : ObjectMeta) : Prop where
  name : again.name = data.name
  generateName : again.generateName = data.generateName
  uid : again.uid = data.uid
  deletionTimestamp : again.deletionTimestamp = data.deletionTimestamp

namespace Continues

theorem refl (data : ObjectMeta) : data.Continues data := ⟨rfl, rfl, rfl, rfl⟩

theorem trans {third : ObjectMeta} (h : data.Continues again) (h' : again.Continues third) :
    data.Continues third :=
  ⟨h'.name.trans h.name, h'.generateName.trans h.generateName, h'.uid.trans h.uid,
    h'.deletionTimestamp.trans h.deletionTimestamp⟩

end Continues

/-- A patch of another field changes nothing about which object it is. -/
theorem continues_of_merge (before : data.ReadFrom value)
    (after : again.ReadFrom ((Json.ofFields [(key, v)]).mergePatch value))
    (hkey : key ∉ ["name", "generateName", "uid", "deletionTimestamp"]) (hv : v.isNull = false) :
    data.Continues again := by
  have kept {field : String} (hfield : field ∈ ["name", "generateName", "uid",
      "deletionTimestamp"]) :
      ((Json.ofFields [(key, v)]).mergePatch value).field field = value.field field := by
    rw [Json.field_mergePatch hv, if_neg]
    exact fun heq => hkey (heq ▸ hfield)
  have hname := after.name
  have hgenerate := after.generateName
  have huid := after.uid
  have hdeletion := after.deletionTimestamp
  rw [kept (by simp)] at hname hgenerate huid hdeletion
  exact ⟨Option.some.inj (hname.symm.trans before.name),
    Option.some.inj (hgenerate.symm.trans before.generateName),
    Option.some.inj (huid.symm.trans before.uid),
    Option.some.inj (hdeletion.symm.trans before.deletionTimestamp)⟩

/-- Labels that have been merged into the metadata are there. -/
theorem labels_of_merge {desired : Entries String} (sorted : desired.Sorted)
    (after : again.ReadFrom ((Json.ofFields [("labels", .textMap desired)]).mergePatch value)) :
    labelsNeedPatch again.labels desired = false := by
  have hlabels := after.labels
  rw [Json.field_mergePatch rfl, if_pos rfl, Json.textMap, Json.mergePatch_object,
    Decoder.nullable_object] at hlabels
  obtain ⟨merged, hmerged, heq⟩ := Option.map_eq_some_iff.mp hlabels
  rw [labelsNeedPatch, ← heq, List.any_eq_false]
  rintro ⟨key, text⟩ hmem
  have hpatch : Entries.at? (desired.mapValues Json.string) key = some (.string text) := by
    rw [Entries.at?_mapValues, sorted.at?_of_mem hmem, Option.map_some]
  have hmap := Decoder.at?_of_map hmerged key
  rw [Json.at?_mergePatchFields_of_some (Entries.sorted_mapValues_iff.mpr sorted) hpatch rfl]
    at hmap
  have hthere : merged.at? key = some text := hmap
  simp [hthere]

/-- Finalizers that have been merged into the metadata take the place of those before. -/
theorem finalizers_of_merge {finalizers : List String}
    (after : again.ReadFrom
      ((Json.ofFields [("finalizers", .strings finalizers)]).mergePatch value)) :
    again.finalizers = some finalizers := by
  have hfinalizers := after.finalizers
  have hmerge (target : Json) : (Json.strings finalizers).mergePatch target = .strings finalizers :=
    by simp [Json.strings, Json.mergePatch]
  have hread : Decoder.nullable (Decoder.list Decoder.text) (.strings finalizers) =
      some (some finalizers) := congrArg (Option.map some) (Decoder.text_strings finalizers)
  rw [Json.field_mergePatch rfl, if_pos rfl, hmerge, hread] at hfinalizers
  exact (Option.some.inj hfinalizers).symm

/-- A patch of the finalizers leaves the labels as they are. -/
theorem labels_of_merge_finalizers {finalizers : List String} (before : data.ReadFrom value)
    (after : again.ReadFrom
      ((Json.ofFields [("finalizers", .strings finalizers)]).mergePatch value)) :
    again.labels = data.labels := by
  have hlabels := after.labels
  rw [Json.field_mergePatch rfl, if_neg (by decide)] at hlabels
  exact Option.some.inj (hlabels.symm.trans before.labels)

/-- A patch of the labels leaves the finalizers as they are. -/
theorem finalizers_of_merge_labels {desired : Entries String} (before : data.ReadFrom value)
    (after : again.ReadFrom ((Json.ofFields [("labels", .textMap desired)]).mergePatch value)) :
    again.finalizers = data.finalizers := by
  have hfinalizers := after.finalizers
  rw [Json.field_mergePatch rfl, if_neg (by decide)] at hfinalizers
  exact Option.some.inj (hfinalizers.symm.trans before.finalizers)

end ObjectMeta

/-- What a deletion merges into an object that finalizers hold on to. -/
def Cluster.deletion : Json :=
  .ofFields [("metadata", .ofFields [("deletionTimestamp", .string deletionTime)])]

/-- Metadata with a time of deletion is read as before, and as that of an object that is going. -/
theorem ObjectMeta.decode_terminating {fields : Fields} {data : ObjectMeta} {time : String}
    (h : decode (.object fields) = some data) (valid : Timestamp.isValid time = true) :
    decode (.object (Entries.put fields "deletionTimestamp" (.string time))) =
      some { data with deletionTimestamp := some time } := by
  have other {α : Type} {key : String} (read : Decoder α) (hkey : key ≠ "deletionTimestamp") :
      Fields.optional (Entries.put fields "deletionTimestamp" (.string time)) key read =
        Fields.optional fields key read := by
    rw [Fields.optional, Fields.optional, Entries.at?_put_of_ne _ _ hkey]
  have itself : Fields.optional (Entries.put fields "deletionTimestamp" (.string time))
      "deletionTimestamp" timestamp = some (some time) := by
    simp [Fields.optional, Entries.at?_put_self, Decoder.nullable, timestamp, Decoder.text, valid]
  simp only [decode, Option.bind_eq_bind, Option.bind_eq_some_iff] at h
  obtain ⟨_, hfields, _, hname, _, hgenerate, _, hnamespace, _, huid, _, hlabels, _, hfinalizers, _,
    howners, _, -, _, hannotations, _, hcreation, _, hgrace, _, hgeneration, _, hmanaged, _,
    hversion, _, hlink, hdata⟩ := h
  cases hfields
  cases hdata
  have hobject (fields : Fields) : Decoder.object (.object fields) = some fields := rfl
  simp [decode, hobject, other, itself, hname, hgenerate, hnamespace, huid, hlabels, hfinalizers,
    howners, hannotations, hcreation, hgrace, hgeneration, hmanaged, hversion, hlink]

theorem Shape.fieldsFit_put {shapes : List (String × Shape)} {key : String} (value : Json)
    (fields : Fields) (h : key ∉ shapes.map Prod.fst) :
    fieldsFit shapes (Entries.put fields key value) = fieldsFit shapes fields := by
  induction shapes with
  | nil => simp [fieldsFit]
  | cons head rest ih =>
      obtain ⟨name, shape⟩ := head
      have hhead : name ≠ key := fun heq => h (heq ▸ List.mem_cons_self)
      rw [fieldsFit, fieldsFit, Entries.at?_put_of_ne _ _ hhead,
        ih fun hrest => h (List.mem_cons_of_mem _ hrest)]

/-- An object that finalizers hold on to is read as before once it is being deleted, and as one that
is going. -/
theorem Decoder.exists_typedMeta_deletion {type : ResourceType} {shapes : List (String × Shape)}
    {value : Json} {data : ObjectMeta} (h : typedMeta type shapes value = some data)
    (held : Cluster.hasFinalizers value = true) (hshapes : "metadata" ∉ shapes.map Prod.fst) :
    ∃ going, typedMeta type shapes (Cluster.deletion.mergePatch value) = some going ∧
      going.isTerminating = true := by
  have hmetadata : ∃ fields, value.field "metadata" = .object fields := by
    unfold Cluster.hasFinalizers at held
    cases hfield : value.field "metadata" with
    | object fields => exact ⟨fields, rfl⟩
    | null | bool | number | string | array =>
        rw [hfield] at held
        cases held
  obtain ⟨metadata, hmetadata⟩ := hmetadata
  obtain ⟨fields, hfields, hread⟩ := Option.bind_eq_some_iff.mp h
  have hobject : value.fields? = some fields := hfields
  have hmerge : Cluster.deletion.mergePatch value = .object (Entries.put fields "metadata"
      (.object (Entries.put metadata "deletionTimestamp" (.string Cluster.deletionTime)))) := by
    rw [Cluster.deletion, Json.mergePatch_singleton rfl, Json.mergePatch_singleton rfl, hobject,
      hmetadata]
    simp [Json.fields?, Json.mergePatch]
  obtain ⟨fits, hdata⟩ := Option.ite_none_right_eq_some.mp hread
  rw [Json.optional_eq hobject, hmetadata, Decoder.nullable_object] at hdata
  obtain ⟨_, hsome, rfl⟩ := Option.map_eq_some_iff.mp hdata
  obtain ⟨earlier, hearlier, rfl⟩ := Option.map_eq_some_iff.mp hsome
  have valid : Timestamp.isValid Cluster.deletionTime = true := by decide
  have hgoing := ObjectMeta.decode_terminating hearlier valid
  refine ⟨_, ?_, show ObjectMeta.isTerminating { earlier with
    deletionTimestamp := some Cluster.deletionTime } = true from rfl⟩
  have hput (key : String) (hkey : key ≠ "metadata") (x : Json) :
      Entries.at? (Entries.put fields "metadata" x) key = fields.at? key :=
    Entries.at?_put_of_ne _ _ hkey
  rw [hmerge, typedMeta]
  have hthere : Fields.optional (Entries.put fields "metadata" (.object (Entries.put metadata
      "deletionTimestamp" (.string Cluster.deletionTime)))) "metadata" ObjectMeta.decode =
      some (some { earlier with deletionTimestamp := some Cluster.deletionTime }) := by
    rw [Fields.optional, Entries.at?_put_self, Option.getD_some, nullable_object, hgoing,
      Option.map_some]
  simp only [Option.bind_eq_bind, object, Json.fields?, Option.bind_some, hthere]
  refine (if_pos ?_).trans (Option.map_some ..)
  rw [hput _ (by decide), hput _ (by decide), Shape.fieldsFit_put _ _ hshapes]
  exact fits

/-- What is read of an object tells whether it is being deleted. -/
theorem Json.HasMeta.isTerminating_eq {object : Json} {data : ObjectMeta} (h : object.HasMeta data) :
    Cluster.isTerminating object = data.isTerminating := by
  rw [Cluster.isTerminating]
  rcases h with ⟨hnull, rfl⟩ | hdecode
  · rw [hnull]
    rfl
  · rw [(ObjectMeta.readFrom_of_decode hdecode).isNull_deletionTimestamp, Bool.not_not]

theorem Decoder.hasMeta_of_typedMeta {type : ResourceType} {shapes : List (String × Shape)}
    {value : Json} {data : ObjectMeta} (h : typedMeta type shapes value = some data) :
    value.HasMeta data := by
  obtain ⟨fields, hfields, hread⟩ := Option.bind_eq_some_iff.mp h
  have hobject : value.fields? = some fields := hfields
  obtain ⟨-, hdata⟩ := Option.ite_none_right_eq_some.mp hread
  rw [Json.optional_eq hobject] at hdata
  obtain ⟨found, hfound, rfl⟩ := Option.map_eq_some_iff.mp hdata
  cases hmetadata : value.field "metadata" with
  | null =>
      rw [hmetadata] at hfound
      cases hfound
      exact Or.inl ⟨hmetadata, rfl⟩
  | object =>
      rw [hmetadata, nullable_object, ← hmetadata] at hfound
      obtain ⟨data, hdecode, rfl⟩ := Option.map_eq_some_iff.mp hfound
      exact Or.inr hdecode
  | bool | number | string | array =>
      rw [hmetadata] at hfound
      cases hfound

namespace SiteStatus

structure Extends (before after : SiteStatus) : Prop where
  state : after.state = none → before.state = none
  url : after.url = none → before.url = none
  storageGb : after.storageGb = none → before.storageGb = none
  registeredUsers : after.registeredUsers = none → before.registeredUsers = none
  release : after.release = none → before.release = none

variable {before collected after : SiteStatus} {stored : Json}

theorem UpdatedBy.extends {settings : Conditions} {state : String}
    {workload : Option DependentStatus}
    (h : UpdatedBy settings state workload before after) : before.Extends after := by
  have replaced {α : Type} [DecidableEq α] {slot value : Option α}
      (hnone : (StatusDraft.replace slot value).1 = none) : slot = none := by
    cases value with
    | none => exact hnone
    | some x => cases hnone
  rw [h.rest]
  refine ⟨nofun, ?_, ?_, ?_, ?_⟩ <;> cases workload with
    | none => exact id
    | some workload => exact replaced

/-- An optional field of a merged object has the value of the patch, or none if there was none. -/
theorem eq_of_optional_merge {α : Type} {read : Decoder α} {write : α → Json}
    {patch target : Fields} {key : String} {value result : Option α} (sorted : Entries.Sorted patch)
    (hpatch : patch.at? key = value.map write)
    (scalar : ∀ x target, (write x).mergePatch target = write x) (hnull : ∀ x, write x ≠ .null)
    (hread : ∀ x y, read (write x) = some y → y = x)
    (absent : value = none → target.optional key read = some none)
    (h : Fields.optional (Json.mergePatchFields patch target) key read = some result) :
    result = value := by
  cases value with
  | none =>
      rw [Fields.optional, Json.at?_mergePatchFields_of_none hpatch] at h
      exact Option.some.inj (h.symm.trans (absent rfl))
  | some x =>
      have hisNull : (write x).isNull = false := by
        have hx := hnull x
        cases hw : write x with
        | null => exact absurd hw hx
        | bool | number | string | array | object => rfl
      have hsome : Decoder.nullable read (write x) = (read (write x)).map some := by
        cases hw : write x with
        | null =>
            rw [hw] at hisNull
            cases hisNull
        | bool | number | string | array | object => rfl
      rw [Fields.optional, Json.at?_mergePatchFields_of_some sorted hpatch hisNull, scalar,
        Option.getD_some, hsome] at h
      obtain ⟨y, hy, rfl⟩ := Option.map_eq_some_iff.mp h
      rw [hread x y hy]

/-- The optional fields of a status are those of the object it was read from. -/
theorem optional_of_decode {fields : Fields} (h : decode (.object fields) = some after) :
    Fields.optional fields "state" Decoder.text = some after.state ∧
      Fields.optional fields "url" Decoder.text = some after.url ∧
      Fields.optional fields "storageGb" Decoder.text = some after.storageGb ∧
      Fields.optional fields "registeredUsers" Decoder.integer64 = some after.registeredUsers ∧
      Fields.optional fields "release" Decoder.text = some after.release := by
  simp only [decode, Decoder.record, Option.bind_eq_bind, Option.bind_eq_some_iff] at h
  obtain ⟨_, hfields, _, -, state, hstate, url, hurl, storageGb, hstorage, users, husers, release,
    hrelease, hafter⟩ := h
  cases hfields
  cases hafter
  exact ⟨hstate, hurl, hstorage, husers, hrelease⟩

/-- Where a status says nothing, there is nothing in the object it was read from. -/
theorem optional_of_absent {α : Type} {read : Decoder α} {slot : SiteStatus → Option α}
    {key : String} {earlier : Option SiteStatus}
    (reads : ∀ fields status, decode (.object fields) = some status →
      Fields.optional fields key read = some (slot status))
    (hstored : Decoder.nullable decode stored = some earlier)
    (absent : slot (earlier.getD .empty) = none) :
    Fields.optional (stored.fields?.getD []) key read = some none := by
  cases stored with
  | null | bool | number | string | array => rfl
  | object fields =>
      obtain ⟨status, hstatus, rfl⟩ := Option.map_eq_some_iff.mp hstored
      exact (reads fields status hstatus).trans (congrArg some absent)

/-- A status is written as an object with a field for everything that it says. -/
theorem exists_encode_eq (status : SiteStatus) : ∃ patch : Fields, status.encode = .object patch ∧
    Entries.Sorted patch ∧
    patch.at? "conditions" = some (.array (status.conditions.map Condition.encode)) ∧
    patch.at? "state" = status.state.map Json.string ∧
    patch.at? "url" = status.url.map Json.string ∧
    patch.at? "storageGb" = status.storageGb.map Json.string ∧
    patch.at? "registeredUsers" = status.registeredUsers.map Json.int ∧
    patch.at? "release" = status.release.map Json.string := by
  refine ⟨_, rfl, Entries.Sorted.ofList _, ?_⟩
  simp [Entries.at?_ofList, Entries.at?_append, Entries.at?_cons, Json.at?_fieldIf,
    Json.reverse_fieldIf]

/-- A status that was merged into an earlier one is read as it was written, if it leaves nothing
out. -/
theorem eq_of_decode_merge {earlier : Option SiteStatus}
    (h : decode (collected.encode.mergePatch stored) = some after)
    (hstored : Decoder.nullable decode stored = some earlier)
    (covers : (earlier.getD .empty).Extends collected) : after = collected := by
  obtain ⟨patch, hencode, sorted, hconditions, hstate, hurl, hstorage, husers, hrelease⟩ :=
    collected.exists_encode_eq
  rw [hencode, Json.mergePatch_object] at h
  have texts {key : String} {value result : Option String} {slot : SiteStatus → Option String}
      (hwritten : patch.at? key = value.map Json.string)
      (reads : ∀ fields status, decode (.object fields) = some status →
        Fields.optional fields key Decoder.text = some (slot status))
      (absent : value = none → slot (earlier.getD .empty) = none)
      (h : Fields.optional (Json.mergePatchFields patch (stored.fields?.getD [])) key
        Decoder.text = some result) : result = value :=
    eq_of_optional_merge sorted hwritten (fun _ _ => by simp [Json.mergePatch])
      (fun _ heq => by cases heq) (fun _ _ hread => (Option.some.inj hread).symm)
      (fun hnone => optional_of_absent reads hstored (absent hnone)) h
  obtain ⟨state, url, storageGb, users, release⟩ := optional_of_decode h
  have hstate := texts hstate (fun _ _ hdecode => (optional_of_decode hdecode).1) covers.state state
  have hurl := texts hurl (fun _ _ hdecode => (optional_of_decode hdecode).2.1) covers.url url
  have hstorage := texts hstorage (fun _ _ hdecode => (optional_of_decode hdecode).2.2.1)
    covers.storageGb storageGb
  have hrelease := texts hrelease (fun _ _ hdecode => (optional_of_decode hdecode).2.2.2.2)
    covers.release release
  have husers : after.registeredUsers = collected.registeredUsers := by
    refine eq_of_optional_merge sorted husers (fun _ _ => by simp [Json.int, Json.mergePatch])
      (fun _ heq => by cases heq) (fun x y hread => ?_) (fun hnone => optional_of_absent
        (fun _ _ hdecode => (optional_of_decode hdecode).2.2.2.1) hstored
        (covers.registeredUsers hnone)) users
    obtain ⟨-, heq⟩ := Option.ite_none_right_eq_some.mp hread
    exact (Option.some.inj heq).symm
  have hconditions : after.conditions = collected.conditions := by
    have hread := Decoder.list_map collected.conditions Condition.decode_encode
    simp only [decode, Decoder.record, Option.bind_eq_bind, Option.bind_eq_some_iff] at h
    obtain ⟨_, hfields, conditions, hdefaulted, _, -, _, -, _, -, _, -, _, -, hafter⟩ := h
    cases hfields
    cases hafter
    rw [Fields.defaulted, Json.at?_mergePatchFields_of_some sorted hconditions rfl] at hdefaulted
    simpa [Json.mergePatch, hread] using hdefaulted.symm
  cases after
  cases collected
  simp_all

end SiteStatus

namespace Site

variable {value v : Json} {site after : Site} {key : String}

structure ReadFrom (value : Json) (site : Site) : Prop where
  metadata : ObjectMeta.decode (value.field "metadata") = some site.metadata
  spec : SiteSpec.decode (value.field "spec") = some site.spec
  status : Decoder.nullable SiteStatus.decode (value.field "status") = some site.status

theorem decode_object_iff {fields : Fields} :
    decode (.object fields) = some site ↔ site.ReadFrom (.object fields) := by
  have hdecode : decode (.object fields) = (do
      let metadata ← fields.required "metadata" ObjectMeta.decode
      let spec ← fields.required "spec" SiteSpec.decode
      let status ← fields.optional "status" SiteStatus.decode
      return ⟨metadata, spec, status⟩) := rfl
  have hobject : (Json.object fields).fields? = some fields := rfl
  rw [hdecode, Json.required_eq hobject rfl, Json.required_eq hobject rfl,
    Json.optional_eq hobject]
  simp only [Option.bind_eq_bind, Option.bind_eq_some_iff]
  constructor
  · rintro ⟨metadata, hmetadata, spec, hspec, status, hstatus, heq⟩
    cases heq
    exact ⟨hmetadata, hspec, hstatus⟩
  · rintro ⟨hmetadata, hspec, hstatus⟩
    exact ⟨_, hmetadata, _, hspec, _, hstatus, rfl⟩

/-- If a value with a spec is read as a site, it is read part by part. -/
theorem readFrom_of_spec {spec : SiteSpec} (h : decode value = some site)
    (hspec : SiteSpec.decode (value.field "spec") = some spec) : site.ReadFrom value := by
  cases value with
  | object fields => exact decode_object_iff.mp h
  | null | bool | number | string | array => cases hspec

theorem readFrom_mergePatch {patch : Json} {fields : Fields}
    (h : decode (patch.mergePatch value) = some after) (hpatch : patch = .object fields) :
    after.ReadFrom (patch.mergePatch value) := by
  rw [hpatch, Json.mergePatch_object] at h ⊢
  exact decode_object_iff.mp h

/-- A patch of the metadata leaves the spec and the status as they are. -/
theorem metadata_patched (h : decode value = some site)
    (hafter : decode ((metadataPatch key v).mergePatch value) = some after) :
    after.spec = site.spec ∧ after.status = site.status ∧
      ObjectMeta.decode (value.field "metadata") = some site.metadata ∧
      ObjectMeta.decode ((Json.ofFields [(key, v)]).mergePatch (value.field "metadata")) =
        some after.metadata := by
  obtain ⟨hmetadata, hspec, hstatus⟩ := readFrom_mergePatch hafter rfl
  have hobject : (Json.ofFields [(key, v)]).isNull = false := rfl
  rw [metadataPatch, Json.field_mergePatch hobject] at hmetadata hspec hstatus
  rw [if_pos rfl] at hmetadata
  rw [if_neg (by decide)] at hspec hstatus
  have before := readFrom_of_spec h hspec
  exact ⟨Option.some.inj (hspec.symm.trans before.spec),
    Option.some.inj (hstatus.symm.trans before.status), before.metadata, hmetadata⟩

/-- Labels that have been merged into a site are there, and nothing else of the site changes. -/
theorem labels_patched {desired : Entries String} (sorted : desired.Sorted)
    (h : decode value = some site)
    (hafter : decode ((metadataPatch "labels" (.textMap desired)).mergePatch value) = some after) :
    after.spec = site.spec ∧ after.status = site.status ∧
      site.metadata.Continues after.metadata ∧
      after.metadata.finalizers = site.metadata.finalizers ∧
      labelsNeedPatch after.metadata.labels desired = false := by
  obtain ⟨hspec, hstatus, hbefore, hmerged⟩ := metadata_patched h hafter
  have before := ObjectMeta.readFrom_of_decode hbefore
  have merged := ObjectMeta.readFrom_of_decode hmerged
  exact ⟨hspec, hstatus, ObjectMeta.continues_of_merge before merged (by decide) rfl,
    ObjectMeta.finalizers_of_merge_labels before merged, ObjectMeta.labels_of_merge sorted merged⟩

/-- Finalizers that have been merged into a site are there, and nothing else of the site changes. -/
theorem finalizers_patched {finalizers : List String} (h : decode value = some site)
    (hafter : decode ((metadataPatch "finalizers" (.strings finalizers)).mergePatch value) =
      some after) :
    after.spec = site.spec ∧ after.status = site.status ∧
      site.metadata.Continues after.metadata ∧
      after.metadata.labels = site.metadata.labels ∧
      after.metadata.finalizers = some finalizers := by
  obtain ⟨hspec, hstatus, hbefore, hmerged⟩ := metadata_patched h hafter
  have before := ObjectMeta.readFrom_of_decode hbefore
  have merged := ObjectMeta.readFrom_of_decode hmerged
  exact ⟨hspec, hstatus, ObjectMeta.continues_of_merge before merged (by decide) rfl,
    ObjectMeta.labels_of_merge_finalizers before merged, ObjectMeta.finalizers_of_merge merged⟩

/-- A status that has been merged into a site, and that leaves nothing out, is there as it was
written, and nothing else of the site changes. -/
theorem status_patched {collected : SiteStatus} (h : decode value = some site)
    (hafter : decode ((statusPatch collected.encode).mergePatch value) = some after)
    (covers : (site.status.getD .empty).Extends collected) :
    after.metadata = site.metadata ∧ after.spec = site.spec ∧ after.status = some collected := by
  obtain ⟨hmetadata, hspec, hstatus⟩ := readFrom_mergePatch hafter rfl
  have hobject : collected.encode.isNull = false := rfl
  rw [statusPatch, Json.field_mergePatch hobject] at hmetadata hspec hstatus
  rw [if_neg (by decide)] at hmetadata hspec
  rw [if_pos rfl] at hstatus
  have before := readFrom_of_spec h hspec
  refine ⟨Option.some.inj (hmetadata.symm.trans before.metadata),
    Option.some.inj (hspec.symm.trans before.spec), ?_⟩
  obtain ⟨patch, hencode, -⟩ := collected.exists_encode_eq
  have hmerge : collected.encode.mergePatch (value.field "status") =
      .object (Json.mergePatchFields patch ((value.field "status").fields?.getD [])) := by
    rw [hencode, Json.mergePatch_object]
  rw [hmerge, Decoder.nullable_object, ← hmerge] at hstatus
  obtain ⟨status, hread, heq⟩ := Option.map_eq_some_iff.mp hstatus
  rw [← heq, SiteStatus.eq_of_decode_merge hread before.status covers]

/-- The cluster and the operator agree on whether a site is being deleted. -/
theorem isTerminating_of_decode (h : decode value = some site)
    (alive : site.isTerminating = false) : Cluster.isTerminating value = false := by
  have hmeta : site.metadata.isTerminating = false := alive
  rw [Cluster.isTerminating]
  cases value with
  | object fields =>
      have read := ObjectMeta.readFrom_of_decode (decode_object_iff.mp h).metadata
      rw [read.isNull_deletionTimestamp, hmeta]
      rfl
  | null | bool | number | string | array => rfl

end Site

end SiteOperator
