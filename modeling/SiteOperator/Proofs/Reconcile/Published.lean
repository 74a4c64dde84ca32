import SiteOperator.Proofs.Reconcile.Retries
import SiteOperator.Proofs.Reconcile.SiteWrites

/-!
# What is published about a template

What a template publishes says nothing more than which names reference it and whether it is being
deleted (`TemplateStatus.desired_inj`), and it is read back as it was written, whatever stood there
before (`TemplateStatus.eq_of_decode_merge`). A patch of the metadata leaves it as it is. So after a
reconcile that has succeeded the cluster holds the template with this status
(`Template.hasStatus_of_reconcileSynced`), and the next one writes it again only if it has another
one to publish (`Template.published_sites_canonical`).
-/

namespace SiteOperator

namespace TemplateStatus

variable {sites others : List String} {deleting later : Bool} {stored : Json}
  {after : TemplateStatus}

theorem desired_inj : desired sites deleting = desired others later ↔
    sites = others ∧ deleting = later := by
  refine ⟨fun h => ?_, fun ⟨hsites, hdeleting⟩ => by rw [hsites, hdeleting]⟩
  obtain ⟨hstate, hsites, -⟩ := TemplateStatus.mk.inj h
  refine ⟨hsites, ?_⟩
  cases deleting <;> cases later <;> first | rfl | exact absurd hstate (by decide)

/-- What is published is read as it was written, whatever it has been merged into. -/
theorem eq_of_decode_merge
    (h : decode ((desired sites deleting).encode.mergePatch stored) = some after) :
    after = desired sites deleting := by
  have hencode : ∃ patch : Fields, (desired sites deleting).encode = .object patch ∧
      Entries.Sorted patch ∧
      patch.at? "state" = some (.string (if deleting then "Terminating" else "Ready")) ∧
      patch.at? "lmsMoodles" = some (.strings sites) ∧
      patch.at? "lmsMoodleCount" = some (.int sites.length) := by
    refine ⟨_, rfl, Entries.Sorted.ofList _, ?_⟩
    simp [desired, Entries.at?_ofList, Entries.at?_cons, Json.at?_fieldIf, Json.reverse_fieldIf]
  obtain ⟨patch, hpatch, sorted, hstate, hsites, hcount⟩ := hencode
  rw [hpatch, Json.mergePatch_object] at h
  simp only [decode, Decoder.record, Option.bind_eq_bind, Option.bind_eq_some_iff] at h
  obtain ⟨_, hfields, state, hreadState, names, hreadSites, count, hreadCount, hafter⟩ := h
  cases hfields
  cases hafter
  rw [Fields.optional, Json.at?_mergePatchFields_of_some sorted hstate rfl] at hreadState
  rw [Fields.defaulted, Json.at?_mergePatchFields_of_some sorted hsites rfl] at hreadSites
  rw [Fields.defaulted, Json.at?_mergePatchFields_of_some sorted hcount rfl] at hreadCount
  have hstateEq : some (some (if deleting then "Terminating" else "Ready")) = some state := by
    simpa [Json.mergePatch] using hreadState
  have hsitesEq : some sites = some names := by
    simpa [Json.strings, Json.mergePatch, ← Decoder.text_strings] using hreadSites
  have hcountEq : Decoder.integer64 (.int sites.length) = some count := by
    simpa [Json.int, Json.mergePatch] using hreadCount
  obtain ⟨-, hcount⟩ := Option.ite_none_right_eq_some.mp hcountEq
  cases hstateEq
  cases hsitesEq
  cases hcount
  rfl

end TemplateStatus

namespace Template

variable {value v : Json} {template later held : Template} {key : String}

/-- What is read of the parts of a template. -/
theorem decode_object_iff {fields : Fields} :
    decode (.object fields) = some template ↔
      ObjectMeta.decode ((Json.object fields).field "metadata") = some template.metadata ∧
        SpecBlocks.decode ((Json.object fields).field "spec") = some template.spec ∧
        Decoder.nullable TemplateStatus.decode ((Json.object fields).field "status") =
          some template.status := by
  have hdecode : decode (.object fields) = (do
      let metadata ← fields.required "metadata" ObjectMeta.decode
      let spec ← fields.required "spec" SpecBlocks.decode
      let status ← fields.optional "status" TemplateStatus.decode
      return ⟨metadata, spec, status⟩) := rfl
  have hobject : (Json.object fields).fields? = some fields := rfl
  rw [hdecode, Json.required_eq hobject rfl, Json.required_eq hobject rfl,
    Json.optional_eq hobject]
  simp only [Option.bind_eq_bind, Option.bind_eq_some_iff]
  constructor
  · rintro ⟨metadata, hmetadata, spec, hspec, status, hstatus, heq⟩
    cases heq
    exact ⟨hmetadata, hspec, hstatus⟩
  · rintro ⟨hmetadata, hspec, hstatus⟩
    exact ⟨_, hmetadata, _, hspec, _, hstatus, rfl⟩

theorem decode_mergePatch {patch : Json} {fields : Fields}
    (h : decode (patch.mergePatch value) = some held) (hpatch : patch = .object fields) :
    SpecBlocks.decode ((patch.mergePatch value).field "spec") = some held.spec ∧
      Decoder.nullable TemplateStatus.decode ((patch.mergePatch value).field "status") =
        some held.status := by
  rw [hpatch, Json.mergePatch_object] at h ⊢
  exact (decode_object_iff.mp h).2

/-- A patch of the metadata leaves the status as it is. -/
theorem status_of_metadata_patched (h : decode value = some template)
    (hafter : decode ((metadataPatch key v).mergePatch value) = some held) :
    held.status = template.status := by
  obtain ⟨hspec, hstatus⟩ := decode_mergePatch hafter rfl
  have hobject : (Json.ofFields [(key, v)]).isNull = false := rfl
  rw [metadataPatch, Json.field_mergePatch hobject, if_neg (by decide)] at hspec hstatus
  cases value with
  | object fields =>
      obtain ⟨-, -, hbefore⟩ := decode_object_iff.mp h
      exact Option.some.inj (hstatus.symm.trans hbefore)
  | null | bool | number | string | array => cases hspec

/-- A status that has been merged into a template is there. -/
theorem status_of_status_patched {sites : List String} {deleting : Bool}
    (hafter : decode ((statusPatch (TemplateStatus.desired sites deleting).encode).mergePatch
      value) = some held) :
    held.status = some (.desired sites deleting) := by
  obtain ⟨-, hstatus⟩ := decode_mergePatch hafter rfl
  have hobject : (TemplateStatus.desired sites deleting).encode.isNull = false := rfl
  rw [statusPatch, Json.field_mergePatch hobject, if_pos rfl] at hstatus
  obtain ⟨patch, hpatch⟩ :
      ∃ patch, (TemplateStatus.desired sites deleting).encode = .object patch := ⟨_, rfl⟩
  have hmerge : (TemplateStatus.desired sites deleting).encode.mergePatch (value.field "status") =
      .object (Json.mergePatchFields patch ((value.field "status").fields?.getD [])) := by
    rw [hpatch, Json.mergePatch_object]
  rw [hmerge, Decoder.nullable_object, ← hmerge] at hstatus
  obtain ⟨status, hread, heq⟩ := Option.map_eq_some_iff.mp hstatus
  rw [← heq, TemplateStatus.eq_of_decode_merge hread]

end Template

def Request.PatchesStatus (request : Request) : Prop :=
  ∃ object body, request = .patchStatus object body

section Patched

variable {cluster last : Cluster} {object : Locator} {body left : Json} {request : Request}
  {reply : Reply}

theorem Cluster.eq_of_storePatched {collects : Bool} {path : String}
    (h : (cluster.storePatched collects path body).object? path = some left) : left = body := by
  unfold storePatched at h
  split at h
  · rw [object?_remove, if_pos rfl] at h
    cases h
  · rw [object?_store, if_pos rfl] at h
    exact (Option.some.inj h).symm

/-- What a patch that has succeeded leaves at the place of its object: what it has made of the
object there, which can be read, or, if it has led elsewhere, the object as it was. -/
theorem Serves.stored_of_patch (serves : Serves cluster (sent request reply) last)
    (segmented : object.Segmented)
    (hrequest : request = .patch object body ∨ request = .patchStatus object body)
    (succeeds : ¬ request.Fails reply) (stored : last.stored? object = some left) :
    (∃ value, cluster.stored? object = some value ∧ left = body.mergePatch value ∧
        (object.type.reader left).isSome = true) ∨
      request = .patch object body ∧ cluster.stored? object = some left := by
  obtain ⟨collects, wire, hwire, rfl, hreply⟩ := serves.of_sent.resolve_left fun h => succeeds h.2
  replace hreply := hreply.resolve_left succeeds
  have hmerge : wire.verb = .patch ∧ wire.body = some (.mergePatch, body) ∧
      (Cluster.target wire = object.wirePath ∨
        request = .patch object body ∧ Cluster.target wire = object.collection) := by
    rcases hrequest with rfl | rfl
    · obtain ⟨hverb, hbody, htarget⟩ := Request.wire_patch segmented hwire
      exact ⟨hverb, hbody, htarget.imp_right fun h => ⟨rfl, h⟩⟩
    · obtain ⟨hverb, hbody, htarget⟩ := Request.wire_patchStatus segmented hwire
      exact ⟨hverb, hbody, Or.inl htarget⟩
  have hfails : request.Fails reply ↔ (reply.received object.type.reader).isOk = false := by
    rcases hrequest with rfl | rfl <;> rfl
  obtain ⟨hverb, hbody, htarget | ⟨rfl, htarget⟩⟩ := hmerge
  · rw [Cluster.stored?] at stored ⊢
    rw [Cluster.answer_merge hverb hbody, htarget] at hreply stored
    cases hvalue : cluster.object? object.wirePath with
    | none =>
        rw [hvalue] at hreply
        refine absurd (hfails.mpr ?_) succeeds
        rw [hreply]
        rfl
    | some value =>
        rw [hvalue] at hreply stored
        obtain rfl := Cluster.eq_of_storePatched stored
        refine Or.inl ⟨value, rfl, rfl, ?_⟩
        rw [hfails, Bool.not_eq_false, hreply] at succeeds
        cases hread : object.type.reader (body.mergePatch value) with
        | none => simp [Reply.received, hread, Except.isOk, Except.toBool] at succeeds
        | some data => rfl
  · refine Or.inr ⟨rfl, ?_⟩
    rwa [Cluster.stored?, Cluster.object?_answer_of_ne] at stored
    intro heq
    have hlength := congrArg (fun path : String => path.toList.length) (htarget.symm.trans heq)
    simp [segmented.wirePath_eq, Locator.path] at hlength

end Patched

namespace Template

variable {template later held : Template} {sites : List String} {status : Option TemplateStatus}
  {cluster last : Cluster} {trace : List AnsweredEffect} {reply : Reply} {body : Json}
  {progress : Progress} {result : Except Raised Progress}

def HasStatus (template : Template) (status : Option TemplateStatus) (cluster : Cluster) : Prop :=
  ∀ value, cluster.stored? template.ownLocator = some value →
    ∃ held, decode value = some held ∧ held.status = status

theorem segmented_ownLocator (segment : IsSegment template.name) :
    template.ownLocator.Segmented :=
  ⟨show resourceType ∈ ResourceType.known by decide, nofun, segment⟩

theorem exists_decode_of_reader {value : Json}
    (h : (template.ownLocator.type.reader value).isSome = true) :
    ∃ held, decode value = some held :=
  Option.isSome_iff_exists.mp (Option.isSome_map.symm.trans h)

theorem HasStatus.of_patch {key : String} {v : Json} (h : template.HasStatus status cluster)
    (segment : IsSegment template.name)
    (serves : Serves cluster (sent (.patch template.ownLocator (metadataPatch key v)) reply) last)
    (succeeds : ¬ (Request.patch template.ownLocator (metadataPatch key v)).Fails reply) :
    template.HasStatus status last := by
  intro left hleft
  rcases serves.stored_of_patch (segmented_ownLocator segment) (Or.inl rfl) succeeds hleft with
    ⟨value, hvalue, rfl, hread⟩ | ⟨-, hsame⟩
  · obtain ⟨before, hbefore, rfl⟩ := h value hvalue
    obtain ⟨after, hafter⟩ := exists_decode_of_reader hread
    exact ⟨after, hafter, status_of_metadata_patched hbefore hafter⟩
  · exact h left hsame

theorem hasStatus_of_publication (segment : IsSegment template.name)
    (serves : Serves cluster (sent (template.publication sites) reply) last)
    (succeeds : ¬ (template.publication sites).Fails reply) :
    template.HasStatus (some (.desired sites template.metadata.isTerminating)) last := by
  intro left hleft
  rcases serves.stored_of_patch (segmented_ownLocator segment) (Or.inr rfl) succeeds hleft with
    ⟨value, -, rfl, hread⟩ | ⟨hpatch, -⟩
  · obtain ⟨after, hafter⟩ := exists_decode_of_reader hread
    exact ⟨after, hafter, status_of_status_patched hafter⟩
  · cases hpatch

/-- Once the sites are published, a reconcile that succeeds patches the finalizers at most. -/
theorem runs_conclude_ok (run : (template.conclude sites).Runs trace (.ok progress)) :
    trace = [] ∨ ∃ finalizers reply,
      trace = [sent (.patch template.ownLocator (metadataPatch "finalizers" (.strings finalizers)))
        reply] ∧
      ¬ (Request.patch template.ownLocator
        (metadataPatch "finalizers" (.strings finalizers))).Fails reply := by
  generalize hresult : Except.ok progress = result at run
  cases runs_conclude run with
  | kept alive =>
      unfold conclude at run
      simp only [alive, Bool.not_false, if_true, Task.ensureFinalizer_eq] at run
      rcases Task.runs_bind_iff.mp run with ⟨error, -, rfl⟩ | ⟨first, _, rest, rfl, hadd, hpure⟩
      · cases hresult
      · obtain ⟨rfl, -⟩ := Task.runs_pure_iff.mp hpure
        rw [List.append_nil]
        rcases Task.runs_requestIf template.fails_patch_iff hadd with
          ⟨_, heq, -⟩ | ⟨-, ⟨-, reply, rfl, succeeds⟩ | ⟨-, rfl⟩⟩
        · cases heq
        · exact Or.inr ⟨_, reply, rfl, succeeds⟩
        · exact Or.inl rfl
  | gone => exact Or.inl rfl
  | held => cases hresult
  | unsent => cases hresult
  | removed _ _ _ _ reply =>
      refine Or.inr ⟨_, reply, rfl, ?_⟩
      rw [fails_patch_iff]
      cases hreply : reply.received decode with
      | ok x => simp [Except.isOk, Except.toBool]
      | error cause =>
          rw [hreply] at hresult
          cases hresult

theorem hasStatus_of_reconcileSynced (segment : IsSegment template.name)
    (storedIn : template.HasStatus template.status cluster)
    (run : (template.reconcileSynced sites).Runs trace (.ok progress))
    (served : Served cluster trace last) :
    template.HasStatus (some (.desired sites template.metadata.isTerminating)) last := by
  rw [reconcileSynced_eq, Task.runs_record_bind_iff] at run
  obtain ⟨trace, rfl, run⟩ := run
  rw [writeStatus_eq] at run
  replace served : Served cluster ([recorded (.references template.name sites.length)] ++ trace)
    last := served
  obtain ⟨middle, hrecorded, served⟩ := served.of_append
  cases hrecorded.of_singleton
  rcases Task.runs_bind_iff.mp run with ⟨_, -, heq⟩ | ⟨published, _, rest, rfl, hwrite, hrest⟩
  · cases heq
  obtain ⟨after, hpublished, hconcluded⟩ := served.of_append
  have hafter :
      template.HasStatus (some (.desired sites template.metadata.isTerminating)) after := by
    rcases Task.runs_requestIf template.fails_patchStatus_iff hwrite with
      ⟨_, heq, -⟩ | ⟨-, ⟨-, reply, rfl, succeeds⟩ | ⟨hneeded, rfl⟩⟩
    · cases heq
    · exact hasStatus_of_publication segment hpublished.of_singleton succeeds
    · cases hpublished
      rw [← of_not_not (of_decide_eq_false hneeded)]
      exact storedIn
  rcases runs_conclude_ok hrest with rfl | ⟨finalizers, reply, rfl, succeeds⟩
  · cases hconcluded
    exact hafter
  · exact hafter.of_patch segment hconcluded.of_singleton succeeds

theorem patchesStatus_publication : (template.publication sites).PatchesStatus := ⟨_, _, rfl⟩

theorem not_patchesStatus_patch {object : Locator} :
    ¬ (Request.patch object body).PatchesStatus := by
  rintro ⟨_, _, h⟩
  cases h

/-- What a reconcile does after it has published the sites writes no status. -/
theorem Concludes.not_patchesStatus (h : template.Concludes sites trace result) :
    OnlySends (fun request => ¬ request.PatchesStatus) trace := by
  cases h with
  | kept alive adds =>
      refine adds.mono ?_
      rintro request rfl
      exact not_patchesStatus_patch
  | gone | held | unsent => exact (OnlySends.chains _).nil
  | removed =>
      exact OnlySends.sent (P := fun request => ¬ request.PatchesStatus) not_patchesStatus_patch _

/-- The only status that a reconcile writes is the one that it has to publish. -/
theorem writes_only_publication (run : (template.reconcileSynced sites).Runs trace result) :
    OnlySends (fun request => request.PatchesStatus → request = template.publication sites)
      trace := by
  obtain ⟨published, rest, rfl, publishes, hrest⟩ := runs_reconcileSynced run
  intro request reply hmem writes
  rcases mem_or_mem_of_sent hmem with hmem | hmem
  · exact publishes _ _ hmem
  · rcases hrest with ⟨rfl, -⟩ | ⟨-, concludes⟩
    · cases hmem
    · exact absurd writes (concludes.not_patchesStatus _ _ hmem)

/-- A reconcile writes a status exactly if the one that it sees is not the one to publish. -/
theorem writes_iff (addressable : template.ownLocator.Addressable)
    (run : (template.reconcileSynced sites).Runs trace result) :
    (∃ request reply, sent request reply ∈ trace ∧ request.PatchesStatus) ↔
      template.status ≠ some (.desired sites template.metadata.isTerminating) := by
  rw [reconcileSynced_eq, Task.runs_record_bind_iff] at run
  obtain ⟨trace, rfl, run⟩ := run
  rw [writeStatus_eq] at run
  constructor
  · rintro ⟨request, reply, hmem, writes⟩ hsame
    rw [decide_eq_false (not_not_intro hsame)] at run
    replace hmem := (List.mem_cons.mp hmem).resolve_left sent_ne_recorded
    exact (runs_conclude run).not_patchesStatus request reply hmem writes
  · intro hneeded
    have hsent {first : List AnsweredEffect} {answer : Except Raised Unit}
        (hwrite : (Task.requestIf (decide (template.status ≠ some
          (.desired sites template.metadata.isTerminating))) (template.publication sites)
            decode).Runs first answer) :
        ∃ reply, first = [sent (template.publication sites) reply] := by
      rcases Task.runs_requestIf template.fails_patchStatus_iff hwrite with
        ⟨_, rfl, -, rfl | ⟨reply, rfl, -⟩⟩ | ⟨-, ⟨-, reply, rfl, -⟩ | ⟨hnot, -⟩⟩
      · exact absurd addressable
          (Request.not_addressable_of_patchStatus (Task.wire?_of_unsent hwrite))
      · exact ⟨reply, rfl⟩
      · exact ⟨reply, rfl⟩
      · exact absurd hneeded (of_decide_eq_false hnot)
    rcases Task.runs_bind_iff.mp run with ⟨_, hwrite, -⟩ | ⟨first, _, rest, rfl, hwrite, -⟩
    · obtain ⟨reply, rfl⟩ := hsent hwrite
      exact ⟨template.publication sites, reply, by simp, patchesStatus_publication⟩
    · obtain ⟨reply, rfl⟩ := hsent hwrite
      exact ⟨template.publication sites, reply, by simp, patchesStatus_publication⟩

def StoredIn (template : Template) (cluster : Cluster) : Prop :=
  ∃ value, cluster.stored? template.ownLocator = some value ∧ decode value = some template

theorem StoredIn.hasStatus (h : template.StoredIn cluster) :
    template.HasStatus template.status cluster := by
  obtain ⟨value, hstored, hread⟩ := h
  intro other hother
  obtain rfl := Option.some.inj (hstored.symm.trans hother)
  exact ⟨template, hread, rfl⟩

theorem reconcile_of_synced {cache : SiteCache} (synced : cache.synced = true) :
    template.reconcile cache = template.reconcileSynced (cache.sitesUsing template.name) :=
  if_pos synced

/-- After a reconcile that has succeeded the cluster holds the template with the status that the
reconcile had to publish. -/
theorem hasStatus_of_reconcile {cache : SiteCache} (segment : IsSegment template.name)
    (synced : cache.synced = true) (storedIn : template.StoredIn cluster)
    (run : (template.reconcile cache).Runs trace (.ok progress))
    (served : Served cluster trace last) :
    template.HasStatus (some (.desired (cache.sitesUsing template.name)
      template.metadata.isTerminating)) last := by
  rw [reconcile_of_synced synced] at run
  exact hasStatus_of_reconcileSynced segment storedIn.hasStatus run served

/-- A template is seen again: under the same name, and with the status that the cluster holds for
it. Everything else about it may have changed. -/
structure SeenAgain (template later : Template) (cluster : Cluster) : Prop where
  name : later.name = template.name
  status : ∃ held value, cluster.stored? template.ownLocator = some value ∧
    decode value = some held ∧ later.status = held.status

/-- What a template publishes does not depend on the order in which the cache holds the sites. The
names are the same for the same sites, they are sorted, and they are those of the sites that
reference the template, each as often as it occurs; their number is published with them, and no
status but this one is ever written. So once a reconcile over a complete cache has succeeded, the
next one writes the status exactly if the template is now being deleted and was not before, or the
other way round, or other names reference it, or one of them another number of times. -/
theorem published_sites_canonical :
    (∀ (sites others : List Site) (name : String), sites.Perm others →
      SiteCache.namesUsing sites name = SiteCache.namesUsing others name) ∧
    (∀ (sites : List Site) (name : String) (deleting : Bool),
      let names := SiteCache.namesUsing sites name
      names.Pairwise (· ≤ ·) ∧ names.Perm (SiteCache.referrers sites name) ∧
        (TemplateStatus.desired names deleting).sites = names ∧
        (TemplateStatus.desired names deleting).siteCount = names.length) ∧
    (∀ (template : Template) (cache : SiteCache) (trace : List AnsweredEffect)
      (result : Except Raised Progress), (template.reconcile cache).Runs trace result →
      OnlySends (fun request => request.PatchesStatus →
        request = template.publication (cache.sitesUsing template.name)) trace) ∧
    ∀ (template later : Template) (cache again : SiteCache) (cluster last : Cluster)
      (first second : List AnsweredEffect) (progress : Progress) (result : Except Raised Progress),
      IsSegment template.name → template.ownLocator.Addressable →
      cache.synced = true → again.synced = true → template.StoredIn cluster →
      (template.reconcile cache).Runs first (.ok progress) →
      Served cluster first last → template.SeenAgain later last →
      (later.reconcile again).Runs second result →
      ((∃ request reply, sent request reply ∈ second ∧ request.PatchesStatus) ↔
        later.metadata.isTerminating ≠ template.metadata.isTerminating ∨
          ¬ (SiteCache.referrers again.sites.values template.name).Perm
            (SiteCache.referrers cache.sites.values template.name)) := by
  refine ⟨fun _ _ name perm => SiteCache.namesUsing_perm perm name,
    fun sites name _ => ⟨SiteCache.pairwise_namesUsing sites name,
      SiteCache.perm_namesUsing sites name, rfl, rfl⟩, ?_, ?_⟩
  · intro template cache trace result run
    cases synced : cache.synced with
    | true =>
        rw [reconcile_of_synced synced] at run
        exact writes_only_publication run
    | false =>
        rw [reconcile, synced] at run
        obtain ⟨rfl, -⟩ := Task.runs_pure_iff.mp run
        exact (OnlySends.chains _).nil
  · intro template later cache again cluster last first second progress result segment
      addressable synced resynced storedIn run served seen rerun
    rw [reconcile_of_synced resynced] at rerun
    obtain ⟨held, value, hstored, hread, hstatus⟩ := seen.status
    obtain ⟨other, hother, hheld⟩ :=
      hasStatus_of_reconcile segment synced storedIn run served value hstored
    obtain rfl := Option.some.inj (hread.symm.trans hother)
    have hlocator : later.ownLocator = template.ownLocator := congrArg locator seen.name
    rw [writes_iff (hlocator ▸ addressable) rerun, hstatus, hheld, Ne, Option.some.injEq,
      TemplateStatus.desired_inj, seen.name, SiteCache.sitesUsing, SiteCache.sitesUsing,
      SiteCache.namesUsing_eq_iff, not_and_or, or_comm]
    exact or_congr ne_comm (not_congr List.perm_comm)

/-- A template that no site references, before anything is published about it. -/
def shelved : Template where
  metadata := { ObjectMeta.empty with name := some "t" }
  spec := .empty
  status := none

def listed : Template := { shelved with status := some (.desired [] false) }

def shelf : Cluster :=
  Cluster.empty.store (locator "t").wirePath
    (.ofFields [("metadata", shelved.metadata.encode), ("spec", shelved.spec.encode)])

/-- The status of the template is not written again unless a site references it. -/
theorem published_sites_canonical_of_shelved :
    (∃ second result, (listed.reconcile (.ofSites [])).Runs second result ∧
      ∀ request reply, sent request reply ∈ second → ¬ request.PatchesStatus) ∧
    ∃ second result, (listed.reconcile (.ofSites [Site.leaving])).Runs second result ∧
      ∃ request reply, sent request reply ∈ second ∧ request.PatchesStatus := by
  have run := Dialogue.runs_transcript (Cluster.serve false) (shelved.reconcile (.ofSites [])).run
    shelf
  have served := Cluster.served_transcript false (shelved.reconcile (.ofSites [])).run shelf
  have hrun : (Dialogue.run (Cluster.serve false) (shelved.reconcile (.ofSites [])).run
        shelf).1 = .ok .settled ∧
      ((Dialogue.run (Cluster.serve false) (shelved.reconcile (.ofSites [])).run
        shelf).2.stored? (locator "t")).isSome = true := by
    decide +kernel
  obtain ⟨hresult, hsome⟩ := hrun
  obtain ⟨value, hstored⟩ := Option.isSome_iff_exists.mp hsome
  rw [hresult] at run
  have storedIn : shelved.StoredIn shelf := ⟨_, rfl, by decide +kernel⟩
  obtain ⟨held, hread, hheld⟩ :=
    hasStatus_of_reconcile (by decide) rfl storedIn run served value hstored
  have hnone : (SiteCache.ofSites []).sitesUsing "t" = [] := List.mergeSort_nil
  have hlisted : listed.status = held.status := by
    rw [hheld, show shelved.name = "t" from rfl, hnone]
    rfl
  have seen : shelved.SeenAgain listed _ := ⟨rfl, held, value, hstored, hread, hlisted⟩
  have rerun (sites : List Site) := Dialogue.runs_transcript (Cluster.serve false)
    (listed.reconcile (.ofSites sites)).run shelf
  obtain ⟨-, -, -, again⟩ := published_sites_canonical
  have writes (sites : List Site) :=
    again shelved listed (.ofSites []) (.ofSites sites) shelf _ _ _ _ _ (by decide) (by decide)
      rfl rfl storedIn run served seen (rerun sites)
  refine ⟨⟨_, _, rerun [], fun request reply hmem hwrites => ?_⟩,
    ⟨_, _, rerun [Site.leaving], (writes [Site.leaving]).mpr (Or.inr fun perm => ?_)⟩⟩
  · rcases (writes []).mp ⟨request, reply, hmem, hwrites⟩ with hdeleting | hnames
    · exact hdeleting rfl
    · exact hnames (List.Perm.refl _)
  · exact absurd perm.length_eq (by decide)

end Template

end SiteOperator
