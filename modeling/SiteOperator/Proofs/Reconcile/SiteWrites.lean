import SiteOperator.Proofs.Reconcile.Played

/-!
# What a reconcile makes of its own site

The patches of a site are stored at its place (`Site.stored?_of_patch`) and leave all other objects
alone (`Site.leavesPath_patches`). After each of the three writes of a reconcile the site that the
cluster holds needs no such write any more: it carries its labels (`Site.labelled_of_plays`), it
carries the finalizer (`Site.held_of_plays`), and its status is what was collected
(`Site.published_of_plays`).
-/

namespace SiteOperator

variable {collects : Bool} {cluster middle last : Cluster} {trace : List AnsweredEffect}
  {object other : Locator} {request : Request}

/-- Of a path whose last segment is a name, the status is only cut off if this is the name. -/
theorem Cluster.objectPath_eq_or {path : String} {base name : List Char}
    (h : path.toList = base ++ '/' :: name) (hname : '/' ∉ name) :
    objectPath path = path ∨ objectPath path = String.ofList base := by
  simp only [objectPath]
  split
  · rename_i hsuffix
    obtain ⟨front, hfront⟩ := List.isSuffixOf_iff_suffix.mp hsuffix
    have hstatus : "/status".toList = '/' :: "status".toList := by decide
    rw [h, hstatus] at hfront
    have hreverse := congrArg List.reverse hfront
    simp only [List.reverse_append, List.reverse_cons, List.append_assoc, List.singleton_append]
      at hreverse
    obtain ⟨-, hbase⟩ := Target.append_slash_inj (by decide) (by simpa using hname) hreverse
    rw [List.reverse_inj] at hbase
    subst hbase
    refine Or.inr (congrArg String.ofList ?_)
    rw [h, ← hfront]
    simp
  · exact Or.inl rfl

/-- The path of an object without its status. -/
theorem Cluster.objectPath_status {path : String} {object : List Char}
    (h : path.toList = object ++ "/status".toList) : objectPath path = String.ofList object := by
  have hsuffix : "/status".toList.isSuffixOf path.toList = true :=
    List.isSuffixOf_iff_suffix.mpr ⟨object, h.symm⟩
  simp only [objectPath]
  rw [if_pos hsuffix, h, List.length_append, Nat.add_sub_cancel, List.take_left]

namespace Request

variable {wire : WireRequest} {body : Json}

/-- What is merged into an object is stored at its place, unless the object is called as its status
is. -/
theorem wire_patch (segmented : object.Segmented)
    (h : (patch object body).wire? = some wire) :
    wire.verb = .patch ∧ wire.body = some (.mergePatch, body) ∧
      (Cluster.target wire = object.wirePath ∨ Cluster.target wire = object.collection) := by
  obtain ⟨hverb, hbody, hpath⟩ := wire_of_onWire? (Option.ite_none_left_eq_some.mp h).2
  rw [String.toList_append] at hpath
  have hwire : wire.path = object.wirePath := path_eq_wirePath hpath
  have htarget : Cluster.target wire = Cluster.objectPath wire.path := by
    rw [Cluster.target, hverb, hbody]
  have hslash : "/".toList = ['/'] := by decide
  have hlist : wire.path.toList = object.collection.toList ++ '/' :: object.name.toList := by
    rw [hwire, segmented.wirePath_eq, Locator.path, String.toList_append, String.toList_append,
      hslash, List.append_assoc]
    rfl
  rw [htarget]
  refine ⟨hverb, hbody, ?_⟩
  rcases Cluster.objectPath_eq_or hlist segmented.name.slash_notMem with heq | heq
  · exact Or.inl (heq.trans hwire)
  · exact Or.inr (by rw [heq, String.ofList_toList])

theorem wire_patchStatus (segmented : object.Segmented)
    (h : (patchStatus object body).wire? = some wire) :
    wire.verb = .patch ∧ wire.body = some (.mergePatch, body) ∧
      Cluster.target wire = object.wirePath := by
  obtain ⟨hverb, hbody, hpath⟩ := wire_of_onWire? (Option.ite_none_left_eq_some.mp h).2
  change wire.path.toList = Target.pathPart (object.path ++ "/status?").toList at hpath
  have hquery : "/status?".toList = "/status".toList ++ '?' :: [] := by decide
  have hbefore : (object.path.toList ++ "/status".toList).all Target.isBefore = true := by
    rw [List.all_append, segmented.isBefore_path]
    decide
  rw [String.toList_append, hquery, ← List.append_assoc, Target.pathPart_append_query,
    Target.pathPart, List.takeWhile_eq_self_iff.mpr (List.all_eq_true.mp hbefore)] at hpath
  have htarget : Cluster.target wire = Cluster.objectPath wire.path := by
    rw [Cluster.target, hverb, hbody]
  refine ⟨hverb, hbody, ?_⟩
  rw [htarget, Cluster.objectPath_status hpath, String.ofList_toList, segmented.wirePath_eq]

end Request

namespace Site

variable {name : String} {body : Json}

theorem toList_path_locator (name : String) :
    (locator name).path.toList = resourceType.path.toList ++ '/' :: name.toList := by
  have hslash : "/".toList = ['/'] := by decide
  rw [locator, Locator.path, Locator.collection, String.toList_append, String.toList_append, hslash,
    List.append_assoc]
  rfl

theorem segmented_locator (segment : IsSegment name) : (locator name).Segmented :=
  ⟨show resourceType ∈ ResourceType.known by decide, nofun, segment⟩

def OfSites (path : String) : Prop := resourceType.path.toList <+: path.toList

theorem ofSites_wirePath (segment : IsSegment name) : OfSites (locator name).wirePath := by
  rw [OfSites, (segmented_locator segment).wirePath_eq, toList_path_locator]
  exact List.prefix_append _ _

theorem not_ofSites_of_written (h : object.type ∈ ResourceType.written) :
    ¬ OfSites object.wirePath := by
  intro hprefix
  have hstart : resourceType.start <+: resourceType.path.toList := by decide +kernel
  have htype := ResourceType.eq_of_starts h (show resourceType ∈ ResourceType.known by decide)
    (Locator.starts_wirePath (ResourceType.known_of_written h)) (hstart.trans hprefix)
  rw [htype] at h
  exact absurd h (by decide)

theorem not_ofSites_template (name : String) : ¬ OfSites (Template.locator name).wirePath := by
  intro hprefix
  have hbefore : (Template.resourceType.path.toList ++ ['/']).all Target.isBefore = true := by
    decide +kernel
  have hslash : "/".toList = ['/'] := by decide
  have hpath : (Template.locator name).path.toList =
      (Template.resourceType.path.toList ++ ['/']) ++ name.toList := by
    rw [Template.locator, Locator.path, Locator.collection, String.toList_append,
      String.toList_append, hslash]
  have htemplate : Template.resourceType.path.toList <+:
      (Template.locator name).wirePath.toList := by
    rw [Locator.wirePath, String.toList_ofList, hpath, Target.pathPart_append hbefore,
      List.append_assoc]
    exact List.prefix_append _ _
  have apart : ¬ resourceType.path.toList <+: Template.resourceType.path.toList ∧
      ¬ Template.resourceType.path.toList <+: resourceType.path.toList := by decide +kernel
  rcases List.prefix_or_prefix_of_prefix hprefix htemplate with h | h
  · exact apart.1 h
  · exact apart.2 h

/-- What is merged into a site, or into its status, leaves alone what is not among the sites. -/
theorem leavesPath_patches (segment : IsSegment name) {path : String} (outside : ¬ OfSites path)
    (h : request = .patch (locator name) body ∨ request = .patchStatus (locator name) body) :
    request.LeavesPath path := by
  refine Request.leavesPath_of_target_ne fun wire hwire heq => outside ?_
  have htarget : Cluster.target wire = (locator name).wirePath ∨
      Cluster.target wire = resourceType.path := by
    rcases h with rfl | rfl
    · exact (Request.wire_patch (segmented_locator segment) hwire).2.2
    · exact Or.inl (Request.wire_patchStatus (segmented_locator segment) hwire).2.2
  rw [← heq]
  rcases htarget with htarget | htarget
  · rw [htarget]
    exact ofSites_wirePath segment
  · rw [htarget]
    exact List.prefix_rfl

/-- What is not among the sites stays while a site is patched. -/
theorem object?_of_patchIf {α : Type} {needed : Bool} {read : Decoder α} {path : String}
    (segment : IsSegment name) (outside : ¬ OfSites path)
    (h : request = .patch (locator name) body ∨ request = .patchStatus (locator name) body)
    (plays : (Task.requestIf needed request read).Plays collects cluster trace (.ok ()) last) :
    last.object? path = cluster.object? path :=
  plays.object?_eq (.requestIf (OnlySends.chains _)
    fun _ reply => OnlySends.sent (leavesPath_patches segment outside h) reply)

variable {site after : Site} {value : Json}

/-- The cluster holds the site at its place, and nothing where the list of all sites is. -/
structure StoredIn (site : Site) (cluster : Cluster) : Prop where
  stored : ∃ value, cluster.stored? site.ownLocator = some value ∧ decode value = some site
  vacant : cluster.object? resourceType.path = none

/-- A site is still stored if nothing has changed among the sites. -/
theorem StoredIn.of_object?_eq (storedIn : site.StoredIn cluster) (segment : IsSegment site.name)
    (same : ∀ path, OfSites path → last.object? path = cluster.object? path) :
    site.StoredIn last := by
  obtain ⟨⟨value, stored, hread⟩, vacant⟩ := storedIn
  exact ⟨⟨value, (same _ (ofSites_wirePath segment)).trans stored, hread⟩,
    (same _ List.prefix_rfl).trans vacant⟩

/-- What a patch of a site makes of it is stored at its place, if the site is not being deleted. -/
theorem stored?_of_patch (segment : IsSegment site.name)
    (vacant : cluster.object? resourceType.path = none)
    (stored : cluster.stored? site.ownLocator = some value)
    (hrequest : request = .patch site.ownLocator body ∨ request = .patchStatus site.ownLocator body)
    (plays : (Task.request request decode).Plays collects cluster trace (.ok after) last) :
    decode (body.mergePatch value) = some after ∧
      (after.isTerminating = false →
        last.stored? site.ownLocator = some (body.mergePatch value) ∧
          last.object? resourceType.path = none) := by
  obtain ⟨wire, hwire, rfl, rfl, hreceived⟩ := Task.plays_request_iff.mp plays
  have hmerge : wire.verb = .patch ∧ wire.body = some (.mergePatch, body) ∧
      (Cluster.target wire = site.ownLocator.wirePath ∨
        Cluster.target wire = resourceType.path) := by
    rcases hrequest with rfl | rfl
    · exact Request.wire_patch (segmented_locator segment) hwire
    · obtain ⟨hverb, hbody, htarget⟩ := Request.wire_patchStatus (segmented_locator segment) hwire
      exact ⟨hverb, hbody, Or.inl htarget⟩
  obtain ⟨hverb, hbody, htarget | htarget⟩ := hmerge
  · rw [Cluster.stored?] at stored ⊢
    rw [Cluster.answer_merge hverb hbody, htarget, stored] at hreceived ⊢
    obtain ⟨_, _, heq, hread⟩ := Reply.received_eq_ok_iff.mp hreceived
    cases heq
    refine ⟨hread, fun alive => ?_⟩
    have hpath : resourceType.path ≠ site.ownLocator.wirePath := by
      intro heq
      have hlist := (segmented_locator segment).wirePath_eq
      rw [ownLocator] at heq
      rw [← heq, ← String.toList_inj, toList_path_locator] at hlist
      have hlength := congrArg List.length hlist
      simp at hlength
    simp only [Cluster.storePatched, isTerminating_of_decode hread alive, Bool.and_false,
      Bool.false_and, Bool.false_eq_true, if_false]
    exact ⟨by rw [Cluster.object?_store, if_pos rfl],
      by rw [Cluster.object?_store, if_neg hpath, vacant]⟩
  · rw [Cluster.answer_merge hverb hbody, htarget, vacant] at hreceived
    cases hreceived

/-- A site at two times: it wants the same, and it is the same object. -/
structure Follows (site after : Site) : Prop where
  spec : after.spec = site.spec
  metadata : site.metadata.Continues after.metadata

namespace Follows

variable {third : Site}

theorem refl (site : Site) : site.Follows site := ⟨rfl, .refl _⟩

theorem trans (h : site.Follows after) (h' : after.Follows third) : site.Follows third :=
  ⟨h'.spec.trans h.spec, h.metadata.trans h'.metadata⟩

theorem name_eq (h : site.Follows after) : after.name = site.name := by
  rw [Site.name, Site.name, ObjectMeta.anyName, ObjectMeta.anyName, h.metadata.name,
    h.metadata.generateName]

theorem ownLocator_eq (h : site.Follows after) : after.ownLocator = site.ownLocator :=
  congrArg locator h.name_eq

theorem isTerminating_eq (h : site.Follows after) : after.isTerminating = site.isTerminating :=
  congrArg Option.isSome h.metadata.deletionTimestamp

theorem ownerReference_eq (h : site.Follows after) :
    after.ownerReference = site.ownerReference := by
  rw [ownerReference, ownerReference, ownerReference?, ownerReference?, h.metadata.name,
    h.metadata.uid]

end Follows

/-- A patch of a site that the cluster holds leads to a site that the cluster holds. -/
theorem StoredIn.of_patch (storedIn : site.StoredIn cluster) (segment : IsSegment site.name)
    (alive : site.isTerminating = false)
    (hrequest : request = .patch site.ownLocator body ∨ request = .patchStatus site.ownLocator body)
    (plays : (Task.request request decode).Plays collects cluster trace (.ok after) last) :
    ∃ value, decode value = some site ∧ decode (body.mergePatch value) = some after ∧
      (site.Follows after → after.StoredIn last) := by
  obtain ⟨value, stored, hread⟩ := storedIn.stored
  obtain ⟨hafter, hstored⟩ := stored?_of_patch segment storedIn.vacant stored hrequest plays
  refine ⟨value, hread, hafter, fun follows => ?_⟩
  obtain ⟨hvalue, vacant⟩ := hstored (follows.isTerminating_eq.trans alive)
  exact ⟨⟨_, follows.ownLocator_eq ▸ hvalue, hafter⟩, vacant⟩

theorem plays_requestIf {α : Type} {needed : Bool} {read : Decoder α}
    (plays : (Task.requestIf needed request read).Plays collects cluster trace (.ok ()) last) :
    needed = false ∧ last = cluster ∨
      needed = true ∧
        ∃ x, (Task.request request read).Plays collects cluster trace (.ok x) last := by
  cases needed with
  | false =>
      obtain ⟨-, -, rfl⟩ := Task.plays_pure_iff.mp plays
      exact Or.inl ⟨rfl, rfl⟩
  | true =>
      obtain ⟨first, x, middle, rest, rfl, hrequest, hpure⟩ := Task.plays_bind_iff.mp plays
      obtain ⟨rfl, -, rfl⟩ := Task.plays_pure_iff.mp hpure
      exact Or.inr ⟨rfl, x, (List.append_nil first).symm ▸ hrequest⟩

/-- Once the labels of a site are in place, there is no more need to patch them. -/
theorem labelled_of_plays {desired : Entries String} (segment : IsSegment site.name)
    (alive : site.isTerminating = false) (sorted : desired.Sorted)
    (storedIn : site.StoredIn cluster)
    (plays : (site.patchLabels desired).Plays collects cluster trace (.ok ()) last) :
    ∃ after, after.StoredIn last ∧ site.Follows after ∧ after.status = site.status ∧
      after.metadata.finalizers = site.metadata.finalizers ∧
      labelsNeedPatch after.metadata.labels desired = false := by
  rw [patchLabels_eq] at plays
  rcases plays_requestIf plays with ⟨hneeded, rfl⟩ | ⟨-, after, hrequest⟩
  · exact ⟨site, storedIn, .refl site, rfl, rfl, hneeded⟩
  · obtain ⟨value, hread, hafter, hstored⟩ :=
      storedIn.of_patch segment alive (Or.inl rfl) hrequest
    obtain ⟨hspec, hstatus, hcontinues, hfinalizers, hlabels⟩ :=
      labels_patched sorted hread hafter
    have follows : site.Follows after := ⟨hspec, hcontinues⟩
    exact ⟨after, hstored follows, follows, hstatus, hfinalizers, hlabels⟩

/-- Once a site that is not being deleted is held by the operator, it carries the finalizer. -/
theorem held_of_plays {labelled : Site} (segment : IsSegment site.name)
    (alive : site.isTerminating = false) (storedIn : labelled.StoredIn cluster)
    (follows : site.Follows labelled)
    (hfinalizers : labelled.metadata.finalizers = site.metadata.finalizers)
    (plays : (Task.requestIf (!site.metadata.hasFinalizer operatorFinalizer) site.finalizerAddition
      decode).Plays collects cluster trace (.ok ()) last) :
    ∃ after, after.StoredIn last ∧ site.Follows after ∧ after.status = labelled.status ∧
      after.metadata.labels = labelled.metadata.labels ∧
      after.metadata.hasFinalizer operatorFinalizer = true := by
  rcases plays_requestIf plays with ⟨hneeded, rfl⟩ | ⟨-, after, hrequest⟩
  · refine ⟨labelled, storedIn, follows, rfl, rfl, ?_⟩
    have hthere : site.metadata.hasFinalizer operatorFinalizer = true := by simpa using hneeded
    rw [ObjectMeta.hasFinalizer, ObjectMeta.finalizerList, hfinalizers]
    exact hthere
  · rw [finalizerAddition, ← follows.ownLocator_eq] at hrequest
    obtain ⟨value, hread, hafter, hstored⟩ := storedIn.of_patch (follows.name_eq ▸ segment)
      (follows.isTerminating_eq.trans alive) (Or.inl rfl) hrequest
    obtain ⟨hspec, hstatus, hcontinues, hlabels, hthere⟩ := finalizers_patched hread hafter
    have later : labelled.Follows after := ⟨hspec, hcontinues⟩
    refine ⟨after, hstored later, follows.trans later, hstatus, hlabels, ?_⟩
    simp [ObjectMeta.hasFinalizer, ObjectMeta.finalizerList, hthere]

/-- Once the status of a site has been written, it is what was collected, or this says nothing
new. -/
theorem published_of_plays {held : Site} {draft : StatusDraft} (segment : IsSegment site.name)
    (alive : site.isTerminating = false) (storedIn : held.StoredIn cluster)
    (follows : site.Follows held)
    (covers : (held.status.getD .empty).Extends draft.collected)
    (plays : (site.writeStatus draft).Plays collects cluster trace (.ok ()) last) :
    ∃ after, after.StoredIn last ∧ site.Follows after ∧
      after.metadata = held.metadata ∧
      (after.status = some draft.collected ∨
        draft.hasChanges = false ∧ after.status = held.status) := by
  rw [writeStatus_eq] at plays
  rcases plays_requestIf plays with ⟨hneeded, rfl⟩ | ⟨-, after, hrequest⟩
  · exact ⟨held, storedIn, follows, rfl, Or.inr ⟨hneeded, rfl⟩⟩
  · rw [← follows.ownLocator_eq] at hrequest
    obtain ⟨value, hread, hafter, hstored⟩ := storedIn.of_patch (follows.name_eq ▸ segment)
      (follows.isTerminating_eq.trans alive) (Or.inr rfl) hrequest
    obtain ⟨hmetadata, hspec, hstatus⟩ := status_patched hread hafter covers
    have later : held.Follows after := ⟨hspec, hmetadata ▸ .refl _⟩
    exact ⟨after, hstored later, follows.trans later, hmetadata, Or.inl hstatus⟩

end Site
end SiteOperator
