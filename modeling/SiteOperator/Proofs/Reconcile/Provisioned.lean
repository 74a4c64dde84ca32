import SiteOperator.Proofs.Reconcile.Convergence

/-!
# What becomes of the namespace and the network policies of a site

Creating what is missing and deleting what is owned each turn one object into another and leave all
others alone (`Cluster.Turns`): the one keeps what is there, the other keeps what the owner does not
control or what is going already (`Cluster.dropped`). The namespace and the two policies lie at
different places, so seeing to one of them does not undo the others (`Site.seesTo_of_served`), and
whatever else a reconcile does leaves them alone. So a reconcile that has succeeded has provided the
site with them (`Site.reconcile_provides`).
-/

namespace SiteOperator

variable {cluster middle last : Cluster} {trace : List AnsweredEffect} {object other : Locator}
  {reply : Reply} {uid : String} {value left body : Json} {shapes : List (String × Shape)}

namespace Cluster

/-- What is left of an object after a deletion for an owner. If the owner does not control it, or if
it is going already, it stays as it is; otherwise it goes, or is marked as going if finalizers hold
on to it. -/
def dropped (uid : String) (value : Json) : Option Json :=
  if value.ownedBy uid && !isTerminating value then
    if hasFinalizers value then some (deletion.mergePatch value) else none
  else some value

theorem isTerminating_deletion (value : Json) :
    isTerminating (deletion.mergePatch value) = true := by
  have htime (target : Json) :
      (Json.string deletionTime).mergePatch target = .string deletionTime := by
    simp [Json.mergePatch]
  rw [isTerminating, deletion, Json.field_mergePatch rfl, if_pos rfl, Json.field_mergePatch rfl,
    if_pos rfl, htime]
  rfl

/-- Whatever is left under the control of the owner is going. -/
theorem isTerminating_of_dropped (h : dropped uid value = some left)
    (owned : left.ownedBy uid = true) : isTerminating left = true := by
  unfold dropped at h
  split at h
  · obtain ⟨-, hleft⟩ := Option.ite_none_right_eq_some.mp h
    rw [← Option.some.inj hleft]
    exact isTerminating_deletion value
  · next kept =>
      obtain rfl := Option.some.inj h
      simpa [owned] using kept

/-- An object is deleted exactly if the operator reads of it that it may be. -/
theorem dropped_of_typedMeta {data : ObjectMeta}
    (h : Decoder.typedMeta object.type shapes value = some data) :
    dropped uid value = if data.deleteRefusal? uid = none then
      if hasFinalizers value then some (deletion.mergePatch value) else none else some value := by
  have hmeta := Decoder.hasMeta_of_typedMeta h
  rw [dropped, hmeta.ownedBy_eq uid, hmeta.isTerminating_eq]
  cases hterminating : data.isTerminating <;> cases howned : data.ownedBy uid <;>
    simp [ObjectMeta.deleteRefusal?, hterminating, howned]

/-- From one cluster to another the object at the place is turned into another one, and nothing
happens elsewhere. -/
structure Turns (turn : Option Json → Option Json) (object : Locator) (cluster last : Cluster) :
    Prop where
  itself : last.stored? object = turn (cluster.stored? object)
  elsewhere : ∀ other, object.wirePath ≠ other.wirePath → last.stored? other = cluster.stored? other

/-- Three objects at different places are turned one after the other. -/
theorem Turns.three {f g h : Option Json → Option Json} {first second third : Locator}
    {start between : Cluster} (turns : Turns f first cluster start)
    (turns' : Turns g second start between) (turns'' : Turns h third between last)
    (apart : second.wirePath ≠ first.wirePath) (apart' : third.wirePath ≠ first.wirePath)
    (apart'' : third.wirePath ≠ second.wirePath) :
    last.stored? first = f (cluster.stored? first) ∧
      last.stored? second = g (cluster.stored? second) ∧
      last.stored? third = h (cluster.stored? third) := by
  refine ⟨?_, ?_, ?_⟩
  · rw [turns''.elsewhere _ apart', turns'.elsewhere _ apart, turns.itself]
  · rw [turns''.elsewhere _ apart'', turns'.itself, turns.elsewhere _ apart.symm]
  · rw [turns''.itself, turns'.elsewhere _ apart''.symm, turns.elsewhere _ apart'.symm]

end Cluster

/-- What is found is what is there. -/
theorem Serves.map_stored?_of_found {α : Type} {read : Decoder α} {found : Option α}
    (serves : Serves cluster (sent (.get object) reply) last)
    (succeeds : ¬ (Request.get object).Fails reply) (h : reply.found read = .ok found) :
    last = cluster ∧ (cluster.stored? object).map read = found.map some := by
  obtain ⟨rfl, fails | hreply⟩ := serves.of_get
  · exact absurd fails succeeds
  · rw [hreply] at h
    exact ⟨rfl, Cluster.found_lookup_iff.mp h⟩

/-- An object that was not there is there as it was created. -/
theorem Serves.stored?_of_create (serves : Serves cluster (sent (.create object body) reply) last)
    (succeeds : ¬ (Request.create object body).Fails reply) (segmented : object.Segmented)
    (hname : (body.field "metadata").field "name" = .string object.name)
    (hnone : cluster.stored? object = none) : last.stored? object = some body := by
  rcases serves.of_sent with ⟨-, fails⟩ | ⟨collects, wire, hwire, rfl, -⟩
  · exact absurd fails succeeds
  · obtain ⟨hverb, hbody, htarget⟩ := Request.wire_create hwire segmented hname
    rw [Cluster.stored?, ← htarget] at hnone ⊢
    rw [Cluster.answer_create hverb hbody, hnone, Cluster.object?_store, if_pos rfl]

namespace Served

/-- Creating what is missing leaves an object that is there as it is. -/
theorem turns_of_createMissing {created : Bool} (served : Served cluster trace last)
    (run : (Task.createMissing object shapes body).Runs trace (.ok created))
    (hread : object.type.reader = Decoder.typedMeta object.type shapes)
    (segmented : object.Segmented)
    (hname : (body.field "metadata").field "name" = .string object.name) :
    Cluster.Turns (fun earlier => some (earlier.getD body)) object cluster last := by
  have sends : Task.Always (OnlySends fun request =>
      request = .get object ∨ request = .create object body)
      (Task.createMissing object shapes body) :=
    .createMissing (OnlySends.chains _) (fun reply => OnlySends.sent (Or.inl rfl) reply)
      fun reply => OnlySends.sent (Or.inr rfl) reply
  refine ⟨?_, fun other apart => served.stored?_eq ((sends _ _ run).mono ?_)⟩
  · rcases Task.runs_bind_iff.mp run with ⟨_, -, heq⟩ | ⟨first, found, rest, rfl, hfind, hrest⟩
    · cases heq
    rcases Task.runs_find?_iff.mp hfind with ⟨-, -, heq⟩ | ⟨-, reply, rfl, hfound⟩
    · cases heq
    obtain ⟨middle, hget, hserved⟩ := served.of_append
    have succeeds : ¬ (Request.get object).Fails reply := by
      simp [Request.Fails, hread, ← hfound, Except.isOk, Except.toBool]
    obtain ⟨rfl, hthere⟩ := hget.of_singleton.map_stored?_of_found succeeds hfound.symm
    cases found with
    | some data =>
        obtain ⟨rfl, -⟩ := Task.runs_pure_iff.mp hrest
        obtain ⟨value, hstored, -⟩ := Option.map_eq_some_iff.mp hthere
        cases hserved
        rw [hstored, Option.getD_some]
    | none =>
        have hnone := Option.map_eq_none_iff.mp hthere
        rcases Task.runs_bind_iff.mp hrest with ⟨_, -, heq⟩ | ⟨made, data, rest, rfl, hmake, hpure⟩
        · cases heq
        obtain ⟨rfl, -⟩ := Task.runs_pure_iff.mp hpure
        obtain ⟨inner, hcreate, hinner⟩ := Task.runs_within_iff.mp hmake
        cases inner with
        | error cause => cases hinner
        | ok data' =>
            rcases Task.runs_request_iff.mp hcreate with ⟨-, -, heq⟩ | ⟨-, answer, rfl, hanswer⟩
            · cases heq
            have succeeds : ¬ (Request.create object body).Fails answer := by
              simp [Request.Fails, hread, ← hanswer, Except.isOk, Except.toBool]
            rw [List.append_nil] at hserved
            rw [hserved.of_singleton.stored?_of_create succeeds segmented hname hnone, hnone,
              Option.getD_none]
  · rintro request (rfl | rfl)
    · exact Request.leaves_get _ _
    · exact (Request.leadsTo_create segmented hname).leavesPath apart

/-- Deleting what is owned leaves an object alone that the owner does not control or that is going
already. -/
theorem turns_of_deleteOwned {kind : String} {outcome : DeleteOutcome}
    (served : Served cluster trace last)
    (run : (Task.deleteOwned object kind uid (Decoder.typedMeta object.type shapes)).Runs trace
      (.ok outcome))
    (hread : object.type.reader = Decoder.typedMeta object.type shapes) :
    Cluster.Turns (·.bind (Cluster.dropped uid)) object cluster last := by
  have check := Task.runs_deleteOwned run
  refine ⟨?_, fun other apart => served.stored?_eq (check.onlySends.mono ?_)⟩
  · have reads {reply : Reply} {found : Option ObjectMeta} {last : Cluster}
        (serves : Serves cluster (sent (.get object) reply) last)
        (h : reply.found (Decoder.typedMeta object.type shapes) = .ok found) :
        last = cluster ∧ (cluster.stored? object).map (Decoder.typedMeta object.type shapes) =
          found.map some :=
      serves.map_stored?_of_found
        (by simp [Request.Fails, hread, h, Except.isOk, Except.toBool]) h
    cases check with
    | absent h =>
        obtain ⟨rfl, hthere⟩ := reads served.of_singleton h
        rw [Option.map_eq_none_iff.mp hthere, Option.bind_none]
    | kept h refused =>
        obtain ⟨rfl, hthere⟩ := reads served.of_singleton h
        obtain ⟨value, hstored, hvalue⟩ := Option.map_eq_some_iff.mp hthere
        rw [hstored, Option.bind_some, Cluster.dropped_of_typedMeta hvalue, refused,
          if_neg (Option.some_ne_none _)]
    | @removed reply answer data found h allowed removed =>
        cases served with
        | cons serves served =>
            obtain ⟨rfl, hthere⟩ := reads serves h
            obtain ⟨value, hstored, hvalue⟩ := Option.map_eq_some_iff.mp hthere
            have succeeds : ¬ (Request.delete object).Fails answer := by
              simp [Request.Fails, hread, removed, Except.isOk, Except.toBool]
            rcases served.of_singleton.of_sent with ⟨-, fails⟩ | ⟨collects, wire, hwire, rfl, -⟩
            · exact absurd fails succeeds
            · rw [Cluster.stored?_of_delete hwire hstored, hstored, Option.bind_some,
                Cluster.dropped_of_typedMeta hvalue, allowed, if_pos rfl]
  · rintro request (rfl | rfl)
    · exact Request.leaves_get _ _
    · exact (Request.leadsTo_delete object).leavesPath apart

end Served

namespace SiteNames

variable {names : SiteNames}

def surroundings (names : SiteNames) : List Locator :=
  names.namespaceLocator :: names.policies.map names.policyLocator

theorem mem_surroundings_iff : object ∈ names.surroundings ↔
    object = names.namespaceLocator ∨ ∃ name ∈ names.policies, names.policyLocator name = object :=
  by simp [surroundings]

theorem type_mem_surroundings (h : object ∈ names.surroundings) :
    object.type ∈ ResourceType.surroundings := by
  rcases mem_surroundings_iff.mp h with rfl | ⟨name, -, rfl⟩
  · exact show ResourceType.namespaces ∈ ResourceType.surroundings by decide
  · exact show ResourceType.networkPolicies ∈ ResourceType.surroundings by decide

theorem type_mem_written_of_surroundings (h : object ∈ names.surroundings) :
    object.type ∈ ResourceType.written := by
  rcases mem_surroundings_iff.mp h with rfl | ⟨name, -, rfl⟩
  · exact show ResourceType.namespaces ∈ ResourceType.written by decide
  · exact show ResourceType.networkPolicies ∈ ResourceType.written by decide

end SiteNames

namespace Site

variable {site : Site} {manager now : String} {plan : Plan} {owner : SiteOwner}
  {prep : List AnsweredEffect} {progress : Progress} {reference : OwnerReference}
  {labels : Entries String} {template : Template}

/-- The object is there: the one that was there before, or else one that is made for the owner. -/
def Provides (reference : OwnerReference) (labels : Entries String) (object : Locator)
    (cluster last : Cluster) : Prop :=
  ∃ body : Json, body.MadeFor reference labels ∧
    last.stored? object = some ((cluster.stored? object).getD body)

/-- What becomes of the namespace and the network policies of a site with these names and labels,
which goes without the policies or not. -/
structure SeesTo (names : SiteNames) (omits : Bool) (labels : Entries String)
    (reference : OwnerReference) (cluster last : Cluster) : Prop where
  namespace_ : Provides reference labels names.namespaceLocator cluster last
  kept : omits = false → ∀ name ∈ names.policies,
    Provides reference labels (names.policyLocator name) cluster last
  omitted : omits = true → ∀ name ∈ names.policies,
    last.stored? (names.policyLocator name) =
      (cluster.stored? (names.policyLocator name)).bind (Cluster.dropped reference.uid)

theorem SeesTo.of_stored?_eq {names : SiteNames} {omits : Bool} {start after : Cluster}
    (h : SeesTo names omits labels reference start after)
    (before : ∀ object ∈ names.surroundings, start.stored? object = cluster.stored? object)
    (later : ∀ object ∈ names.surroundings, last.stored? object = after.stored? object) :
    SeesTo names omits labels reference cluster last := by
  have provides {object : Locator} (hobject : object ∈ names.surroundings)
      (provides : Provides reference labels object start after) :
      Provides reference labels object cluster last := by
    rwa [Provides, before object hobject, ← later object hobject] at provides
  have policy {name : String} (hname : name ∈ names.policies) :=
    SiteNames.mem_surroundings_iff.mpr (Or.inr ⟨name, hname, rfl⟩)
  refine ⟨provides (SiteNames.mem_surroundings_iff.mpr (Or.inl rfl)) h.namespace_,
    fun kept name hname => provides (policy hname) (h.kept kept name hname),
    fun omitted name hname => ?_⟩
  rw [later _ (policy hname), h.omitted omitted name hname, before _ (policy hname)]

/-- Seeing to the namespace and the policies of a site makes of them what should become of them. -/
theorem seesTo_of_served (segmented : ∀ object ∈ plan.objects, object.Segmented)
    (run : (reconcileNamespace plan owner).Runs trace (.ok ()))
    (served : Served cluster trace last) :
    SeesTo plan.names plan.omitPolicies plan.composition.labels owner.reference cluster last := by
  obtain ⟨hnamespace, hnginx⟩ := forall_mem_policies_iff.mp
    fun _ (hname : _ ∈ plan.names.policies) => segmented _ (Plan.policyLocator_mem_objects hname)
  obtain ⟨hfirst, hsecond⟩ := forall_mem_policies_iff.mp
    fun _ (hname : _ ∈ plan.names.policies) => Plan.wirePath_policy_ne segmented hname
  have apart := Plan.wirePath_policies_ne segmented
  have madeFor (name : String) (pods ingress : Json) := plan.names.madeFor_policyObject
    owner.reference plan.composition.labels name pods ingress
  have names (name : String) (pods ingress : Json) := plan.names.field_name_policyObject
    owner.reference plan.composition.labels name pods ingress
  rcases Task.runs_bind_iff.mp run with ⟨_, -, heq⟩ | ⟨created, _, rest, rfl, hcreate, hrest⟩
  · cases heq
  obtain ⟨start, hcreated, hserved⟩ := served.of_append
  have turns := hcreated.turns_of_createMissing hcreate rfl
    (segmented _ plan.namespaceLocator_mem_objects) (plan.names.field_name_namespaceObject _ _)
  have provided := plan.names.madeFor_namespaceObject owner.reference plan.composition.labels
  unfold reconcilePolicies at hrest
  cases homit : plan.omitPolicies with
  | true =>
      simp only [homit, if_true] at hrest
      obtain ⟨_, _, _, _, rfl, hdrop, hdrop'⟩ := Task.runs_both hrest
      obtain ⟨between, hdropped, hdropped'⟩ := hserved.of_append
      obtain ⟨hns, hpolicy, hpolicy'⟩ := turns.three (hdropped.turns_of_deleteOwned hdrop rfl)
        (hdropped'.turns_of_deleteOwned hdrop' rfl) hfirst hsecond apart
      exact ⟨⟨_, provided, hns⟩, nofun, fun _ => forall_mem_policies_iff.mpr ⟨hpolicy, hpolicy'⟩⟩
  | false =>
      simp only [homit, Bool.false_eq_true, if_false] at hrest
      obtain ⟨_, _, _, _, rfl, hput, hput'⟩ := Task.runs_both hrest
      obtain ⟨between, hmade, hmade'⟩ := hserved.of_append
      obtain ⟨hns, hpolicy, hpolicy'⟩ := turns.three
        (hmade.turns_of_createMissing hput rfl hnamespace (names _ _ _))
        (hmade'.turns_of_createMissing hput' rfl hnginx (names _ _ _)) hfirst hsecond apart
      exact ⟨⟨_, provided, hns⟩, fun _ => forall_mem_policies_iff.mpr
        ⟨⟨_, madeFor _ _ _, hpolicy⟩, ⟨_, madeFor _ _ _, hpolicy'⟩⟩, nofun⟩

/-- The preparations of a reconcile leave the objects of the site alone. -/
theorem Prepares.leaves {request : Request} (h : site.Prepares request)
    (hobject : object.type ∈ ResourceType.written) : request.Leaves object := by
  cases h with
  | readTemplate => exact Request.leaves_get _ _
  | patchLabels =>
      exact Request.Stays.leaves (fun _ hwire => Request.starts_target_patch hwire) hobject

def referenceTo (site : Site) (uid : String) : OwnerReference :=
  ⟨resourceType.apiVersion, resourceType.kind, site.name, uid, some true, none⟩

theorem exists_referenceTo_of_ownerReference? (h : site.ownerReference? = some reference) :
    ∃ uid, site.metadata.uid = some uid ∧ reference = site.referenceTo uid := by
  obtain ⟨name, hname, hrest⟩ := Option.bind_eq_some_iff.mp h
  obtain ⟨uid, huid, heq⟩ := Option.bind_eq_some_iff.mp hrest
  have hself : site.name = name := by rw [Site.name, ObjectMeta.anyName, hname]
  refine ⟨uid, huid, ?_⟩
  rw [referenceTo, hself]
  exact (Option.some.inj heq).symm

/-- Whether a site goes without its network policies: as it says itself, or else as its template
says, or else not. -/
def omitsPolicies (site : Site) (template : Template) : Bool :=
  (site.spec.overrides.omitPolicies.or template.spec.omitPolicies).getD false

/-- The parts of a reconcile that has succeeded, if the site is not being deleted. -/
theorem runs_reconcile_ok (alive : site.isTerminating = false)
    (run : (site.reconcile manager now).Runs trace (.ok progress)) :
    ∃ plan owner prep added seen made, trace = prep ++ (added ++ (seen ++ made)) ∧
      site.Prepared manager plan owner prep ∧ OnlySends site.Prepares prep ∧
      OnlySends (· = site.finalizerAddition) added ∧
      (reconcileNamespace plan owner).Runs seen (.ok ()) ∧
      (site.maintainDependents plan owner now).Runs made (.ok progress) := by
  obtain ⟨prep, rest, rfl, prepares, ⟨-, _, heq⟩ | ⟨plan, owner, prepared, hproceed⟩⟩ :=
    runs_reconcile run
  · cases heq
  rw [proceed, alive] at hproceed
  obtain ⟨added, rest, rfl, adds, ⟨-, _, heq⟩ | ⟨-, hobjects⟩⟩ := runs_maintain hproceed
  · cases heq
  rcases Task.runs_bind_iff.mp hobjects with ⟨_, -, heq⟩ | ⟨seen, _, made, rfl, hseen, hmade⟩
  · cases heq
  exact ⟨plan, owner, prep, added, seen, made, rfl, prepared, prepares, adds, hseen, hmade⟩

/-- The plan of a site that is not being deleted was composed from the template that was there. -/
theorem Prepared.exists_template (prepared : site.Prepared manager plan owner prep)
    (alive : site.isTerminating = false) (served : Served cluster prep last) :
    ∃ template,
      (cluster.stored? (Template.locator site.spec.templateName)).bind Template.decode =
          some template ∧
        Plan.compose site.name template.metadata.labels template.spec site.spec.overrides =
          .ok plan := by
  obtain ⟨reply, tail, found, labels, blocks, rfl, hfound, hresolve, hcompose⟩ := prepared.composed
  cases served with
  | cons serves =>
      obtain ⟨-, hread⟩ := serves.map_stored?_of_found (not_fails_readTemplate hfound) hfound
      rw [alive] at hresolve
      cases found with
      | none => cases hresolve
      | some template =>
          cases hresolve
          obtain ⟨value, hstored, hdecode⟩ := Option.map_eq_some_iff.mp hread
          exact ⟨template, by rw [hstored, Option.bind_some, hdecode], hcompose⟩

/-- What a reconcile sends before it turns to the namespace leaves the objects of the site alone. -/
theorem stored?_of_prepared {added : List AnsweredEffect} {start held : Cluster}
    (prepares : OnlySends site.Prepares prep) (hprep : Served cluster prep start)
    (adds : OnlySends (· = site.finalizerAddition) added) (hadded : Served start added held)
    (hobject : object.type ∈ ResourceType.written) :
    held.stored? object = cluster.stored? object := by
  have stays : site.finalizerAddition.Stays := fun _ hwire => Request.starts_target_patch hwire
  have hheld := hadded.stored?_eq (adds.mono fun request hrequest =>
    hrequest ▸ stays.leaves hobject)
  exact hheld.trans (hprep.stored?_eq (prepares.mono fun _ h => h.leaves hobject))

/-- What a reconcile does about the dependents of a site leaves its surroundings alone. -/
theorem stored?_of_maintainDependents {result : Except Raised Progress}
    (wellFormed : plan.WellFormed)
    (run : (site.maintainDependents plan owner now).Runs trace result)
    (served : Served cluster trace last) (hobject : object ∈ plan.names.surroundings) :
    last.stored? object = cluster.stored? object := by
  refine served.stored?_eq ((maintainDependents_onlySends wellFormed _ _ run).mono
    fun request hrequest => ?_)
  rcases hrequest with happlies | ⟨status, rfl⟩
  · exact happlies.leavesPath wellFormed
      (plan.names.dependent_wirePath_ne (SiteNames.type_mem_surroundings hobject))
  · exact Request.Stays.leaves (fun _ hwire => Request.starts_target_patchStatus hwire)
      (SiteNames.type_mem_written_of_surroundings hobject)

/-- A reconcile that has succeeded has seen to the namespace and the policies of the site, with the
labels and as the template say that was there. -/
theorem seesTo_of_reconcile (segment : IsSegment site.name) (alive : site.isTerminating = false)
    (run : (site.reconcile manager now).Runs trace (.ok progress))
    (served : Served cluster trace last) :
    ∃ template uid,
      (cluster.stored? (Template.locator site.spec.templateName)).bind Template.decode =
          some template ∧
        site.metadata.uid = some uid ∧
        SeesTo (.derive site.name) (site.omitsPolicies template)
          (siteLabels site.name template.metadata.labels) (site.referenceTo uid) cluster last := by
  obtain ⟨plan, owner, prep, added, seen, made, rfl, prepared, prepares, adds, hseen, hmade⟩ :=
    runs_reconcile_ok alive run
  obtain ⟨start, servedPrep, served⟩ := served.of_append
  obtain ⟨held, servedAdded, served⟩ := served.of_append
  obtain ⟨surrounded, servedSeen, servedMade⟩ := served.of_append
  obtain ⟨template, htemplate, hcompose⟩ := prepared.exists_template alive servedPrep
  obtain ⟨reference, hreference, howner⟩ := prepared.owner
  obtain ⟨uid, huid, rfl⟩ := exists_referenceTo_of_ownerReference? hreference
  have hnames := Plan.compose_names hcompose
  have homits : plan.omitPolicies = site.omitsPolicies template := by
    obtain ⟨_, _, _, _, -, -, -, -, rfl⟩ := Plan.compose_eq_ok_iff.mp hcompose
    rfl
  have segmented (object : Locator) (hobject : object ∈ plan.objects) :=
    Plan.segmented_of_mem_objects hnames segment hobject
  have sees := (seesTo_of_served segmented hseen servedSeen).of_stored?_eq
    (fun _ hobject => stored?_of_prepared prepares servedPrep adds servedAdded
      (SiteNames.type_mem_written_of_surroundings hobject))
    (fun _ hobject => stored?_of_maintainDependents (Plan.compose_wellFormed hcompose) hmade
      servedMade hobject)
  rw [howner, homits, hnames, Plan.compose_composition hcompose] at sees
  exact ⟨template, uid, htemplate, huid, sees⟩

/-- An object that is made for a site carries the labels of the site, and a reference to the site as
its controller and as its only owner. -/
structure Marks (site : Site) (template : Template) (uid : String) (object : Json) : Prop where
  labels : ∃ labels, SharedLabels site.name template.metadata.labels labels ∧
    (object.field "metadata").field "labels" = .textMap labels
  owners : (object.field "metadata").field "ownerReferences" = .array [.ofFields
    [("apiVersion", .string "lms.krestomat.io/v1alpha1"), ("kind", .string "LMSMoodle"),
      ("name", .string site.name), ("uid", .string uid), ("controller", .bool true)]]

/-- The namespace of a site is there. So are its network policies, unless it goes without them, and
then none of them is left that the site controls and that is not going. What was there before has
stayed as it was, or it is a policy that has been deleted for this reason; what is new carries the
labels of the site, and the site as its only owner and its controller. -/
structure Provided (site : Site) (template : Template) (uid : String) (cluster last : Cluster) :
    Prop where
  exists_namespace : (last.stored? (SiteNames.derive site.name).namespaceLocator).isSome = true
  exists_policies : site.omitsPolicies template = false →
    ∀ name ∈ (SiteNames.derive site.name).policies,
      (last.stored? ((SiteNames.derive site.name).policyLocator name)).isSome = true
  omits_policies : site.omitsPolicies template = true →
    ∀ name ∈ (SiteNames.derive site.name).policies, ∀ left,
      last.stored? ((SiteNames.derive site.name).policyLocator name) = some left →
        left.ownedBy uid = true → Cluster.isTerminating left = true
  keeps_namespace : ∀ value,
    cluster.stored? (SiteNames.derive site.name).namespaceLocator = some value →
      last.stored? (SiteNames.derive site.name).namespaceLocator = some value
  keeps_policies : ∀ name ∈ (SiteNames.derive site.name).policies, ∀ value,
    cluster.stored? ((SiteNames.derive site.name).policyLocator name) = some value →
      last.stored? ((SiteNames.derive site.name).policyLocator name) = some value ∨
        site.omitsPolicies template = true ∧ value.ownedBy uid = true ∧
          Cluster.isTerminating value = false ∧
          last.stored? ((SiteNames.derive site.name).policyLocator name) =
            if Cluster.hasFinalizers value then some (Cluster.deletion.mergePatch value) else none
  creates : ∀ object ∈ (SiteNames.derive site.name).surroundings, ∀ left,
    cluster.stored? object = none → last.stored? object = some left →
      site.Marks template uid left

theorem marks_of_madeFor (h : value.MadeFor (site.referenceTo uid)
    (siteLabels site.name template.metadata.labels)) : site.Marks template uid value :=
  ⟨⟨_, sharedLabels_siteLabels site.name template.metadata.labels, h.labels⟩, h.owners⟩

theorem Provides.isSome (h : Provides reference labels object cluster last) :
    (last.stored? object).isSome = true := by
  obtain ⟨body, -, hstored⟩ := h
  rw [hstored, Option.isSome_some]

theorem Provides.kept (h : Provides reference labels object cluster last)
    (hvalue : cluster.stored? object = some value) : last.stored? object = some value := by
  obtain ⟨body, -, hstored⟩ := h
  rw [hstored, hvalue, Option.getD_some]

theorem Provides.madeFor (h : Provides reference labels object cluster last)
    (hnone : cluster.stored? object = none) (hleft : last.stored? object = some left) :
    left.MadeFor reference labels := by
  obtain ⟨body, madeFor, hstored⟩ := h
  rw [hstored, hnone, Option.getD_none] at hleft
  exact Option.some.inj hleft ▸ madeFor

theorem SeesTo.provided {uid : String}
    (h : SeesTo (.derive site.name) (site.omitsPolicies template)
      (siteLabels site.name template.metadata.labels) (site.referenceTo uid) cluster last) :
    site.Provided template uid cluster last where
  exists_namespace := h.namespace_.isSome
  exists_policies := fun kept name hname => (h.kept kept name hname).isSome
  omits_policies := by
    intro omitted name hname left hleft
    rw [h.omitted omitted name hname] at hleft
    obtain ⟨value, -, hdropped⟩ := Option.bind_eq_some_iff.mp hleft
    exact Cluster.isTerminating_of_dropped hdropped
  keeps_namespace := fun value => h.namespace_.kept
  keeps_policies := by
    intro name hname value hvalue
    cases homits : site.omitsPolicies template with
    | false => exact Or.inl ((h.kept homits name hname).kept hvalue)
    | true =>
        have hleft := h.omitted homits name hname
        rw [hvalue, Option.bind_some, Cluster.dropped] at hleft
        split at hleft
        · next deletable =>
            rw [Bool.and_eq_true, Bool.not_eq_true'] at deletable
            exact Or.inr ⟨rfl, deletable.1, deletable.2, hleft⟩
        · exact Or.inl hleft
  creates := by
    intro object hobject left hnone hleft
    rcases SiteNames.mem_surroundings_iff.mp hobject with rfl | ⟨name, hname, rfl⟩
    · exact marks_of_madeFor (h.namespace_.madeFor hnone hleft)
    · cases homits : site.omitsPolicies template with
      | false => exact marks_of_madeFor ((h.kept homits name hname).madeFor hnone hleft)
      | true =>
          rw [h.omitted homits name hname, hnone] at hleft
          cases hleft

/-- A reconcile that has succeeded has provided the site with its namespace and its network
policies, or with none of the latter if it should go without them, whatever was there before. -/
theorem reconcile_provides (segment : IsSegment site.name) (alive : site.isTerminating = false)
    (run : (site.reconcile manager now).Runs trace (.ok progress))
    (served : Served cluster trace last) :
    ∃ template uid,
      (cluster.stored? (Template.locator site.spec.templateName)).bind Template.decode =
          some template ∧
        site.metadata.uid = some uid ∧ site.Provided template uid cluster last := by
  obtain ⟨template, uid, htemplate, huid, sees⟩ := seesTo_of_reconcile segment alive run served
  exact ⟨template, uid, htemplate, huid, sees.provided⟩

/-- A site that goes without network policies. -/
def unguarded : Site :=
  { kept "a" with spec := ⟨"t", none, { SpecBlocks.empty with omitPolicies := some true }⟩ }

def ownPolicy : Json :=
  (SiteNames.derive "a").namespacePolicyObject (unguarded.referenceTo "a") []

/-- A network policy that another owner has made under the name of one of the site's. -/
def foreignPolicy : Json :=
  (SiteNames.derive "a").nginxPolicyObject (unguarded.referenceTo "b") []

/-- A cluster with the site, a template with labels, one of which is the site's own, and these two
policies. -/
def policedCluster : Cluster where
  objects := [
    ("/apis/lms.krestomat.io/v1alpha1/lmsmoodles/a",
      .ofFields [("metadata", unguarded.metadata.encode), ("spec", unguarded.spec.encode)]),
    ("/apis/lms.krestomat.io/v1alpha1/lmsmoodletemplates/t",
      .ofFields [("metadata", .ofFields [("labels",
          .textMap [("lms.krestomat.io/lms-name", "x"), ("tier", "1")])]),
        ("spec", .object [])]),
    ("/apis/networking.k8s.io/v1/namespaces/lms-a/networkpolicies/lms-a-nginx", foreignPolicy),
    ("/apis/networking.k8s.io/v1/namespaces/lms-a/networkpolicies/lms-a-ns", ownPolicy)]

/-- The reconcile of the site deletes its own policy, keeps the other one, and creates the namespace
with the labels of the template but for the one that is the site's own. -/
theorem reconcile_provides_of_unguarded :
    ∃ trace last made, (unguarded.reconcile "manager" "now").Runs trace (.ok .requeue) ∧
      Served policedCluster trace last ∧
      last.stored? ((SiteNames.derive "a").policyLocator "lms-a-ns") = none ∧
      last.stored? ((SiteNames.derive "a").policyLocator "lms-a-nginx") = some foreignPolicy ∧
      last.stored? ⟨.namespaces, none, "lms-a"⟩ = some made ∧
      ((made.field "metadata").field "labels").field "lms.krestomat.io/lms-name" = .string "a" ∧
      ((made.field "metadata").field "labels").field "lms.krestomat.io/meta-operator-name" =
        .string "lms-moodle-operator" ∧
      ((made.field "metadata").field "labels").field "tier" = .string "1" ∧
      (made.field "metadata").field "ownerReferences" = .array [.ofFields
        [("apiVersion", .string "lms.krestomat.io/v1alpha1"), ("kind", .string "LMSMoodle"),
          ("name", .string "a"), ("uid", .string "a"), ("controller", .bool true)]] := by
  have run := Dialogue.runs_transcript (Cluster.serve false)
    (unguarded.reconcile "manager" "now").run policedCluster
  have served := Cluster.served_transcript false (unguarded.reconcile "manager" "now").run
    policedCluster
  have waits : (Dialogue.run (Cluster.serve false) (unguarded.reconcile "manager" "now").run
      policedCluster).1 = .ok .requeue := by
    decide +kernel
  rw [waits] at run
  obtain ⟨template, uid, htemplate, huid, provided⟩ :=
    reconcile_provides (by decide) (by decide) run served
  obtain rfl : uid = "a" := Option.some.inj huid.symm
  have hown : policedCluster.stored? ((SiteNames.derive "a").policyLocator "lms-a-ns") =
      some ownPolicy := by
    decide +kernel
  have hforeign : policedCluster.stored? ((SiteNames.derive "a").policyLocator "lms-a-nginx") =
      some foreignPolicy := by
    decide +kernel
  have alive : Cluster.isTerminating ownPolicy = false := by decide +kernel
  have hlabels : ((policedCluster.stored? (Template.locator "t")).bind Template.decode).map
      (·.metadata.labels) = some (some [("lms.krestomat.io/lms-name", "x"), ("tier", "1")]) := by
    decide +kernel
  have hnone : policedCluster.stored? ⟨.namespaces, none, "lms-a"⟩ = none := by decide +kernel
  obtain ⟨made, hmade⟩ := Option.isSome_iff_exists.mp provided.exists_namespace
  obtain ⟨⟨labels, shared, hmeta⟩, howners⟩ :=
    provided.creates _ (SiteNames.mem_surroundings_iff.mpr (Or.inl rfl)) made hnone hmade
  have htier : Entries.at? labels "tier" = some "1" := by
    have hinherited : template.metadata.labels = _ :=
      Option.some.inj ((congrArg _ htemplate).symm.trans hlabels)
    rw [shared.inherited "tier" (by decide) (by decide), hinherited]
    rfl
  have shows {key text : String} (h : Entries.at? labels key = some text) :
      ((made.field "metadata").field "labels").field key = .string text := by
    rw [hmeta, Json.field_textMap, h]
    rfl
  refine ⟨_, _, made, run, served, ?_, ?_, hmade, shows shared.named, shows shared.managed,
    shows htier, howners⟩
  · rcases provided.keeps_policies "lms-a-ns" (by decide) _ hown with hsame | ⟨-, -, -, hgone⟩
    · have hgoing := provided.omits_policies rfl "lms-a-ns" (by decide) _ hsame (by decide +kernel)
      exact absurd (alive.symm.trans hgoing) (by decide)
    · exact hgone
  · rcases provided.keeps_policies "lms-a-nginx" (by decide) _ hforeign with hsame | ⟨-, howned, -⟩
    · exact hsame
    · exact absurd howned (by decide +kernel)

end Site

end SiteOperator
