import SiteOperator.Cluster.Store
import SiteOperator.Proofs.Reconcile.Finalizer
import SiteOperator.Proofs.Resource.Metadata

/-!
# Only what a site owns is deleted

All deletions of a reconcile are part of one sweep over the objects that the plan lets it delete
(`Sweep`): each of them is read, and deleted right after that if and only if its controller is the
site and it is not going already. What a reconcile writes for a site it reads again as owned by the
site (`MaySend.deletable_stored`).
-/

namespace SiteOperator

/-- An object with this metadata may be deleted for an owner: it is not going already, and the first
of its owners that is its controller has the owner's UID. -/
def ObjectMeta.Deletable (data : ObjectMeta) (uid : String) : Prop :=
  data.deletionTimestamp = none ∧ ∃ owner, data.controller? = some owner ∧ owner.uid = uid

theorem ObjectMeta.deleteRefusal?_eq_none_iff {data : ObjectMeta} {uid : String} :
    data.deleteRefusal? uid = none ↔ data.Deletable uid := by
  cases htime : data.deletionTimestamp with
  | some time => simp [deleteRefusal?, isTerminating, Deletable, htime]
  | none =>
      cases howner : data.controller? with
      | none => simp [deleteRefusal?, isTerminating, ownedBy, Deletable, htime, howner]
      | some owner => simp [deleteRefusal?, isTerminating, ownedBy, Deletable, htime, howner]

theorem ObjectMeta.deletable_ownedMeta (name : String) (namespaceName : Option String)
    {owner : OwnerReference} (labels : Entries String) (h : owner.controller = some true) :
    (ownedMeta name namespaceName owner labels).Deletable owner.uid :=
  ⟨rfl, owner, controller?_ownedMeta name namespaceName labels h, rfl⟩

def Request.Stores (earlier : Option Json) (object : Json) : Request → Prop
  | create _ body => object = body
  | apply _ _ body => object = Cluster.applied earlier body
  | get _ | patch _ _ | patchStatus _ _ | delete _ => False

/-- The status that an object keeps says nothing about its metadata. -/
theorem Cluster.anyMeta_applied (earlier : Option Json) (body : Json) :
    Decoder.anyMeta (applied earlier body) = Decoder.anyMeta body := by
  have hput (fields : Fields) (status : Json) :
      Decoder.anyMeta (.object (Entries.put fields "status" status)) =
        Decoder.anyMeta (.object fields) := by
    simp [Decoder.anyMeta, Decoder.object, Json.fields?, Fields.defaulted, Entries.at?_put]
  simp only [applied]
  split
  · exact hput _ _
  · rfl

/-- What is sent about one object: nothing, a request that reads it, or a request that reads it and
one that deletes it. It is deleted exactly if what was read may be deleted. -/
inductive Swept (uid : String) (object : Locator) : List AnsweredEffect → Prop where
  | nothing : Swept uid object []
  | spared {reply : Reply} (h : ∀ code body data, reply = .success code (some body) →
      object.type.reader body = some data → ¬ data.Deletable uid) :
      Swept uid object [sent (.get object) reply]
  | deleted {code : Nat} {body : Json} {data : ObjectMeta} {reply : Reply}
      (read : object.type.reader body = some data) (deletable : data.Deletable uid) :
      Swept uid object [sent (.get object) (.success code (some body)), sent (.delete object) reply]

/-- Objects are swept one after the other, beginning with the first, and maybe not all of them. -/
inductive Sweep (uid : String) : List Locator → List AnsweredEffect → Prop where
  | stop {objects : List Locator} : Sweep uid objects []
  | step {object : Locator} {objects : List Locator} {first notes rest : List AnsweredEffect}
      (swept : Swept uid object first) (quiet : ∀ request reply, sent request reply ∉ notes)
      (sweep : Sweep uid objects rest) : Sweep uid (object :: objects) (first ++ notes ++ rest)

theorem DeleteCheck.swept {object : Locator} {kind uid : String} {trace : List AnsweredEffect}
    {result : Except Raised DeleteOutcome}
    (check : DeleteCheck object kind uid object.type.reader trace result) :
    Swept uid object trace := by
  have spares {reply : Reply} (h : ∀ data, reply.found object.type.reader = .ok (some data) →
      ¬ data.Deletable uid) : Swept uid object [sent (.get object) reply] := by
    refine .spared fun code body data hreply hread => h data ?_
    exact Reply.found_eq_some_iff.mpr ⟨code, body, hreply, hread⟩
  have deletes {reply answer : Reply} {data : ObjectMeta}
      (h : reply.found object.type.reader = .ok (some data))
      (allowed : data.deleteRefusal? uid = none) :
      Swept uid object [sent (.get object) reply, sent (.delete object) answer] := by
    obtain ⟨code, body, rfl, hread⟩ := Reply.found_eq_some_iff.mp h
    exact .deleted hread (ObjectMeta.deleteRefusal?_eq_none_iff.mp allowed)
  cases check with
  | unsent => exact .nothing
  | unread h | absent h => exact spares fun data hdata => by simp [h] at hdata
  | kept h refused =>
      refine spares fun data hdata deletable => ?_
      rw [h] at hdata
      cases hdata
      rw [ObjectMeta.deleteRefusal?_eq_none_iff.mpr deletable] at refused
      cases refused
  | failed h allowed => exact deletes h allowed
  | removed h allowed => exact deletes h allowed

namespace Swept

variable {uid : String} {object target : Locator} {trace before after : List AnsweredEffect}
  {reply : Reply} {code : Nat} {body : Json} {data : ObjectMeta}

theorem onlySends (swept : Swept uid object trace) :
    OnlySends (fun request => request = .get object ∨ request = .delete object) trace := by
  intro request reply hmem
  cases swept with
  | nothing => cases hmem
  | spared => exact Or.inl (sent_inj (List.mem_singleton.mp hmem)).1
  | deleted =>
      rcases List.mem_cons.mp hmem with heq | hmem
      · exact Or.inl (sent_inj heq).1
      · exact Or.inr (sent_inj (List.mem_singleton.mp hmem)).1

theorem deletes (swept : Swept uid object (before ++ sent (.delete target) reply :: after)) :
    target = object ∧ ∃ code body data,
      before = [sent (.get object) (.success code (some body))] ∧
        object.type.reader body = some data ∧ data.Deletable uid := by
  generalize htrace : before ++ sent (.delete target) reply :: after = trace at swept
  cases swept with
  | nothing => simp at htrace
  | spared =>
      rcases List.append_eq_singleton_iff.mp htrace with ⟨-, heq⟩ | ⟨-, heq⟩
      · cases (sent_inj (List.cons.inj heq).1).1
      · cases heq
  | deleted read deletable =>
      cases before with
      | nil => cases (sent_inj (List.cons.inj htrace).1).1
      | cons head before =>
          obtain ⟨rfl, hrest⟩ := List.cons.inj htrace
          rcases List.append_eq_singleton_iff.mp hrest with ⟨rfl, heq⟩ | ⟨-, heq⟩
          · cases (sent_inj (List.cons.inj heq).1).1
            exact ⟨rfl, _, _, _, rfl, read, deletable⟩
          · cases heq

theorem reads (swept : Swept uid object
      (before ++ sent (.get target) (.success code (some body)) :: after))
    (read : target.type.reader body = some data) (deletable : data.Deletable uid) :
    ∃ reply, after = [sent (.delete target) reply] := by
  generalize htrace : before ++ sent (.get target) (.success code (some body)) :: after = trace
    at swept
  cases swept with
  | nothing => simp at htrace
  | spared h =>
      rcases List.append_eq_singleton_iff.mp htrace with ⟨-, heq⟩ | ⟨-, heq⟩
      · obtain ⟨hrequest, hreply⟩ := sent_inj (List.cons.inj heq).1
        cases hrequest
        exact absurd deletable (h code body data hreply.symm read)
      · cases heq
  | @deleted _ _ _ reply _ _ =>
      cases before with
      | nil =>
          obtain ⟨hhead, rfl⟩ := List.cons.inj htrace
          cases (sent_inj hhead).1
          exact ⟨reply, rfl⟩
      | cons head before =>
          rcases List.append_eq_singleton_iff.mp (List.cons.inj htrace).2 with ⟨-, heq⟩ | ⟨-, heq⟩
          · cases (sent_inj (List.cons.inj heq).1).1
          · cases heq

end Swept

namespace Sweep

variable {uid : String} {objects : List Locator} {target : Locator}
  {trace before after : List AnsweredEffect} {reply : Reply} {code : Nat} {body : Json}
  {data : ObjectMeta}

theorem cons {object : Locator} {first rest : List AnsweredEffect} (swept : Swept uid object first)
    (sweep : Sweep uid objects rest) : Sweep uid (object :: objects) (first ++ rest) := by
  have quiet (request reply) : sent request reply ∉ ([] : List AnsweredEffect) := List.not_mem_nil
  simpa using step swept quiet sweep

theorem onlySends (sweep : Sweep uid objects trace) :
    OnlySends (fun request => ∃ object ∈ objects, request = .get object ∨ request = .delete object)
      trace := by
  induction sweep with
  | stop => exact (OnlySends.chains _).nil
  | step swept quiet _ ih =>
      refine (OnlySends.chains _).append ((OnlySends.chains _).append ?_ ?_) ?_
      · exact swept.onlySends.mono fun request h => ⟨_, List.mem_cons_self, h⟩
      · exact fun request reply hmem => absurd hmem (quiet request reply)
      · refine ih.mono fun request h => ?_
        obtain ⟨object, hobject, h⟩ := h
        exact ⟨object, List.mem_cons_of_mem _ hobject, h⟩

/-- A deletion directly follows the answer that the object may be deleted. -/
theorem deletes (sweep : Sweep uid objects trace)
    (htrace : trace = before ++ sent (.delete target) reply :: after) :
    ∃ earlier code body data,
      before = earlier ++ [sent (.get target) (.success code (some body))] ∧
        target.type.reader body = some data ∧ data.Deletable uid := by
  induction sweep generalizing before with
  | stop => simp at htrace
  | @step object objects first notes rest swept quiet sweep ih =>
      rcases append_eq_append_cons htrace with ⟨tail, hfirst, -⟩ | ⟨lead, rfl, hrest⟩
      · rcases append_eq_append_cons hfirst with ⟨tail, rfl, -⟩ | ⟨lead, -, rfl⟩
        · obtain ⟨rfl, code, body, data, rfl, h⟩ := swept.deletes
          exact ⟨[], code, body, data, rfl, h⟩
        · exact absurd (by simp) (quiet (.delete target) reply)
      · obtain ⟨earlier, code, body, data, rfl, h⟩ := ih hrest
        exact ⟨first ++ notes ++ earlier, code, body, data, by simp, h⟩

/-- The answer that an object may be deleted is directly followed by its deletion. -/
theorem reads (sweep : Sweep uid objects trace)
    (htrace : trace = before ++ sent (.get target) (.success code (some body)) :: after)
    (read : target.type.reader body = some data) (deletable : data.Deletable uid) :
    ∃ reply rest, after = sent (.delete target) reply :: rest := by
  induction sweep generalizing before after with
  | stop => simp at htrace
  | @step object objects first notes rest swept quiet sweep ih =>
      rcases append_eq_append_cons htrace with ⟨tail, hfirst, rfl⟩ | ⟨lead, rfl, hrest⟩
      · rcases append_eq_append_cons hfirst with ⟨tail, rfl, rfl⟩ | ⟨lead, -, rfl⟩
        · obtain ⟨reply, rfl⟩ := swept.reads read deletable
          exact ⟨reply, _, rfl⟩
        · exact absurd (by simp) (quiet (.get target) (.success code (some body)))
      · exact ih hrest

/-- An object that must not be deleted is not deleted. -/
theorem spares (sweep : Sweep uid objects trace) (distinct : objects.Nodup)
    (hmem : sent (.get target) (.success code (some body)) ∈ trace)
    (read : target.type.reader body = some data) (kept : ¬ data.Deletable uid) (reply : Reply) :
    sent (.delete target) reply ∉ trace := by
  intro hdelete
  induction sweep with
  | stop => cases hdelete
  | @step object objects first notes rest swept quiet sweep ih =>
      obtain ⟨hnew, distinct⟩ := List.nodup_cons.mp distinct
      have parts {request reply} (h : sent request reply ∈ first ++ notes ++ rest) :
          sent request reply ∈ first ∨ sent request reply ∈ rest := by
        simpa [quiet request reply] using h
      by_cases htarget : target = object
      · subst htarget
        have later {request reply} (h : sent request reply ∈ rest) :
            request ≠ .get target ∧ request ≠ .delete target := by
          obtain ⟨other, hother, heq⟩ := sweep.onlySends request reply h
          have hne : other ≠ target := fun heq => hnew (heq ▸ hother)
          rcases heq with rfl | rfl <;> simp [hne]
        have hget := (parts hmem).resolve_right fun h => (later h).1 rfl
        have hdelete := (parts hdelete).resolve_right fun h => (later h).2 rfl
        cases swept with
        | nothing => cases hget
        | spared => cases (sent_inj (List.mem_singleton.mp hdelete)).1
        | deleted hread deletable =>
            rcases List.mem_cons.mp hget with heq | hget
            · cases (sent_inj heq).2
              rw [read] at hread
              cases hread
              exact kept deletable
            · cases (sent_inj (List.mem_singleton.mp hget)).1
      · have earlier {request reply} (h : sent request reply ∈ first) :
            request ≠ .get target ∧ request ≠ .delete target := by
          rcases swept.onlySends request reply h with rfl | rfl <;> simp [Ne.symm htarget]
        exact ih distinct ((parts hmem).resolve_left fun h => (earlier h).1 rfl)
          ((parts hdelete).resolve_left fun h => (earlier h).2 rfl)

end Sweep

/-- A request that deletes nothing and reads none of the objects. -/
def Request.Spares (objects : List Locator) : Request → Prop
  | delete _ => False
  | get object => object ∉ objects
  | create _ _ | apply _ _ _ | patch _ _ | patchStatus _ _ => True

/-- A trace sweeps once over the objects, and does nothing about them before and after that. -/
def SweepsOnce (uid : String) (objects : List Locator) (trace : List AnsweredEffect) : Prop :=
  ∃ front swept back, trace = front ++ swept ++ back ∧ Sweep uid objects swept ∧
    OnlySends (Request.Spares objects) front ∧ OnlySends (Request.Spares objects) back

namespace SweepsOnce

variable {uid : String} {objects : List Locator} {target : Locator}
  {trace other before after : List AnsweredEffect} {reply : Reply} {code : Nat} {body : Json}
  {data : ObjectMeta}

theorem of_sweep (sweep : Sweep uid objects trace) : SweepsOnce uid objects trace :=
  ⟨[], trace, [], by simp, sweep, (OnlySends.chains _).nil, (OnlySends.chains _).nil⟩

theorem of_spares (spares : OnlySends (Request.Spares objects) trace) :
    SweepsOnce uid objects trace :=
  ⟨trace, [], [], by simp, .stop, spares, (OnlySends.chains _).nil⟩

theorem prepend (once : SweepsOnce uid objects trace)
    (spares : OnlySends (Request.Spares objects) other) :
    SweepsOnce uid objects (other ++ trace) := by
  obtain ⟨front, swept, back, rfl, sweep, hfront, hback⟩ := once
  exact ⟨other ++ front, swept, back, by simp, sweep, (OnlySends.chains _).append spares hfront,
    hback⟩

theorem append (once : SweepsOnce uid objects trace)
    (spares : OnlySends (Request.Spares objects) other) :
    SweepsOnce uid objects (trace ++ other) := by
  obtain ⟨front, swept, back, rfl, sweep, hfront, hback⟩ := once
  exact ⟨front, swept, back ++ other, by simp, sweep, hfront,
    (OnlySends.chains _).append hback spares⟩

/-- A deletion is part of the sweep. -/
theorem deletes (once : SweepsOnce uid objects trace)
    (htrace : trace = before ++ sent (.delete target) reply :: after) :
    target ∈ objects ∧ ∃ earlier code body data,
      before = earlier ++ [sent (.get target) (.success code (some body))] ∧
        target.type.reader body = some data ∧ data.Deletable uid := by
  obtain ⟨front, swept, back, rfl, sweep, hfront, hback⟩ := once
  rcases append_eq_append_cons htrace with ⟨tail, hfirst, -⟩ | ⟨lead, -, rfl⟩
  · rcases append_eq_append_cons hfirst with ⟨tail, rfl, -⟩ | ⟨lead, rfl, hswept⟩
    · exact (hfront (.delete target) reply (by simp)).elim
    · obtain ⟨object, hobject, heq⟩ := sweep.onlySends (.delete target) reply (by simp [hswept])
      obtain rfl : target = object := by simpa using heq
      obtain ⟨earlier, code, body, data, rfl, h⟩ := sweep.deletes hswept
      exact ⟨hobject, front ++ earlier, code, body, data, by simp, h⟩
  · exact (hback (.delete target) reply (by simp)).elim

/-- An object that is read and may be deleted is deleted next. -/
theorem reads (once : SweepsOnce uid objects trace) (htarget : target ∈ objects)
    (htrace : trace = before ++ sent (.get target) (.success code (some body)) :: after)
    (read : target.type.reader body = some data) (deletable : data.Deletable uid) :
    ∃ reply rest, after = sent (.delete target) reply :: rest := by
  obtain ⟨front, swept, back, rfl, sweep, hfront, hback⟩ := once
  rcases append_eq_append_cons htrace with ⟨tail, hfirst, rfl⟩ | ⟨lead, -, rfl⟩
  · rcases append_eq_append_cons hfirst with ⟨tail, rfl, -⟩ | ⟨lead, rfl, hswept⟩
    · exact absurd htarget (hfront (.get target) (.success code (some body)) (by simp))
    · obtain ⟨reply, rest, rfl⟩ := sweep.reads hswept read deletable
      exact ⟨reply, rest ++ back, rfl⟩
  · exact absurd htarget (hback (.get target) (.success code (some body)) (by simp))

/-- An object that is read and must not be deleted is not deleted. -/
theorem spares (once : SweepsOnce uid objects trace) (distinct : objects.Nodup)
    (htarget : target ∈ objects)
    (hmem : sent (.get target) (.success code (some body)) ∈ trace)
    (read : target.type.reader body = some data) (kept : ¬ data.Deletable uid) (reply : Reply) :
    sent (.delete target) reply ∉ trace := by
  obtain ⟨front, swept, back, rfl, sweep, hfront, hback⟩ := once
  have inSweep {request answer} (h : sent request answer ∈ front ++ swept ++ back)
      (hspared : ¬ request.Spares objects) : sent request answer ∈ swept := by
    rcases List.mem_append.mp h with h | h
    · exact (List.mem_append.mp h).resolve_left fun h => hspared (hfront _ _ h)
    · exact absurd (hback _ _ h) hspared
  intro hdelete
  exact sweep.spares distinct (inSweep hmem fun h => h htarget) read kept reply
    (inSweep hdelete not_false)

end SweepsOnce

/-- A pass that deletes dependents sweeps over them. -/
theorem SiteOwner.sweep_of_performed {owner : SiteOwner} {deps : List DependentSpec}
    {made : List Pass.AnsweredCall} {trace : List AnsweredEffect}
    (performed : Dialogue.Performed owner.perform made trace)
    (hcalls : Pass.calls made <+: deps.map .delete) :
    Sweep owner.reference.uid (deps.map DependentSpec.locator) trace := by
  induction performed generalizing deps with
  | nil => exact .stop
  | @cons call answer made first rest run performed ih =>
      obtain ⟨later, hsplit⟩ := hcalls
      cases deps with
      | nil => cases hsplit
      | cons d deps =>
          obtain ⟨rfl, hrest⟩ := List.cons.inj hsplit
          have swept := ih ⟨later, hrest⟩
          obtain ⟨check, hcheck, htrace⟩ := runs_delete run
          rw [← d.kind.reader_resourceType] at hcheck
          rcases htrace with rfl | ⟨-, rfl⟩
          · exact .cons hcheck.swept swept
          · exact .step hcheck.swept
              (fun request reply hmem => sent_ne_recorded (List.mem_singleton.mp hmem)) swept

namespace Site

variable {site : Site} {manager now : String} {plan : Plan} {owner : SiteOwner}
  {trace : List AnsweredEffect} {uid : String}

/-- Network policies that are left out are swept. -/
theorem sweep_policies (omitted : plan.omitPolicies = true) {result : Except Raised Unit}
    (run : (reconcilePolicies plan owner).Runs trace result) :
    Sweep owner.reference.uid (plan.names.policies.map plan.names.policyLocator) trace := by
  have drop {name : String} {trace : List AnsweredEffect} {result : Except Raised Unit}
      (run : (Task.deleteOwned (plan.names.policyLocator name) ResourceType.networkPolicies.kind
          owner.reference.uid (Decoder.typedMeta .networkPolicies Shape.networkPolicy) >>= fun _ =>
        pure ()).Runs trace result) :
      Swept owner.reference.uid (plan.names.policyLocator name) trace := by
    rcases Task.runs_bind_iff.mp run with ⟨error, hcheck, -⟩ | ⟨first, _, rest, rfl, hcheck, hrest⟩
    · exact (Task.runs_deleteOwned hcheck).swept
    · obtain ⟨rfl, -⟩ := Task.runs_pure_iff.mp hrest
      rw [List.append_nil]
      exact (Task.runs_deleteOwned hcheck).swept
  simp only [reconcilePolicies, omitted, if_true] at run
  rcases Task.runs_bind_iff.mp run with ⟨error, hfirst, -⟩ | ⟨first, _, rest, rfl, hfirst, hrest⟩
  · rw [← List.append_nil trace]
    exact .cons (drop hfirst) .stop
  · rw [← List.append_nil rest]
    exact .cons (drop hfirst) (.cons (drop hrest) .stop)

/-- The objects that a reconcile of a site may delete: the dependents of the plan if the site is
being deleted and carries the finalizer, and the network policies if it is not being deleted and the
plan leaves them out. -/
def deletionTargets (site : Site) (plan : Plan) : List Locator :=
  if site.isTerminating then
    if site.metadata.hasFinalizer operatorFinalizer then
      (Pass.configured plan [.moodle, .keydb, .postgres, .nfs]).map DependentSpec.locator
    else []
  else if plan.omitPolicies then plan.names.policies.map plan.names.policyLocator
  else []

theorem mem_deletionTargets {object : Locator} (h : object ∈ site.deletionTargets plan) :
    (site.isTerminating = true ∧ ∃ d : DependentSpec, object = d.locator) ∨
      (site.isTerminating = false ∧ object.type = .networkPolicies) := by
  unfold deletionTargets at h
  cases hterminating : site.isTerminating with
  | true =>
      cases hcarries : site.metadata.hasFinalizer operatorFinalizer with
      | false => simp [hterminating, hcarries] at h
      | true =>
          simp only [hterminating, hcarries, if_true] at h
          obtain ⟨d, -, rfl⟩ := List.mem_map.mp h
          exact Or.inl ⟨rfl, d, rfl⟩
  | false =>
      cases homit : plan.omitPolicies with
      | false => simp [hterminating, homit] at h
      | true =>
          simp only [hterminating, homit, Bool.false_eq_true, if_false, if_true] at h
          obtain ⟨name, -, rfl⟩ := List.mem_map.mp h
          exact Or.inr ⟨rfl, rfl⟩

theorem nodup_deletionTargets (h : plan.WellFormed) : (site.deletionTargets plan).Nodup := by
  have hkinds : [DependentKind.moodle, .keydb, .postgres, .nfs].Nodup := by decide
  have hdependents : ((Pass.configured plan [.moodle, .keydb, .postgres, .nfs]).map
      DependentSpec.locator).Nodup := by
    refine List.pairwise_map.mpr ((Pass.pairwise_configured h hkinds).imp fun hne heq => hne ?_)
    exact DependentKind.resourceType_inj (congrArg Locator.type heq)
  have hpolicies : (plan.names.policies.map plan.names.policyLocator).Nodup := by
    simp [SiteNames.policies, SiteNames.policyLocator, SiteNames.namespacePolicy,
      SiteNames.nginxPolicy]
  unfold deletionTargets
  split
  · split
    · exact hdependents
    · exact List.nodup_nil
  · split
    · exact hpolicies
    · exact List.nodup_nil

theorem Prepares.spares {request : Request} (h : site.Prepares request) (plan : Plan) :
    request.Spares (site.deletionTargets plan) := by
  cases h with
  | patchLabels => exact trivial
  | readTemplate =>
      intro hmem
      rcases mem_deletionTargets hmem with ⟨-, d, heq⟩ | ⟨-, htype⟩
      · exact d.kind.resourceType_ne (show Template.resourceType ∈ _ by decide)
          (congrArg Locator.type heq).symm
      · exact absurd htype (show Template.resourceType ≠ _ by decide)

theorem maintainObjects_sweeps (alive : site.isTerminating = false)
    (omitted : plan.omitPolicies = true) (h : plan.WellFormed) {result : Except Raised Progress}
    (run : (site.maintainObjects plan owner now).Runs trace result) :
    SweepsOnce owner.reference.uid (site.deletionTargets plan) trace := by
  have htargets : site.deletionTargets plan =
      plan.names.policies.map plan.names.policyLocator := by
    simp [deletionTargets, alive, omitted]
  have foreign {object : Locator} (htype : object.type ≠ .networkPolicies) :
      object ∉ site.deletionTargets plan := by
    intro hmem
    rcases mem_deletionTargets hmem with ⟨hterminating, -⟩ | ⟨-, heq⟩
    · rw [alive] at hterminating
      cases hterminating
    · exact htype heq
  have chains := OnlySends.chains (Request.Spares (site.deletionTargets plan))
  have creates : Task.Always (OnlySends (Request.Spares (site.deletionTargets plan)))
      (Task.createMissing plan.names.namespaceLocator Shape.namespaces
        (plan.names.namespaceObject owner.reference plan.composition.labels)) := by
    have hnamespace : plan.names.namespaceLocator ∉ site.deletionTargets plan :=
      foreign (show ResourceType.namespaces ≠ _ by decide)
    exact .createMissing chains (fun reply => OnlySends.sent hnamespace reply)
      fun reply => OnlySends.sent trivial reply
  have tail {trace} {result} (run : (site.maintainDependents plan owner now).Runs trace result) :
      OnlySends (Request.Spares (site.deletionTargets plan)) trace := by
    refine (maintainDependents_onlySends h _ _ run).mono fun request hrequest => ?_
    rcases hrequest with happlies | ⟨status, rfl⟩
    · cases happlies with
      | observe => exact foreign (DependentKind.resourceType_ne _ (by decide))
      | apply | suspend => exact trivial
    · exact trivial
  have objects {trace} {result} (run : (reconcileNamespace plan owner).Runs trace result) :
      SweepsOnce owner.reference.uid (site.deletionTargets plan) trace := by
    rcases Task.runs_bind_iff.mp run with
      ⟨error, hcreate, -⟩ | ⟨first, _, rest, rfl, hcreate, hrest⟩
    · exact .of_spares (creates _ _ hcreate)
    · have sweep := sweep_policies omitted hrest
      rw [← htargets] at sweep
      exact (SweepsOnce.of_sweep sweep).prepend (creates _ _ hcreate)
  rcases Task.runs_bind_iff.mp run with
    ⟨error, hobjects, rfl⟩ | ⟨first, _, rest, rfl, hobjects, hrest⟩
  · exact objects hobjects
  · exact (objects hobjects).append (tail hrest)

theorem maintain_sweeps (alive : site.isTerminating = false) (h : plan.WellFormed)
    {result : Except Raised Progress} (run : (site.maintain plan owner now).Runs trace result) :
    SweepsOnce owner.reference.uid (site.deletionTargets plan) trace := by
  cases omitted : plan.omitPolicies with
  | true =>
      obtain ⟨added, rest, rfl, adds, hrest⟩ := runs_maintain run
      have quiet : OnlySends (Request.Spares (site.deletionTargets plan)) added :=
        adds.mono fun request hrequest => hrequest ▸ trivial
      rcases hrest with ⟨rfl, -⟩ | ⟨-, hobjects⟩
      · rw [List.append_nil]
        exact .of_spares quiet
      · exact (maintainObjects_sweeps alive omitted h hobjects).prepend quiet
  | false =>
      have htargets : site.deletionTargets plan = [] := by simp [deletionTargets, alive, omitted]
      rw [htargets]
      refine .of_spares ((maintain_onlySends alive h _ _ run).mono fun request hrequest => ?_)
      cases hrequest with
      | writeStatus | addFinalizer | removeFinalizer => exact trivial
      | finalize terminating => simp [alive] at terminating
      | maintain _ hmaintains =>
          cases hmaintains with
          | surroundings hsurrounds =>
              cases hsurrounds with
              | readNamespace | readPolicy => exact List.not_mem_nil
              | createNamespace | createNamespacePolicy | createNginxPolicy => exact trivial
              | deletePolicy homitted => simp [omitted] at homitted
          | dependents happlies =>
              cases happlies with
              | observe => exact List.not_mem_nil
              | apply | suspend => exact trivial

theorem finalize_sweeps (terminating : site.isTerminating = true) (h : plan.WellFormed)
    {moodle : DependentSpec} (hmoodle : plan.dependent? .moodle = some moodle)
    {result : Except Raised Progress} (run : (site.finalize plan owner now).Runs trace result) :
    SweepsOnce owner.reference.uid (site.deletionTargets plan) trace := by
  cases carries : site.metadata.hasFinalizer operatorFinalizer with
  | false =>
      simp only [finalize, carries, Bool.false_eq_true, if_false] at run
      obtain ⟨rfl, -⟩ := Task.runs_pure_iff.mp run
      exact .of_sweep .stop
  | true =>
      have htargets : site.deletionTargets plan =
          (Pass.configured plan [.moodle, .keydb, .postgres, .nfs]).map DependentSpec.locator := by
        simp [deletionTargets, terminating, carries]
      obtain ⟨checks, rest, made, ended, rfl, hpass, performed, hrest⟩ := runs_finalize carries run
      obtain ⟨ending, walk, -⟩ := Pass.runs_finalize h hmoodle hpass
      have sweep := SiteOwner.sweep_of_performed performed walk.calls_prefix_schedule
      rw [← htargets] at sweep
      refine (SweepsOnce.of_sweep sweep).append ?_
      rcases hrest with ⟨error, -, rfl, -⟩ | ⟨progress, -, hrest⟩
      · exact (OnlySends.chains _).nil
      · refine (endFinalizing_onlySends _ _ _ _ hrest).mono fun request hrequest => ?_
        rcases hrequest with ⟨status, rfl⟩ | rfl
        · exact trivial
        · exact trivial

/-- Every reconcile that gets as far as a plan sweeps once over the objects that it may delete. -/
theorem reconcile_sweeps {result : Except Raised Progress}
    (run : (site.reconcile manager now).Runs trace result) :
    OnlySends site.Prepares trace ∨ ∃ plan uid, site.Composed trace plan ∧
      site.metadata.uid = some uid ∧ SweepsOnce uid (site.deletionTargets plan) trace := by
  obtain ⟨prep, rest, rfl, prepares, hrest⟩ := runs_reconcile run
  rcases hrest with ⟨rfl, -⟩ | ⟨plan, owner, prepared, hproceed⟩
  · rw [List.append_nil]
    exact Or.inl prepares
  obtain ⟨_, _, _, _, _, -, -, -, hcompose⟩ := prepared.composed
  have hplan := Plan.compose_wellFormed hcompose
  obtain ⟨moodle, hmoodle⟩ := Plan.compose_workload hcompose
  obtain ⟨reference, hreference, rfl⟩ := prepared.owner
  have once : SweepsOnce reference.uid (site.deletionTargets plan) rest := by
    cases terminating : site.isTerminating with
    | true =>
        rw [proceed, if_pos terminating] at hproceed
        exact finalize_sweeps terminating hplan hmoodle hproceed
    | false =>
        rw [proceed, terminating] at hproceed
        exact maintain_sweeps terminating hplan hproceed
  exact Or.inr ⟨plan, reference.uid, prepared.composed.append rest,
    (of_ownerReference?_eq_some hreference).1,
    once.prepend (prepares.mono fun _ h => h.spares plan)⟩

/-- What a reconcile writes for a site is read as an object that may be deleted for the site. -/
theorem MaySend.deletable_stored {request : Request} (h : site.MaySend plan owner request)
    (controls : owner.reference.controller = some true) {earlier : Option Json} {object : Json}
    (stores : request.Stores earlier object) :
    ∃ data, request.object.type.reader object = some data ∧ data.Deletable owner.reference.uid := by
  have applied (d : DependentSpec) :
      ∃ data, d.locator.type.reader
          (Cluster.applied earlier (d.object owner.reference owner.labels)) = some data ∧
        data.Deletable owner.reference.uid := by
    refine ⟨_, ?_,
      ObjectMeta.deletable_ownedMeta d.name (some d.namespaceName) owner.labels controls⟩
    rw [DependentSpec.locator, d.kind.reader_resourceType, Cluster.anyMeta_applied,
      d.anyMeta_object]
  cases h with
  | writeStatus | addFinalizer | removeFinalizer => exact stores.elim
  | finalize _ _ hfinalizes => cases hfinalizes <;> exact stores.elim
  | maintain _ hmaintains =>
      cases hmaintains with
      | surroundings hsurrounds =>
          cases hsurrounds with
          | readNamespace | readPolicy | deletePolicy => exact stores.elim
          | createNamespace =>
              obtain rfl := stores
              exact ⟨_, plan.names.typedMeta_namespaceObject _ _,
                ObjectMeta.deletable_ownedMeta _ _ _ controls⟩
          | createNamespacePolicy =>
              obtain rfl := stores
              exact ⟨_, plan.names.typedMeta_namespacePolicyObject _ _,
                ObjectMeta.deletable_ownedMeta _ _ _ controls⟩
          | createNginxPolicy =>
              obtain rfl := stores
              exact ⟨_, plan.names.typedMeta_nginxPolicyObject _ _,
                ObjectMeta.deletable_ownedMeta _ _ _ controls⟩
      | dependents happlies =>
          cases happlies with
          | observe => exact stores.elim
          | @apply kind d => exact stores ▸ applied d
          | @suspend kind d => exact stores ▸ applied d.suspended

/-- A reconcile deletes exactly what its site owns. An object that it deletes is one that the plan
lets it delete, was read right before, is not going already and has the site as its controller.
An object that the plan lets it delete and that it reads is deleted right after if it is such an
object, and not at all otherwise. What any reconcile of a site with this UID creates or applies is
such an object for whoever reads it as it was stored. -/
theorem deletes_exactly_owned {result : Except Raised Progress}
    (huid : site.metadata.uid = some uid)
    (run : (site.reconcile manager now).Runs trace result) :
    (∀ before object reply after, trace = before ++ sent (.delete object) reply :: after →
      ∃ plan, site.Composed trace plan ∧ object ∈ site.deletionTargets plan ∧
        ∃ earlier code body data,
          before = earlier ++ [sent (.get object) (.success code (some body))] ∧
            object.type.reader body = some data ∧ data.Deletable uid) ∧
    (∀ plan, site.Composed trace plan → ∀ object ∈ site.deletionTargets plan,
      ∀ before code body data after,
        trace = before ++ sent (.get object) (.success code (some body)) :: after →
        object.type.reader body = some data →
          (data.Deletable uid → ∃ reply rest, after = sent (.delete object) reply :: rest) ∧
          (¬ data.Deletable uid → ∀ reply, sent (.delete object) reply ∉ trace)) ∧
    (∀ request reply earlier object, sent request reply ∈ trace →
      request.Stores earlier object →
        ∃ data, request.object.type.reader object = some data ∧ data.Deletable uid) := by
  refine ⟨?_, ?_, ?_⟩
  · intro before object reply after htrace
    rcases reconcile_sweeps run with prepares | ⟨plan, uid', composed, huid', once⟩
    · cases prepares (.delete object) reply (by simp [htrace])
    · obtain rfl : uid = uid' := Option.some.inj (huid.symm.trans huid')
      obtain ⟨hobject, hread⟩ := once.deletes htrace
      exact ⟨plan, composed, hobject, hread⟩
  · intro plan composed object hobject before code body data after htrace read
    have hmem : sent (.get object) (.success code (some body)) ∈ trace := by simp [htrace]
    rcases reconcile_sweeps run with prepares | ⟨plan', uid', composed', huid', once⟩
    · exact absurd hobject ((prepares _ _ hmem).spares plan)
    · obtain rfl : uid = uid' := Option.some.inj (huid.symm.trans huid')
      obtain rfl := composed.unique composed'
      obtain ⟨_, _, _, _, _, -, -, -, hcompose⟩ := composed
      have distinct : (site.deletionTargets plan).Nodup :=
        nodup_deletionTargets (Plan.compose_wellFormed hcompose)
      exact ⟨once.reads hobject htrace read, once.spares distinct hobject hmem read⟩
  · intro request reply earlier object hmem stores
    obtain ⟨prep, rest, rfl, prepares, hrest⟩ := runs_reconcile run
    rcases List.mem_append.mp hmem with hmem | hmem
    · cases prepares request reply hmem <;> exact stores.elim
    rcases hrest with ⟨rfl, -⟩ | ⟨plan, owner, prepared, hproceed⟩
    · cases hmem
    have hsends := proceed_onlySends prepared _ _ hproceed request reply hmem
    obtain ⟨reference, hreference, rfl⟩ := prepared.owner
    obtain ⟨huid', controls⟩ := of_ownerReference?_eq_some hreference
    obtain rfl : uid = reference.uid := Option.some.inj (huid.symm.trans huid')
    exact hsends.deletable_stored controls stores

/-- An API that holds an object of the kind `moodle` that belongs to the site with the UID `u`. -/
def answerOwned : (effect : Effect) → Unit → effect.Answer × Unit :=
  let owner : OwnerReference := ⟨Site.resourceType.apiVersion, Site.resourceType.kind, "a", "u",
    some true, some true⟩
  let object := .ofFields [("metadata", (ownedMeta "a" none owner []).encode)]
  answerKnown (fun target => if target.type = DependentKind.moodle.resourceType then some object
    else none) .null

set_option maxRecDepth 10000 in
/-- A site that is being deleted and owns its workload deletes it. -/
theorem deletes_exactly_owned_of_owned_workload :
    ∃ trace result before object code body data reply after,
      (leaving.reconcile "manager" "now").Runs trace result ∧
      trace = before ++
        sent (.get object) (.success code (some body)) :: sent (.delete object) reply :: after ∧
      object.type.reader body = some data ∧ data.Deletable "u" := by
  have run := Dialogue.runs_transcript answerOwned (leaving.reconcile "manager" "now").run ()
  have hdelete : ∃ answered ∈ Dialogue.transcript answerOwned
      (leaving.reconcile "manager" "now").run (),
      answered.1 = .send (.delete ⟨DependentKind.moodle.resourceType, some "lms-a", "lms-a"⟩) := by
    decide +kernel
  obtain ⟨⟨effect, reply⟩, hmem, rfl⟩ := hdelete
  obtain ⟨before, after, htrace⟩ := List.append_of_mem hmem
  obtain ⟨-, -, -, earlier, code, body, data, rfl, read, deletable⟩ :=
    (deletes_exactly_owned rfl run).1 before _ reply after htrace
  exact ⟨_, _, earlier, _, code, body, data, reply, after, run,
    htrace.trans (List.append_assoc _ _ _), read, deletable⟩

end Site

end SiteOperator
