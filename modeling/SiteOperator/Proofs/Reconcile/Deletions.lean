import SiteOperator.Proofs.Pass.Idempotence
import SiteOperator.Proofs.Reconcile.Differing
import SiteOperator.Proofs.Reconcile.Lifetime

/-!
# Deleting the dependents of a site

In a cluster that answers every request by its rules a dependent is deleted exactly if it is owned
and is not being deleted already (`Cluster.deletes`), and there is something to wait for afterwards
if it was owned or was being deleted before (`Cluster.awaits`). So what a pass over a site that is
being deleted does, and what comes of it, can be read off the cluster that it starts in
(`Plan.deletedIn`, `Plan.progressIn`).
-/

namespace SiteOperator

def Effect.deletion? : Effect → Option Locator
  | .send (.delete object) => some object
  | .send _ | .record _ => none

def deletedObjects (trace : List AnsweredEffect) : List Locator :=
  trace.filterMap fun e => e.1.deletion?

theorem deletedObjects_append (first rest : List AnsweredEffect) :
    deletedObjects (first ++ rest) = deletedObjects first ++ deletedObjects rest :=
  List.filterMap_append

/-- Where no request deletes anything, nothing is deleted. -/
theorem deletedObjects_eq_nil {P : Request → Prop} {trace : List AnsweredEffect}
    (sends : OnlySends P trace)
    (h : ∀ request, P request → (Effect.send request).deletion? = none) :
    deletedObjects trace = [] := by
  refine List.filterMap_eq_nil_iff.mpr fun e he => ?_
  obtain ⟨effect, answer⟩ := e
  cases effect with
  | send request => exact h request (sends request answer he)
  | record measurement => rfl

namespace Cluster

/-- There is an object at the place which is the owner's or is being deleted: a finalizer waits for
it. -/
def awaits (cluster : Cluster) (object : Locator) (uid : String) : Bool :=
  (cluster.stored? object).any fun value => isTerminating value || value.ownedBy uid

/-- There is an object at the place which is the owner's and is not being deleted. -/
def deletes (cluster : Cluster) (object : Locator) (uid : String) : Bool :=
  (cluster.stored? object).any fun value => !isTerminating value && value.ownedBy uid

def Readable (cluster : Cluster) (object : Locator) : Prop :=
  ∀ value, cluster.stored? object = some value → (Decoder.anyMeta value).isSome = true

variable {cluster last : Cluster} {object : Locator} {uid : String}

theorem awaits_congr (uid : String) (h : last.stored? object = cluster.stored? object) :
    last.awaits object uid = cluster.awaits object uid := by
  rw [awaits, awaits, h]

theorem deletes_congr (uid : String) (h : last.stored? object = cluster.stored? object) :
    last.deletes object uid = cluster.deletes object uid := by
  rw [deletes, deletes, h]

theorem awaits_of_read {value : Json} {data : ObjectMeta}
    (stored : cluster.stored? object = some value) (h : Decoder.anyMeta value = some data) :
    cluster.awaits object uid = (data.isTerminating || data.ownedBy uid) := by
  rw [awaits, stored, Option.any_some, (Decoder.hasMeta_of_anyMeta h).isTerminating_eq,
    ObjectMeta.ownedBy_of_anyMeta uid h]

theorem deletes_of_read {value : Json} {data : ObjectMeta}
    (stored : cluster.stored? object = some value) (h : Decoder.anyMeta value = some data) :
    cluster.deletes object uid = (!data.isTerminating && data.ownedBy uid) := by
  rw [deletes, stored, Option.any_some, (Decoder.hasMeta_of_anyMeta h).isTerminating_eq,
    ObjectMeta.ownedBy_of_anyMeta uid h]

theorem any_awaits_congr {objects : List Locator}
    (h : ∀ object ∈ objects, last.awaits object uid = cluster.awaits object uid) :
    (objects.any fun object => last.awaits object uid) =
      objects.any fun object => cluster.awaits object uid := by
  rw [Bool.eq_iff_iff, List.any_eq_true, List.any_eq_true]
  exact exists_congr fun object => and_congr_right fun hobject => by rw [h object hobject]

theorem filter_deletes_congr {objects : List Locator}
    (h : ∀ object ∈ objects, last.deletes object uid = cluster.deletes object uid) :
    (objects.filter fun object => last.deletes object uid) =
      objects.filter fun object => cluster.deletes object uid :=
  List.filter_congr h

theorem Readable.of_stored?_eq (readable : cluster.Readable object)
    (h : last.stored? object = cluster.stored? object) : last.Readable object :=
  fun value hvalue => readable value (h.symm.trans hvalue)

/-- Nothing is deleted that is not owned. -/
theorem deletes_eq_false_of_owns (h : cluster.owns object uid = false) :
    cluster.deletes object uid = false := by
  rw [owns] at h
  rw [deletes]
  cases hstored : cluster.stored? object with
  | none => rfl
  | some value =>
      rw [hstored, Option.any_some] at h
      rw [Option.any_some, h, Bool.and_false]

end Cluster

namespace Task

variable {α β : Type} {collects : Bool} {cluster last : Cluster} {object : Locator} {uid : String}
  {rest : List AnsweredEffect}

theorem Plays.of_find? {read : Decoder α} {f : Option α → Task β} {found : Option α}
    {result : Except Raised β} (sendable : (Request.get object).wire?.isSome = true)
    (hfound : (cluster.stored? object).map read = found.map some)
    (next : (f found).Plays collects cluster rest result last) :
    (find? object read >>= f).Plays collects cluster
      (sent (.get object) (cluster.lookup object) :: rest) result last :=
  plays_bind_cases.mpr (Or.inr ⟨_, found, cluster, rest, rfl,
    plays_find?_iff.mpr ⟨sendable, hfound, rfl, rfl⟩, next⟩)

/-- An object that is there and that a request can be sent about is deleted. -/
theorem exists_plays_remove (collects : Bool) (read : Decoder α) {value : Json}
    (sendable : (Request.get object).wire?.isSome = true)
    (stored : cluster.stored? object = some value) :
    ∃ last, (remove object read).Plays collects cluster
        [sent (.delete object) (.success 200 (some Cluster.deletedStatus))] (.ok true) last ∧
      Cluster.AgreeOff (· = object.wirePath) cluster last := by
  obtain ⟨wire, hwire⟩ := Option.isSome_iff_exists.mp
    ((Request.isSome_wire?_delete object).trans sendable)
  obtain ⟨hverb, htarget⟩ := Request.wire_delete hwire
  have hreply : (cluster.answer collects wire).1 = .success 200 (some Cluster.deletedStatus) := by
    rcases cluster.answer_delete collects "" hverb with ⟨hnone, -⟩ | ⟨-, -, hreply, -⟩
    · rw [htarget] at hnone
      rw [Cluster.stored?, hnone] at stored
      cases stored
    · exact hreply
  have hremoved : (Reply.success 200 (some Cluster.deletedStatus)).removed read = .ok true := rfl
  have plays : (remove object read).Plays collects cluster
      [sent (.delete object) (.success 200 (some Cluster.deletedStatus))] (.ok true)
      (cluster.answer collects wire).2 :=
    (plays_iff_of_exchanges fun _ _ => runs_remove_iff).mpr
      ⟨wire, hwire, by rw [hreply], rfl, by rw [hreply, hremoved]⟩
  refine ⟨_, plays, fun path off => Cluster.object?_answer_of_ne ?_⟩
  rw [htarget]
  exact Ne.symm off

/-- An object that may not be deleted is looked at and left as it is. -/
theorem plays_deleteOwned_of_refused {data : ObjectMeta} {outcome : DeleteOutcome}
    (kind : String) (sendable : (Request.get object).wire?.isSome = true)
    (found : (cluster.stored? object).map Decoder.anyMeta = (some data).map some)
    (refused : data.deleteRefusal? uid = some outcome) :
    (deleteOwned object kind uid Decoder.anyMeta).Plays collects cluster
      [sent (.get object) (cluster.lookup object)] (.ok outcome) cluster := by
  refine .of_find? sendable found ?_
  simp only [refused]
  exact plays_pure_iff.mpr ⟨rfl, rfl, rfl⟩

theorem exists_plays_deleteOwned_of_allowed {data : ObjectMeta} {value : Json} (collects : Bool)
    (kind : String) (sendable : (Request.get object).wire?.isSome = true)
    (stored : cluster.stored? object = some value)
    (found : (cluster.stored? object).map Decoder.anyMeta = (some data).map some)
    (allowed : data.deleteRefusal? uid = none) :
    ∃ last, (deleteOwned object kind uid Decoder.anyMeta).Plays collects cluster
        [sent (.get object) (cluster.lookup object),
          sent (.delete object) (.success 200 (some Cluster.deletedStatus))] (.ok .deleted) last ∧
      Cluster.AgreeOff (· = object.wirePath) cluster last := by
  obtain ⟨last, removes, agree⟩ := exists_plays_remove collects Decoder.anyMeta sendable stored
  refine ⟨last, .of_find? sendable found ?_, agree⟩
  simp only [allowed]
  exact plays_bind_iff.mpr ⟨_, true, last, [], rfl, plays_within_iff.mpr removes,
    plays_pure_iff.mpr ⟨rfl, rfl, rfl⟩⟩

/-- What is owned and not going already is deleted. Whether there is anything to wait for afterwards
depends on what was there before. -/
theorem exists_plays_deleteOwned (collects : Bool) (kind uid : String)
    (sendable : (Request.get object).wire?.isSome = true) (readable : cluster.Readable object) :
    ∃ outcome trace last, (deleteOwned object kind uid Decoder.anyMeta).Plays collects cluster trace
        (.ok outcome) last ∧
      outcome.isPending = cluster.awaits object uid ∧
      deletedObjects trace = (if cluster.deletes object uid then [object] else []) ∧
      Cluster.AgreeOff (· = object.wirePath) cluster last := by
  cases hstored : cluster.stored? object with
  | none =>
      have hfound : (cluster.stored? object).map Decoder.anyMeta =
          (none : Option ObjectMeta).map some := by
        rw [hstored]
        rfl
      have plays : (deleteOwned object kind uid Decoder.anyMeta).Plays collects cluster
          [sent (.get object) (cluster.lookup object)] (.ok .notFound) cluster :=
        .of_find? sendable hfound (plays_pure_iff.mpr ⟨rfl, rfl, rfl⟩)
      refine ⟨_, _, _, plays, ?_, ?_, .refl _ _⟩
      · rw [Cluster.awaits, hstored]
        rfl
      · rw [Cluster.deletes, hstored]
        rfl
  | some value =>
      obtain ⟨data, hread⟩ := Option.isSome_iff_exists.mp (readable value hstored)
      have hfound : (cluster.stored? object).map Decoder.anyMeta = (some data).map some := by
        rw [hstored, Option.map_some, hread, Option.map_some]
      rw [Cluster.awaits_of_read hstored hread, Cluster.deletes_of_read hstored hread]
      cases hterminating : data.isTerminating with
      | true =>
          have refused : data.deleteRefusal? uid = some .alreadyDeleting := by
            simp [ObjectMeta.deleteRefusal?, hterminating]
          exact ⟨_, _, _, plays_deleteOwned_of_refused kind sendable hfound refused, rfl, rfl,
            .refl _ _⟩
      | false =>
          cases howned : data.ownedBy uid with
          | false =>
              have refused : data.deleteRefusal? uid = some .notOwned := by
                simp [ObjectMeta.deleteRefusal?, hterminating, howned]
              exact ⟨_, _, _, plays_deleteOwned_of_refused kind sendable hfound refused, rfl, rfl,
                .refl _ _⟩
          | true =>
              have allowed : data.deleteRefusal? uid = none := by
                simp [ObjectMeta.deleteRefusal?, hterminating, howned]
              obtain ⟨last, plays, agree⟩ := exists_plays_deleteOwned_of_allowed collects kind
                sendable hstored hfound allowed
              exact ⟨_, _, last, plays, rfl, rfl, agree⟩

end Task

namespace SiteOwner

variable {owner : SiteOwner} {collects : Bool} {cluster : Cluster} {deps : List DependentSpec}

theorem exists_plays_delete (owner : SiteOwner) (collects : Bool) (d : DependentSpec)
    (sendable : (Request.get d.locator).wire?.isSome = true)
    (readable : cluster.Readable d.locator) :
    ∃ outcome trace last, (owner.delete d).Plays collects cluster trace (.ok outcome) last ∧
      outcome.isPending = cluster.awaits d.locator owner.reference.uid ∧
      deletedObjects trace =
        (if cluster.deletes d.locator owner.reference.uid then [d.locator] else []) ∧
      Cluster.AgreeOff (· = d.locator.wirePath) cluster last := by
  obtain ⟨outcome, trace, last, plays, hpending, hdeleted, agree⟩ := Task.exists_plays_deleteOwned
    collects d.kind.name owner.reference.uid sendable readable
  by_cases houtcome : outcome = .deleted
  · have records : (do
        if outcome = .deleted then Task.record (.deleted d.kind.name)
        pure outcome : Task DeleteOutcome).Plays collects last
          [recorded (.deleted d.kind.name)] (.ok outcome) last := by
      rw [if_pos houtcome]
      exact Task.plays_record_bind_iff.mpr ⟨[], rfl, Task.plays_pure_iff.mpr ⟨rfl, rfl, rfl⟩⟩
    refine ⟨outcome, trace ++ [recorded (.deleted d.kind.name)], last,
      Task.plays_bind_iff.mpr ⟨trace, outcome, last, _, rfl, plays, records⟩, hpending, ?_, agree⟩
    rw [deletedObjects_append, hdeleted]
    exact List.append_nil _
  · have goesOn : (do
        if outcome = .deleted then Task.record (.deleted d.kind.name)
        pure outcome : Task DeleteOutcome).Plays collects last [] (.ok outcome) last := by
      rw [if_neg houtcome]
      exact Task.plays_pure_iff.mpr ⟨rfl, rfl, rfl⟩
    exact ⟨outcome, trace ++ [], last, Task.plays_bind_iff.mpr
      ⟨trace, outcome, last, [], rfl, plays, goesOn⟩, hpending, by rwa [List.append_nil], agree⟩

def deleteAll (owner : SiteOwner) (deps : List DependentSpec) : Task Bool :=
  ExceptT.mk ((Pass.deleteAll deps).translate owner.perform)

theorem deleteAll_cons (owner : SiteOwner) (d : DependentSpec) (deps : List DependentSpec) :
    owner.deleteAll (d :: deps) = owner.delete d >>= fun outcome =>
      owner.deleteAll deps >>= fun pending => pure (outcome.isPending || pending) := by
  refine congrArg (Dialogue.bind (owner.delete d).run) (funext fun answer => ?_)
  cases answer with
  | error error => rfl
  | ok outcome =>
      refine (Dialogue.translate_bind _ _ _).trans
        (congrArg (Dialogue.bind (owner.deleteAll deps).run) (funext fun rest => ?_))
      cases rest <;> rfl

/-- Of dependents at different places those are deleted that are owned and not going already, and
there is something to wait for if there was anything to wait for at one of the places. -/
theorem exists_plays_deleteAll (owner : SiteOwner) (collects : Bool)
    (apart : deps.Pairwise fun d e => d.locator.wirePath ≠ e.locator.wirePath)
    (sendable : ∀ d ∈ deps, (Request.get d.locator).wire?.isSome = true)
    (readable : ∀ d ∈ deps, cluster.Readable d.locator) :
    ∃ trace last, (owner.deleteAll deps).Plays collects cluster trace
        (.ok ((deps.map DependentSpec.locator).any fun object =>
          cluster.awaits object owner.reference.uid)) last ∧
      deletedObjects trace = ((deps.map DependentSpec.locator).filter fun object =>
        cluster.deletes object owner.reference.uid) ∧
      Cluster.AgreeOff (fun path => ∃ d ∈ deps, path = d.locator.wirePath) cluster last := by
  induction deps generalizing cluster with
  | nil => exact ⟨[], cluster, Task.plays_pure_iff.mpr ⟨rfl, rfl, rfl⟩, rfl, .refl _ _⟩
  | cons d deps ih =>
      obtain ⟨hhead, htail⟩ := List.pairwise_cons.mp apart
      obtain ⟨sendableHead, sendableTail⟩ := List.forall_mem_cons.mp sendable
      obtain ⟨readableHead, readableTail⟩ := List.forall_mem_cons.mp readable
      obtain ⟨outcome, first, middle, plays, hpending, hdeleted, agree⟩ :=
        owner.exists_plays_delete collects d sendableHead readableHead
      have kept : ∀ e ∈ deps, middle.stored? e.locator = cluster.stored? e.locator :=
        fun e he => agree _ (Ne.symm (hhead e he))
      obtain ⟨rest, last, playsRest, hrest, agreeRest⟩ := ih htail sendableTail
        fun e he => (readableTail e he).of_stored?_eq (kept e he)
      rw [Cluster.any_awaits_congr (List.forall_mem_map.mpr fun e he =>
        Cluster.awaits_congr _ (kept e he))] at playsRest
      rw [Cluster.filter_deletes_congr (List.forall_mem_map.mpr fun e he =>
        Cluster.deletes_congr _ (kept e he))] at hrest
      refine ⟨first ++ rest, last, ?_, ?_, fun path off => ?_⟩
      · rw [deleteAll_cons, List.map_cons, List.any_cons, ← hpending]
        exact Task.plays_bind_iff.mpr ⟨first, outcome, middle, rest, rfl, plays,
          Task.plays_bind_iff.mpr ⟨rest, _, last, [], (List.append_nil _).symm, playsRest,
            Task.plays_pure_iff.mpr ⟨rfl, rfl, rfl⟩⟩⟩
      · rw [deletedObjects_append, hdeleted, hrest, List.map_cons, List.filter_cons]
        split <;> rfl
      · have hd : path ≠ d.locator.wirePath := fun heq => off ⟨d, List.mem_cons_self, heq⟩
        rw [agreeRest path fun ⟨e, he, heq⟩ => off ⟨e, List.mem_cons_of_mem _ he, heq⟩,
          agree path hd]

def deleteDependents (owner : SiteOwner) (plan : Plan) : Task Progress :=
  ExceptT.mk ((Pass.deletions plan).translate owner.perform)

theorem deleteDependents_eq (owner : SiteOwner) (plan : Plan) :
    owner.deleteDependents plan = owner.deleteAll (Pass.configured plan [.moodle]) >>= fun waits =>
      if waits then pure .requeue
      else owner.deleteAll (Pass.configured plan Pass.deleteOrder) >>= fun waits =>
        pure (if waits then .requeue else .settled) := by
  refine (Dialogue.translate_bind _ _ _).trans
    (congrArg (Dialogue.bind (owner.deleteAll (Pass.configured plan [.moodle])).run)
      (funext fun answer => ?_))
  rcases answer with error | waits
  · rfl
  cases waits with
  | true => rfl
  | false =>
      refine (Dialogue.translate_bind _ _ _).trans (congrArg
        (Dialogue.bind (owner.deleteAll (Pass.configured plan Pass.deleteOrder)).run)
        (funext fun answer => ?_))
      rcases answer with error | waits
      · rfl
      · cases waits <;> rfl

/-- What a pass over a site that is being deleted makes of the status depends on its progress. -/
theorem runPass_finalize (owner : SiteOwner) (plan : Plan) (now : String) (draft : StatusDraft) :
    owner.runPass (Pass.finalize plan now draft) =
      owner.deleteDependents plan >>= fun progress =>
        pure (progress, (Pass.finalizeResult plan now draft (.ok progress)).draft) := by
  rw [Pass.finalize_eq]
  refine (congrArg (Dialogue.bind · _) (Dialogue.translate_bind _ _ _)).trans
    ((Dialogue.bind_assoc _ _ _).trans (congrArg
      (Dialogue.bind (owner.deleteDependents plan).run) (funext fun answer => ?_)))
  rcases answer with error | progress
  · rfl
  · cases progress <;> rfl

/-- Deleting dependents only reads and deletes objects. -/
theorem deleteAll_onlySends (owner : SiteOwner) (deps : List DependentSpec) :
    Task.Always (OnlySends fun request => ∃ object, request = .get object ∨
      request = .delete object) (owner.deleteAll deps) := by
  have chains := OnlySends.chains fun request =>
    ∃ object, request = Request.get object ∨ request = .delete object
  induction deps with
  | nil => exact .pure chains _
  | cons d deps ih =>
      rw [deleteAll_cons]
      refine .bind chains (fun trace result run => ?_) fun outcome =>
        .bind chains ih fun pending => .pure chains _
      have sends : OnlySends (· ∈ owner.requests (.delete d)) trace := perform_onlySends run
      exact sends.mono fun request h => ⟨d.locator, mem_requests_delete_iff.mp h⟩

theorem deleteDependents_onlySends (owner : SiteOwner) (plan : Plan) :
    Task.Always (OnlySends fun request => ∃ object, request = .get object ∨
      request = .delete object) (owner.deleteDependents plan) := by
  have chains := OnlySends.chains fun request =>
    ∃ object, request = Request.get object ∨ request = .delete object
  rw [deleteDependents_eq]
  refine .bind chains (owner.deleteAll_onlySends _) fun waits => ?_
  cases waits with
  | true => exact .pure chains _
  | false => exact .bind chains (owner.deleteAll_onlySends _) fun _ => .pure chains _

/-- If no request about the workload can be sent, nothing is. -/
theorem deleteDependents_of_unsendable {plan : Plan} {moodle : DependentSpec}
    (hmoodle : plan.dependent? .moodle = some moodle)
    (unsendable : (Request.get moodle.locator).wire? = none) :
    owner.deleteDependents plan = Task.fail (.api none) := by
  have hconfigured : Pass.configured plan [.moodle] = [moodle] := by
    simp [Pass.configured, hmoodle]
  have hdelete : owner.delete moodle = Task.fail (.api none) := by
    rw [delete, Task.deleteOwned, Task.find?, Task.send, unsendable]
    rfl
  rw [deleteDependents_eq, hconfigured, deleteAll_cons, hdelete]
  rfl

end SiteOwner

namespace Plan

variable {plan : Plan}

def places (plan : Plan) (order : List DependentKind) : List Locator :=
  (order.filter plan.has).map plan.names.dependent

/-- The progress of a finalization that starts in the cluster: it waits if there is anything to wait
for at any place. -/
def progressIn (plan : Plan) (uid : String) (cluster : Cluster) : Progress :=
  if (plan.places (.moodle :: Pass.deleteOrder)).any fun object => cluster.awaits object uid then
    .requeue
  else .settled

/-- What a finalization that starts in the cluster deletes: nothing but the workload if there is
anything to wait for at its place. -/
def deletedIn (plan : Plan) (uid : String) (cluster : Cluster) : List Locator :=
  (plan.places (if cluster.awaits (plan.names.dependent .moodle) uid then [.moodle]
    else .moodle :: Pass.deleteOrder)).filter fun object => cluster.deletes object uid

theorem mem_places_iff {order : List DependentKind} {object : Locator} :
    object ∈ plan.places order ↔
      ∃ kind ∈ order, plan.has kind = true ∧ plan.names.dependent kind = object := by
  simp [places, and_assoc]

theorem progressIn_congr {uid : String} {cluster last : Cluster}
    (h : ∀ kind, last.awaits (plan.names.dependent kind) uid =
      cluster.awaits (plan.names.dependent kind) uid) :
    plan.progressIn uid last = plan.progressIn uid cluster := by
  rw [progressIn, progressIn, Cluster.any_awaits_congr fun object hobject => ?_]
  obtain ⟨kind, -, -, rfl⟩ := mem_places_iff.mp hobject
  exact h kind

/-- What is deleted of some kinds is a matter of what may be deleted of each. -/
theorem filter_places_congr {uid : String} {cluster last : Cluster}
    (h : ∀ kind, last.deletes (plan.names.dependent kind) uid =
      cluster.deletes (plan.names.dependent kind) uid) (order : List DependentKind) :
    ((plan.places order).filter fun object => last.deletes object uid) =
      (plan.places order).filter fun object => cluster.deletes object uid := by
  refine Cluster.filter_deletes_congr fun object hobject => ?_
  obtain ⟨kind, -, -, rfl⟩ := mem_places_iff.mp hobject
  exact h kind

/-- What is deleted, apart from the workload, is deleted unless the workload holds it back. -/
theorem deletedIn_eq (hmoodle : plan.has .moodle = true) (uid : String) (cluster : Cluster) :
    plan.deletedIn uid cluster =
      [plan.names.dependent .moodle].filter (fun object => cluster.deletes object uid) ++
        if cluster.awaits (plan.names.dependent .moodle) uid then []
        else (plan.places Pass.deleteOrder).filter fun object => cluster.deletes object uid := by
  have hworkload (order : List DependentKind) : plan.places (.moodle :: order) =
      [plan.names.dependent .moodle] ++ plan.places order := by
    simp [places, hmoodle]
  rw [deletedIn]
  split
  · rw [hworkload, List.filter_append]
    rfl
  · rw [hworkload, List.filter_append]

theorem deletedIn_congr {uid : String} {cluster last : Cluster}
    (h : ∀ kind, last.stored? (plan.names.dependent kind) =
      cluster.stored? (plan.names.dependent kind)) :
    plan.deletedIn uid last = plan.deletedIn uid cluster := by
  rw [deletedIn, deletedIn, Cluster.awaits_congr uid (h .moodle),
    filter_places_congr fun kind => Cluster.deletes_congr uid (h kind)]

theorem WellFormed.map_locator_configured (wellFormed : plan.WellFormed)
    (order : List DependentKind) :
    (Pass.configured plan order).map DependentSpec.locator = plan.places order := by
  induction order with
  | nil => rfl
  | cons kind order ih =>
      rw [Pass.configured, places] at ih ⊢
      cases hd : plan.dependent? kind with
      | none =>
          have hlacks : plan.has kind = false := by simp [has, hd]
          rw [List.filterMap_cons_none hd, List.filter_cons_of_neg (by simp [hlacks]), ih]
      | some d =>
          have hhas : plan.has kind = true := by simp [has, hd]
          rw [List.filterMap_cons_some hd, List.filter_cons_of_pos hhas, List.map_cons,
            List.map_cons, ih, wellFormed.locator_eq hd]

end Plan

theorem SiteNames.dependent_wirePath_inj {names : SiteNames} {kind other : DependentKind}
    (h : (names.dependent kind).wirePath = (names.dependent other).wirePath) : kind = other := by
  have hstarts := names.starts_dependent kind
  rw [h] at hstarts
  exact DependentKind.eq_of_starts hstarts (names.starts_dependent other)

namespace SiteOwner

variable {owner : SiteOwner} {collects : Bool} {cluster : Cluster} {plan : Plan}

/-- Where requests can be sent and objects can be read, the dependents of some kinds are deleted, or
waited for, or left alone. -/
theorem exists_plays_deleteConfigured (owner : SiteOwner) (collects : Bool)
    (wellFormed : plan.WellFormed) {order : List DependentKind} (distinct : order.Nodup)
    (sendable : ∀ kind, (Request.get (plan.names.dependent kind)).wire?.isSome = true)
    (readable : ∀ kind ∈ order, cluster.Readable (plan.names.dependent kind)) :
    ∃ trace last, (owner.deleteAll (Pass.configured plan order)).Plays collects cluster trace
        (.ok ((plan.places order).any fun object =>
          cluster.awaits object owner.reference.uid)) last ∧
      deletedObjects trace = ((plan.places order).filter fun object =>
        cluster.deletes object owner.reference.uid) ∧
      Cluster.AgreeOff (fun path => ∃ kind ∈ order,
        path = (plan.names.dependent kind).wirePath) cluster last := by
  have placed : ∀ d ∈ Pass.configured plan order,
      d.kind ∈ order ∧ d.locator = plan.names.dependent d.kind := by
    intro d hd
    obtain ⟨kind, hkind, hd⟩ := Pass.mem_configured.mp hd
    obtain rfl := wellFormed.kind_eq hd
    exact ⟨hkind, wellFormed.locator_eq hd⟩
  have apart : (Pass.configured plan order).Pairwise fun d e =>
      d.locator.wirePath ≠ e.locator.wirePath := by
    refine (Pass.pairwise_configured wellFormed distinct).imp_of_mem ?_
    intro d e hd he hne heq
    rw [(placed d hd).2, (placed e he).2] at heq
    exact hne (SiteNames.dependent_wirePath_inj heq)
  obtain ⟨trace, last, plays, hdeleted, agree⟩ := owner.exists_plays_deleteAll collects apart
    (fun d hd => by
      rw [(placed d hd).2]
      exact sendable d.kind)
    (fun d hd => by
      rw [(placed d hd).2]
      exact readable d.kind (placed d hd).1)
  rw [wellFormed.map_locator_configured] at plays hdeleted
  refine ⟨trace, last, plays, hdeleted, fun path off => agree path ?_⟩
  rintro ⟨d, hd, rfl⟩
  exact off ⟨d.kind, (placed d hd).1, by rw [(placed d hd).2]⟩

/-- Where requests can be sent and objects can be read, a finalization deletes what it should and
learns whether there is anything to wait for. -/
theorem exists_plays_deleteDependents (owner : SiteOwner) (collects : Bool)
    (wellFormed : plan.WellFormed) (hmoodle : plan.has .moodle = true)
    (sendable : ∀ kind, (Request.get (plan.names.dependent kind)).wire?.isSome = true)
    (readable : ∀ kind, cluster.Readable (plan.names.dependent kind)) :
    ∃ trace last, (owner.deleteDependents plan).Plays collects cluster trace
        (.ok (plan.progressIn owner.reference.uid cluster)) last ∧
      deletedObjects trace = plan.deletedIn owner.reference.uid cluster ∧
      Cluster.AgreeOff plan.names.IsPlace cluster last := by
  have hworkload : plan.places [.moodle] = [plan.names.dependent .moodle] := by
    simp [Plan.places, hmoodle]
  have hsplit : plan.places (.moodle :: Pass.deleteOrder) =
      plan.names.dependent .moodle :: plan.places Pass.deleteOrder := by
    simp [Plan.places, hmoodle]
  obtain ⟨first, middle, plays, hdeleted, agree⟩ := owner.exists_plays_deleteConfigured collects
    wellFormed (show [DependentKind.moodle].Nodup by decide) sendable fun kind _ => readable kind
  rw [hworkload, List.any_cons, List.any_nil, Bool.or_false] at plays
  rw [deleteDependents_eq, Plan.progressIn, Plan.deletedIn, hsplit, List.any_cons]
  cases hawaits : cluster.awaits (plan.names.dependent .moodle) owner.reference.uid with
  | true =>
      rw [hawaits] at plays
      refine ⟨first ++ [], middle, ?_, ?_, fun path off => agree path ?_⟩
      · exact Task.plays_bind_iff.mpr ⟨first, true, middle, [], rfl, plays,
          Task.plays_pure_iff.mpr ⟨rfl, rfl, rfl⟩⟩
      · rw [List.append_nil, hdeleted, if_pos rfl]
      · rintro ⟨kind, -, heq⟩
        exact off ⟨kind, heq⟩
  | false =>
      rw [hawaits] at plays
      have kept : ∀ kind ∈ Pass.deleteOrder, middle.stored? (plan.names.dependent kind) =
          cluster.stored? (plan.names.dependent kind) := by
        intro kind hkind
        refine agree _ ?_
        rintro ⟨other, hother, heq⟩
        obtain rfl := SiteNames.dependent_wirePath_inj heq
        obtain rfl := List.mem_singleton.mp hother
        exact absurd hkind (by decide)
      have keptPlaces : ∀ object ∈ plan.places Pass.deleteOrder,
          middle.stored? object = cluster.stored? object :=
        List.forall_mem_map.mpr fun kind hkind => kept kind (List.mem_filter.mp hkind).1
      obtain ⟨rest, last, playsRest, hrest, agreeRest⟩ := owner.exists_plays_deleteConfigured
        collects wellFormed (show Pass.deleteOrder.Nodup by decide) sendable
        fun kind hkind => (readable kind).of_stored?_eq (kept kind hkind)
      rw [Cluster.any_awaits_congr fun object hobject =>
        Cluster.awaits_congr _ (keptPlaces object hobject)] at playsRest
      rw [Cluster.filter_deletes_congr fun object hobject =>
        Cluster.deletes_congr _ (keptPlaces object hobject)] at hrest
      refine ⟨first ++ (rest ++ []), last, ?_, ?_, fun path off => ?_⟩
      · exact Task.plays_bind_iff.mpr ⟨first, false, middle, rest ++ [], rfl, plays,
          Task.plays_bind_iff.mpr ⟨rest, _, last, [], rfl, playsRest,
            Task.plays_pure_iff.mpr ⟨rfl, rfl, rfl⟩⟩⟩
      · rw [List.append_nil, deletedObjects_append, hdeleted, hrest, hworkload,
          ← List.filter_append]
        exact congrArg _ hsplit.symm
      · rw [agreeRest path fun ⟨kind, _, heq⟩ => off ⟨kind, heq⟩,
          agree path fun ⟨kind, _, heq⟩ => off ⟨kind, heq⟩]

end SiteOwner

end SiteOperator
