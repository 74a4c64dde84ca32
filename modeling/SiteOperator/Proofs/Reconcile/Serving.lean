import SiteOperator.Cluster.Store
import SiteOperator.Proofs.Reconcile.Owned
import SiteOperator.Proofs.Resource.Metadata

/-!
# Runs in a cluster

`Served` says what a run makes of a cluster: each request is answered by the rules of the cluster
(`Cluster.answer`), or it fails, and then it may have been carried out or not. No answer that the
operator can use is wrong.

Whom an object belongs to is followed through a run request by request. Reading leaves every object
alone, and so does any request that leads elsewhere (`Request.Leaves`); deleting an object never
hands it to anyone (`Request.Withholds`).
-/

namespace SiteOperator

/-- What an object with one field makes of a value that it is merged into. -/
theorem Json.mergePatch_singleton {key : String} {value : Json} (h : value.isNull = false)
    (target : Json) : (Json.ofFields [(key, value)]).mergePatch target =
      .object (Entries.put (target.fields?.getD []) key (value.mergePatch (target.field key))) := by
  have hfield : target.field key = (Entries.at? (target.fields?.getD []) key).getD .null := by
    cases hfields : target.fields? <;> simp [field, hfields]
  simp [Json.ofFields, Entries.ofList, Entries.put, mergePatch, mergePatchFields, h, hfield]

theorem Json.field_mergePatch {key : String} {value : Json} (h : value.isNull = false)
    (target : Json) (other : String) :
    ((Json.ofFields [(key, value)]).mergePatch target).field other =
      if other = key then value.mergePatch (target.field key) else target.field other := by
  have hfield : target.field other = (Entries.at? (target.fields?.getD []) other).getD .null := by
    cases hfields : target.fields? <;> simp [field, hfields]
  rw [mergePatch_singleton h, hfield]
  by_cases hother : other = key <;> simp [field, fields?, Entries.at?_put, hother]

namespace Cluster

variable {cluster : Cluster} {collects : Bool} {wire : WireRequest} {path other uid : String}

theorem object?_store (cluster : Cluster) (path : String) (object : Json) (other : String) :
    (cluster.store path object).object? other =
      if other = path then some object else cluster.object? other :=
  Entries.at?_put _ _ _ _

theorem object?_remove (cluster : Cluster) (path other : String) :
    (cluster.remove path).object? other = if other = path then none else cluster.object? other :=
  Entries.at?_remove _ _ _

theorem object?_store_of_ne (object : Json) (h : path ≠ other) :
    (cluster.store path object).object? other = cluster.object? other := by
  rw [object?_store, if_neg (Ne.symm h)]

theorem object?_remove_of_ne (h : path ≠ other) :
    (cluster.remove path).object? other = cluster.object? other := by
  rw [object?_remove, if_neg (Ne.symm h)]

theorem object?_storePatched_of_ne (object : Json) (h : path ≠ other) :
    (cluster.storePatched collects path object).object? other = cluster.object? other := by
  unfold storePatched
  split
  · exact object?_remove_of_ne h
  · exact object?_store_of_ne _ h

/-- Answering a request changes no object but the one that the request leads to. -/
theorem object?_answer_of_ne (h : target wire ≠ path) :
    (cluster.answer collects wire).2.object? path = cluster.object? path := by
  simp only [answer]
  split
  · rfl
  · exact object?_store_of_ne _ h
  · split
    · exact object?_store_of_ne _ h
    · cases cluster.object? (target wire) with
      | none => rfl
      | some object => exact object?_storePatched_of_ne _ h
  · split
    · exact object?_store_of_ne _ h
    · exact object?_remove_of_ne h
  all_goals rfl

theorem answer_get (h : wire.verb = .get) :
    cluster.answer collects wire =
      match cluster.object? (target wire) with
      | some object => (.success 200 (some object), cluster)
      | none => (.failure .notFound, cluster) := by
  cases hobject : cluster.object? (target wire) <;> simp [answer, h, hobject]

theorem answer_create {body : Json} (h : wire.verb = .post)
    (hbody : wire.body = some (.json, body)) :
    cluster.answer collects wire =
      match cluster.object? (target wire) with
      | some _ => (.failure .alreadyExists, cluster)
      | none => (.success 201 (some body), cluster.store (target wire) body) := by
  cases hobject : cluster.object? (target wire) <;> simp [answer, h, hbody, hobject]

theorem answer_apply {body : Json} (h : wire.verb = .patch)
    (hbody : wire.body = some (.applyPatch, body)) :
    cluster.answer collects wire =
      (.success 200 (some (applied (cluster.object? (target wire)) body)),
        cluster.store (target wire) (applied (cluster.object? (target wire)) body)) := by
  cases hobject : cluster.object? (target wire) <;> simp [answer, h, hbody, hobject]

theorem answer_merge {body : Json} (h : wire.verb = .patch)
    (hbody : wire.body = some (.mergePatch, body)) :
    cluster.answer collects wire =
      match cluster.object? (target wire) with
      | some object => (.success 200 (some (body.mergePatch object)),
          cluster.storePatched collects (target wire) (body.mergePatch object))
      | none => (.failure .notFound, cluster) := by
  cases hobject : cluster.object? (target wire) <;> simp [answer, h, hbody, hobject]

/-- An object that is deleted goes, or is marked as going, which leaves its owners as they were. -/
theorem answer_delete (cluster : Cluster) (collects : Bool) (uid : String)
    (h : wire.verb = .delete) :
    cluster.object? (target wire) = none ∧
        cluster.answer collects wire = (.failure .notFound, cluster) ∨
      ∃ object, cluster.object? (target wire) = some object ∧
        (cluster.answer collects wire).1 = .success 200 (some deletedStatus) ∧
        ∀ left, (cluster.answer collects wire).2.object? (target wire) = some left →
          left.ownedBy uid = object.ownedBy uid := by
  cases hobject : cluster.object? (target wire) with
  | none => exact Or.inl ⟨rfl, by simp [answer, h, hobject]⟩
  | some object =>
      refine Or.inr ⟨object, rfl, by simp [answer, h, hobject], fun left hleft => ?_⟩
      simp only [answer, h, hobject] at hleft
      split at hleft
      · rw [merge, object?_store, if_pos rfl, hobject, Option.getD_some] at hleft
        cases hleft
        refine Json.ownedBy_congr uid ?_
        rw [Json.field_mergePatch rfl, if_pos rfl, Json.field_mergePatch rfl, if_neg (by decide)]
      · rw [object?_remove, if_pos rfl] at hleft
        cases hleft

def stored? (cluster : Cluster) (object : Locator) : Option Json := cluster.object? object.wirePath

/-- Whether there is an object at the place of a locator that belongs to the owner with the UID. -/
def owns (cluster : Cluster) (object : Locator) (uid : String) : Bool :=
  (cluster.stored? object).any fun value => value.ownedBy uid

theorem owns_of_absent {object : Locator} (h : cluster.stored? object = none) :
    cluster.owns object uid = false := by
  rw [owns, h, Option.any_none]

theorem owns_of_read {object : Locator} {value : Json} {data : ObjectMeta}
    (h : cluster.stored? object = some value) (read : Decoder.anyMeta value = some data) :
    cluster.owns object uid = data.ownedBy uid := by
  rw [owns, h, Option.any_some, ObjectMeta.ownedBy_of_anyMeta uid read]

end Cluster

theorem ObjectMeta.ownedBy_of_notOwned {data : ObjectMeta} {uid : String}
    (h : data.deleteRefusal? uid = some .notOwned) : data.ownedBy uid = false := by
  cases hterminating : data.isTerminating with
  | true => simp [deleteRefusal?, hterminating] at h
  | false => simpa [deleteRefusal?, hterminating] using h

/-- How a cluster goes on while an effect is answered. A request that the operator takes to have
failed may have been carried out. -/
inductive Serves : Cluster → AnsweredEffect → Cluster → Prop where
  | recorded {cluster : Cluster} (measurement : Measurement) :
      Serves cluster (recorded measurement) cluster
  | answered {cluster : Cluster} (collects : Bool) {request : Request} {wire : WireRequest}
      (h : request.wire? = some wire) :
      Serves cluster (sent request (cluster.answer collects wire).1)
        (cluster.answer collects wire).2
  | refused {cluster : Cluster} {request : Request} {reply : Reply} (fails : request.Fails reply) :
      Serves cluster (sent request reply) cluster
  | lost {cluster : Cluster} (collects : Bool) {request : Request} {wire : WireRequest}
      {reply : Reply} (h : request.wire? = some wire) (fails : request.Fails reply) :
      Serves cluster (sent request reply) (cluster.answer collects wire).2

inductive Served : Cluster → List AnsweredEffect → Cluster → Prop where
  | nil {cluster : Cluster} : Served cluster [] cluster
  | cons {first middle last : Cluster} {e : AnsweredEffect} {trace : List AnsweredEffect}
      (serves : Serves first e middle) (served : Served middle trace last) :
      Served first (e :: trace) last

variable {cluster middle last : Cluster} {request : Request} {reply : Reply}
  {object other : Locator} {uid : String} {first rest trace : List AnsweredEffect}

theorem Served.of_append (served : Served cluster (first ++ rest) last) :
    ∃ middle, Served cluster first middle ∧ Served middle rest last := by
  induction first generalizing cluster with
  | nil => exact ⟨cluster, .nil, served⟩
  | cons e first ih =>
      cases served with
      | cons serves served =>
          obtain ⟨middle, hfirst, hrest⟩ := ih served
          exact ⟨middle, .cons serves hfirst, hrest⟩

theorem Served.of_singleton {e : AnsweredEffect} (served : Served cluster [e] last) :
    Serves cluster e last := by
  cases served with
  | cons serves served =>
      cases served
      exact serves

namespace Serves

/-- A request that was sent was carried out or not; if the operator can use the reply, the reply is
that of the API. -/
theorem of_sent (serves : Serves cluster (sent request reply) last) :
    (last = cluster ∧ request.Fails reply) ∨
      ∃ collects wire, request.wire? = some wire ∧ last = (cluster.answer collects wire).2 ∧
        (request.Fails reply ∨ reply = (cluster.answer collects wire).1) := by
  generalize he : sent request reply = e at serves
  cases serves with
  | recorded => cases he
  | answered collects h =>
      obtain ⟨rfl, rfl⟩ := sent_inj he
      exact Or.inr ⟨collects, _, h, rfl, Or.inr rfl⟩
  | refused fails =>
      obtain ⟨rfl, rfl⟩ := sent_inj he
      exact Or.inl ⟨rfl, fails⟩
  | lost collects h fails =>
      obtain ⟨rfl, rfl⟩ := sent_inj he
      exact Or.inr ⟨collects, _, h, rfl, Or.inl fails⟩

/-- Reading changes nothing, and finds what there is if it does not fail. -/
theorem of_get (serves : Serves cluster (sent (.get object) reply) last) :
    last = cluster ∧ ((Request.get object).Fails reply ∨
      reply = match cluster.stored? object with
        | some value => .success 200 (some value)
        | none => .failure .notFound) := by
  rcases serves.of_sent with ⟨rfl, fails⟩ | ⟨collects, wire, hwire, rfl, hreply⟩
  · exact ⟨rfl, Or.inl fails⟩
  · obtain ⟨hverb, htarget⟩ := Request.wire_get hwire
    rw [Cluster.answer_get hverb, htarget] at hreply ⊢
    rw [Cluster.stored?]
    cases hstored : cluster.object? object.wirePath with
    | none => exact ⟨rfl, by simpa [hstored] using hreply⟩
    | some value => exact ⟨rfl, by simpa [hstored] using hreply⟩

/-- A deletion that does not fail finds an object, or leaves none. -/
theorem stored?_of_delete (serves : Serves cluster (sent (.delete object) reply) last)
    (succeeds : ¬ (Request.delete object).Fails reply) :
    reply = .success 200 (some Cluster.deletedStatus) ∨ last.stored? object = none := by
  rcases serves.of_sent with ⟨-, fails⟩ | ⟨collects, wire, hwire, rfl, hreply⟩
  · exact absurd fails succeeds
  · obtain ⟨hverb, htarget⟩ := Request.wire_delete hwire
    rw [Cluster.stored?, ← htarget]
    rcases cluster.answer_delete collects "" hverb with
      ⟨hnone, heq⟩ | ⟨value, -, hfirst, -⟩
    · exact Or.inr (by rw [heq, hnone])
    · exact Or.inl ((hreply.resolve_left succeeds).trans hfirst)

end Serves

namespace Request

def Avoids (paths : String → Prop) (request : Request) : Prop :=
  ∀ wire, request.wire? = some wire → ¬ paths (Cluster.target wire)

def Leaves (request : Request) (object : Locator) : Prop :=
  ∀ cluster reply last, Serves cluster (sent request reply) last →
    last.stored? object = cluster.stored? object

/-- The request never hands the object at the place to the owner. -/
def Withholds (request : Request) (object : Locator) (uid : String) : Prop :=
  ∀ cluster reply last, Serves cluster (sent request reply) last →
    last.owns object uid = true → cluster.owns object uid = true

theorem Leaves.withholds (h : request.Leaves object) : request.Withholds object uid := by
  intro cluster reply last serves howns
  rwa [Cluster.owns, h cluster reply last serves] at howns

theorem leaves_get (other object : Locator) : (get other).Leaves object := by
  intro cluster reply last serves
  rw [serves.of_get.1]

theorem leaves_of_target_ne
    (h : ∀ wire, request.wire? = some wire → Cluster.target wire ≠ object.wirePath) :
    request.Leaves object := by
  intro cluster reply last serves
  rcases serves.of_sent with ⟨rfl, -⟩ | ⟨collects, wire, hwire, rfl, -⟩
  · rfl
  · exact Cluster.object?_answer_of_ne (h wire hwire)

theorem withholds_delete (other object : Locator) (uid : String) :
    (delete other).Withholds object uid := by
  intro cluster reply last serves howns
  rcases serves.of_sent with ⟨rfl, -⟩ | ⟨collects, wire, hwire, rfl, -⟩
  · exact howns
  · obtain ⟨hverb, -⟩ := wire_delete hwire
    by_cases htarget : Cluster.target wire = object.wirePath
    · rcases cluster.answer_delete collects uid hverb with
        ⟨-, heq⟩ | ⟨value, hvalue, -, hleft⟩
      · rwa [heq] at howns
      · rw [Cluster.owns, Option.any_eq_true] at howns ⊢
        obtain ⟨left, hstored, howned⟩ := howns
        rw [htarget] at hvalue hleft
        exact ⟨value, hvalue, hleft left hstored ▸ howned⟩
    · rwa [Cluster.owns, Cluster.stored?, Cluster.object?_answer_of_ne htarget] at howns

end Request

namespace Served

/-- What holds of a cluster stays if every request of the run keeps it. -/
theorem of_onlySends {P : Cluster → Prop} (served : Served cluster trace last)
    (h : OnlySends (fun request => ∀ cluster reply last, Serves cluster (sent request reply) last →
      P cluster → P last) trace) (hold : P cluster) : P last := by
  induction served with
  | nil => exact hold
  | @cons first middle last e trace serves served ih =>
      refine ih (fun request reply hmem => h request reply (List.mem_cons_of_mem _ hmem)) ?_
      obtain ⟨effect, answer⟩ := e
      cases effect with
      | send request => exact h request answer List.mem_cons_self first answer middle serves hold
      | record measurement =>
          cases serves
          exact hold

theorem stored?_eq (served : Served cluster trace last)
    (h : OnlySends (fun request => request.Leaves object) trace) :
    last.stored? object = cluster.stored? object := by
  refine served.of_onlySends (P := fun now => now.stored? object = cluster.stored? object)
    (h.mono fun request leaves now reply after serves heq => ?_) rfl
  rw [leaves now reply after serves, heq]

theorem owns_of_owns (served : Served cluster trace last)
    (h : OnlySends (fun request => request.Withholds object uid) trace)
    (howns : last.owns object uid = true) : cluster.owns object uid = true := by
  by_cases hbefore : cluster.owns object uid = true
  · exact hbefore
  · refine absurd howns (served.of_onlySends (P := fun now => ¬ now.owns object uid = true)
      (h.mono fun request withholds now reply after serves hnot hafter => ?_) hbefore)
    exact hnot (withholds now reply after serves hafter)

end Served

/-- A cluster that answers every effect by its rules. To a request that cannot be sent it
gives an answer that cannot be read. -/
def Cluster.serve (collects : Bool) : (effect : Effect) → Cluster → effect.Answer × Cluster
  | .send request, cluster => match request.wire? with
      | some wire => cluster.answer collects wire
      | none => (Reply.success 200 none, cluster)
  | .record _, cluster => ((), cluster)

theorem Request.fails_of_unreadable (request : Request) (code : Nat) :
    request.Fails (.success code none) := by
  cases request <;> rfl

theorem Cluster.serves_serve (collects : Bool) (effect : Effect) (cluster : Cluster) :
    Serves cluster ⟨effect, (serve collects effect cluster).1⟩
      (serve collects effect cluster).2 := by
  cases effect with
  | record measurement => exact .recorded measurement
  | send request =>
      simp only [serve]
      cases hwire : request.wire? with
      | none => exact .refused (request.fails_of_unreadable 200)
      | some wire => exact .answered collects hwire

/-- The run that such a cluster leads to is served. -/
theorem Cluster.served_transcript {α : Type} (collects : Bool) (d : EffectProgram α)
    (cluster : Cluster) :
    Served cluster (d.transcript (serve collects) cluster) (d.run (serve collects) cluster).2 := by
  induction d generalizing cluster with
  | done x => exact .nil
  | ask effect next ih => exact .cons (serves_serve collects effect cluster) (ih _ _)

theorem ObjectMeta.deleteRefusal?_ne_notFound {data : ObjectMeta} {uid : String} :
    data.deleteRefusal? uid ≠ some .notFound := by
  unfold deleteRefusal?
  split
  · exact nofun
  · split <;> exact nofun

/-- After a check that leaves nothing to wait for, the object at the place is not the owner's. -/
theorem DeleteCheck.owns_eq_false {kind : String} {outcome : DeleteOutcome}
    (hread : object.type.reader = Decoder.anyMeta)
    (check : DeleteCheck object kind uid Decoder.anyMeta trace (.ok outcome))
    (gone : outcome = .notFound ∨ outcome = .notOwned) (served : Served cluster trace last) :
    last.owns object uid = false := by
  have reads {reply : Reply} {found : Option ObjectMeta} {last : Cluster}
      (serves : Serves cluster (sent (.get object) reply) last)
      (h : reply.found Decoder.anyMeta = .ok found) :
      last = cluster ∧ reply = match cluster.stored? object with
        | some value => .success 200 (some value)
        | none => .failure .notFound := by
    refine ⟨serves.of_get.1, serves.of_get.2.resolve_left fun fails => ?_⟩
    simp [Request.Fails, hread, h, Except.isOk, Except.toBool] at fails
  cases check with
  | absent h =>
      obtain ⟨rfl, hreply⟩ := reads served.of_singleton h
      obtain ⟨status, rfl, -⟩ := Reply.found_eq_none_iff.mp h
      cases hstored : last.stored? object with
      | none => exact Cluster.owns_of_absent hstored
      | some value => simp [hstored] at hreply
  | @kept reply data outcome h refused =>
      obtain ⟨rfl, hreply⟩ := reads served.of_singleton h
      obtain ⟨code, body, rfl, hbody⟩ := Reply.found_eq_some_iff.mp h
      obtain rfl : outcome = .notOwned :=
        gone.resolve_left fun heq => ObjectMeta.deleteRefusal?_ne_notFound (heq ▸ refused)
      cases hstored : last.stored? object with
      | none => simp [hstored] at hreply
      | some value =>
          obtain ⟨rfl, rfl⟩ : code = 200 ∧ body = value := by simpa [hstored] using hreply
          rw [Cluster.owns_of_read hstored hbody, ObjectMeta.ownedBy_of_notOwned refused]
  | @removed reply answer data found h allowed removed =>
      obtain rfl : found = false := by cases found <;> simp_all
      cases served with
      | cons serves served =>
          obtain ⟨rfl, -⟩ := reads serves h
          have succeeds : ¬ (Request.delete object).Fails answer := by
            simp [Request.Fails, hread, removed, Except.isOk, Except.toBool]
          rcases served.of_singleton.stored?_of_delete succeeds with rfl | hnone
          · simp only [Reply.removed, Option.bind_some] at removed
            split at removed <;> cases removed
          · exact Cluster.owns_of_absent hnone

theorem GoneChecks.owns_eq_false {deps : List DependentSpec} {d : DependentSpec}
    (checks : GoneChecks uid deps trace) (served : Served cluster trace last) (hd : d ∈ deps) :
    last.owns d.locator uid = false := by
  induction checks generalizing cluster with
  | nil => cases hd
  | @cons head deps first rest outcome check gone checks ih =>
      obtain ⟨middle, hfirst, hrest⟩ := served.of_append
      rcases List.mem_cons.mp hd with rfl | hd
      · have hmiddle := check.owns_eq_false d.kind.reader_resourceType gone hfirst
        refine Bool.eq_false_iff.mpr fun howns => ?_
        have hearlier := hrest.owns_of_owns (checks.onlySends.mono fun request h => ?_) howns
        · rw [hmiddle] at hearlier
          cases hearlier
        · obtain ⟨other, -, rfl | rfl⟩ := h
          · exact (Request.leaves_get _ _).withholds
          · exact Request.withholds_delete _ _ _
      · exact ih hrest hd

end SiteOperator
