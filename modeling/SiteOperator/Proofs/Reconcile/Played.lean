import SiteOperator.Proofs.Cluster.Segments
import SiteOperator.Proofs.Dialogue.Answers
import SiteOperator.Proofs.Reconcile.Requests
import SiteOperator.Proofs.Resource.Patched

/-!
# Tasks in a cluster that answers every request

`Task.Plays` is the run of a task in a cluster that answers all of its requests by the rules of the
API. A successful run of a task that goes on after another one is a run of each
(`Task.plays_bind_iff`). Once an object has been created if it was missing, or has been deleted if
it was owned, the same task only reads (`Task.Rests`): it finds the object as it left it.
-/

namespace SiteOperator

open Dialogue (AnsweredBy)

variable {collects : Bool} {cluster middle last : Cluster} {trace : List AnsweredEffect}

theorem Dialogue.answeredBy_singleton_iff {Q σ : Type} {A : Q → Type}
    {environment : (q : Q) → σ → A q × σ} {state last : σ} {q : Q} {answer : A q} :
    AnsweredBy environment state [⟨q, answer⟩] last ↔ environment q state = (answer, last) := by
  constructor
  · intro h
    cases h with
    | cons h =>
        cases h
        rfl
  · intro h
    have cons : AnsweredBy environment state [⟨q, (environment q state).1⟩]
        (environment q state).2 := .cons .nil
    rwa [h] at cons

theorem Dialogue.AnsweredBy.served (h : AnsweredBy (Cluster.serve collects) cluster trace last) :
    Served cluster trace last := by
  induction h with
  | nil => exact .nil
  | cons _ ih => exact .cons (Cluster.serves_serve _ _ _) ih

def Request.LeavesPath (request : Request) (path : String) : Prop :=
  ∀ cluster reply last, Serves cluster (sent request reply) last →
    last.object? path = cluster.object? path

namespace Request

variable {request : Request} {path : String}

theorem leavesPath_get (object : Locator) (path : String) : (get object).LeavesPath path := by
  intro cluster reply last serves
  rw [serves.of_get.1]

theorem leavesPath_of_target_ne
    (h : ∀ wire, request.wire? = some wire → Cluster.target wire ≠ path) :
    request.LeavesPath path := by
  intro cluster reply last serves
  rcases serves.of_sent with ⟨rfl, -⟩ | ⟨collects, wire, hwire, rfl, -⟩
  · rfl
  · exact Cluster.object?_answer_of_ne (h wire hwire)

end Request

def Cluster.lookup (cluster : Cluster) (object : Locator) : Reply :=
  match cluster.stored? object with
  | some value => .success 200 (some value)
  | none => .failure .notFound

theorem Cluster.found_lookup_iff {α : Type} {read : Decoder α} {object : Locator}
    {found : Option α} : (cluster.lookup object).found read = .ok found ↔
      (cluster.stored? object).map read = found.map some := by
  rw [lookup]
  cases cluster.stored? object with
  | none => cases found <;> simp [Reply.found, ApiStatus.notFound]
  | some value => cases hread : read value <;> cases found <;> simp [Reply.found, hread]

/-- An object that is deleted goes, or is marked as going if finalizers hold on to it. -/
theorem Cluster.stored?_of_delete {object : Locator} {wire : WireRequest}
    (hwire : (Request.delete object).wire? = some wire) {value : Json}
    (h : cluster.stored? object = some value) :
    (cluster.answer collects wire).2.stored? object =
      if hasFinalizers value then some (deletion.mergePatch value) else none := by
  obtain ⟨hverb, htarget⟩ := Request.wire_delete hwire
  rw [stored?, ← htarget] at h ⊢
  simp only [answer, hverb, h]
  split
  · rw [merge, object?_store, if_pos rfl, h]
    rfl
  · rw [object?_remove, if_pos rfl]

/-- The object is there, and it can be read. -/
structure Cluster.Holds (cluster : Cluster) (object : Locator) (shapes : List (String × Shape)) :
    Prop where
  sendable : (Request.get object).wire?.isSome = true
  readable : ∃ value data, cluster.stored? object = some value ∧
    Decoder.typedMeta object.type shapes value = some data

/-- The object is not there, or it can be read and must not be deleted for the owner. -/
structure Cluster.Spares (cluster : Cluster) (object : Locator) (shapes : List (String × Shape))
    (uid : String) : Prop where
  sendable : (Request.get object).wire?.isSome = true
  refused : ∀ value, cluster.stored? object = some value →
    ∃ data outcome, Decoder.typedMeta object.type shapes value = some data ∧
      data.deleteRefusal? uid = some outcome

namespace Cluster

variable {object : Locator} {shapes : List (String × Shape)} {uid : String}

theorem Holds.of_stored?_eq (h : cluster.Holds object shapes)
    (stored : last.stored? object = cluster.stored? object) : last.Holds object shapes :=
  ⟨h.sendable, stored ▸ h.readable⟩

theorem Spares.of_stored?_eq (h : cluster.Spares object shapes uid)
    (stored : last.stored? object = cluster.stored? object) : last.Spares object shapes uid :=
  ⟨h.sendable, stored ▸ h.refused⟩

end Cluster

namespace Task

variable {α β : Type} {task : Task α} {f : α → Task β} {x : α} {y : β} {request : Request}
  {read : Decoder α} {object : Locator}

/-- The task makes this run in a cluster that answers every request by its rules. -/
structure Plays (collects : Bool) (task : Task α) (cluster : Cluster) (trace : List AnsweredEffect)
    (result : Except Raised α) (last : Cluster) : Prop where
  runs : task.Runs trace result
  answered : AnsweredBy (Cluster.serve collects) cluster trace last

/-- Where all requests of a task change nothing there is afterwards what there was before. -/
theorem Plays.object?_eq {result : Except Raised α} {path : String}
    (plays : task.Plays collects cluster trace result last)
    (h : Always (OnlySends (·.LeavesPath path)) task) :
    last.object? path = cluster.object? path :=
  plays.answered.served.of_onlySends (P := fun now => now.object? path = cluster.object? path)
    ((h _ _ plays.runs).mono fun _ leaves now reply after serves heq =>
      (leaves now reply after serves).trans heq) rfl

/-- A run in such a cluster is the one that the cluster leads to. -/
theorem Plays.eq_transcript {result : Except Raised α}
    (plays : task.Plays collects cluster trace result last) :
    Dialogue.transcript (Cluster.serve collects) task.run cluster = trace ∧
      Dialogue.run (Cluster.serve collects) task.run cluster = (result, last) :=
  plays.runs.eq_transcript plays.answered

/-- A task has one run in a cluster. -/
theorem Plays.unique {result result' : Except Raised α} {trace' : List AnsweredEffect}
    {left : Cluster} (plays : task.Plays collects cluster trace result last)
    (plays' : task.Plays collects cluster trace' result' left) :
    trace' = trace ∧ result' = result ∧ left = last := by
  obtain ⟨htrace, hrun⟩ := plays.eq_transcript
  obtain ⟨htrace', hrun'⟩ := plays'.eq_transcript
  obtain ⟨hresult, hlast⟩ := Prod.mk.inj (hrun'.symm.trans hrun)
  exact ⟨htrace'.symm.trans htrace, hresult, hlast⟩

theorem plays_transcript (collects : Bool) (task : Task α) (cluster : Cluster) :
    task.Plays collects cluster (Dialogue.transcript (Cluster.serve collects) task.run cluster)
      (Dialogue.run (Cluster.serve collects) task.run cluster).1
      (Dialogue.run (Cluster.serve collects) task.run cluster).2 :=
  ⟨Dialogue.runs_transcript _ _ _, Dialogue.answeredBy_transcript _ _ _⟩

theorem plays_pure_iff {result : Except Raised α} :
    (pure x : Task α).Plays collects cluster trace result last ↔
      trace = [] ∧ result = .ok x ∧ last = cluster := by
  constructor
  · rintro ⟨run, answered⟩
    obtain ⟨rfl, rfl⟩ := runs_pure_iff.mp run
    cases answered
    exact ⟨rfl, rfl, rfl⟩
  · rintro ⟨rfl, rfl, rfl⟩
    exact ⟨runs_pure_iff.mpr ⟨rfl, rfl⟩, .nil⟩

/-- A run of two tasks ends with the first one, or it is a run of each, one after the other. -/
theorem plays_bind_cases {result : Except Raised β} :
    (task >>= f).Plays collects cluster trace result last ↔
      (∃ error, task.Plays collects cluster trace (.error error) last ∧ result = .error error) ∨
        ∃ first x middle rest, trace = first ++ rest ∧
          task.Plays collects cluster first (.ok x) middle ∧
          (f x).Plays collects middle rest result last := by
  constructor
  · rintro ⟨run, answered⟩
    rcases runs_bind_iff.mp run with ⟨error, hrun, rfl⟩ | ⟨first, x, rest, rfl, hfirst, hrest⟩
    · exact Or.inl ⟨error, ⟨hrun, answered⟩, rfl⟩
    · obtain ⟨middle, hbefore, hafter⟩ := answered.of_append
      exact Or.inr ⟨first, x, middle, rest, rfl, ⟨hfirst, hbefore⟩, hrest, hafter⟩
  · rintro (⟨error, plays, rfl⟩ | ⟨first, x, middle, rest, rfl, hfirst, hrest⟩)
    · exact ⟨runs_bind_iff.mpr (Or.inl ⟨error, plays.runs, rfl⟩), plays.answered⟩
    · exact ⟨runs_bind_iff.mpr (Or.inr ⟨first, x, rest, rfl, hfirst.runs, hrest.runs⟩),
        hfirst.answered.append hrest.answered⟩

/-- A successful run of two tasks is a successful run of each, one after the other. -/
theorem plays_bind_iff : (task >>= f).Plays collects cluster trace (.ok y) last ↔
    ∃ first x middle rest, trace = first ++ rest ∧
      task.Plays collects cluster first (.ok x) middle ∧
      (f x).Plays collects middle rest (.ok y) last := by
  rw [plays_bind_cases, or_iff_right]
  rintro ⟨error, -, heq⟩
  cases heq

/-- What follows a task goes on from where the task has ended. -/
theorem Plays.of_bind {result : Except Raised β} {first : List AnsweredEffect}
    (plays : task.Plays collects cluster first (.ok x) middle)
    (playsAll : (task >>= f).Plays collects cluster trace result last) :
    ∃ rest, trace = first ++ rest ∧ (f x).Plays collects middle rest result last := by
  rcases plays_bind_cases.mp playsAll with
    ⟨error, hfails, -⟩ | ⟨first', x', middle', rest, rfl, hfirst, hrest⟩
  · cases (plays.unique hfails).2.1
  · obtain ⟨rfl, heq, rfl⟩ := plays.unique hfirst
    cases heq
    exact ⟨rest, rfl, hrest⟩

/-- What fails is not followed by anything. -/
theorem Plays.of_bind_error {result : Except Raised β} {first : List AnsweredEffect}
    {error : Raised} (plays : task.Plays collects cluster first (.error error) middle)
    (playsAll : (task >>= f).Plays collects cluster trace result last) :
    trace = first ∧ result = .error error := by
  rcases plays_bind_cases.mp playsAll with
    ⟨error', hfails, rfl⟩ | ⟨first', x, middle', rest, rfl, hfirst, -⟩
  · obtain ⟨rfl, heq, -⟩ := plays.unique hfails
    cases heq
    exact ⟨rfl, rfl⟩
  · cases (plays.unique hfirst).2.1

theorem plays_ofExcept_bind_iff {fallible : Except Fault α} :
    (ofExcept fallible >>= f).Plays collects cluster trace (.ok y) last ↔
      ∃ x, fallible = .ok x ∧ (f x).Plays collects cluster trace (.ok y) last := by
  constructor
  · rintro ⟨run, answered⟩
    rcases runs_ofExcept_bind_iff.mp run with ⟨_, -, -, heq⟩ | ⟨x, hx, hrest⟩
    · cases heq
    · exact ⟨x, hx, hrest, answered⟩
  · rintro ⟨x, hx, hrest, answered⟩
    exact ⟨runs_ofExcept_bind_iff.mpr (Or.inr ⟨x, hx, hrest⟩), answered⟩

theorem plays_record_bind_iff {measurement : Measurement} {next : Unit → Task β} :
    (record measurement >>= next).Plays collects cluster trace (.ok y) last ↔
      ∃ rest, trace = recorded measurement :: rest ∧
        (next ()).Plays collects cluster rest (.ok y) last := by
  constructor
  · rintro ⟨run, answered⟩
    obtain ⟨rest, rfl, hrest⟩ := runs_record_bind_iff.mp run
    cases answered with
    | cons answered => exact ⟨rest, rfl, hrest, answered⟩
  · rintro ⟨rest, rfl, hrest, answered⟩
    exact ⟨runs_record_bind_iff.mpr ⟨rest, rfl, hrest⟩, .cons answered⟩

theorem plays_within_iff {context : String} :
    (within context task).Plays collects cluster trace (.ok x) last ↔
      task.Plays collects cluster trace (.ok x) last := by
  constructor
  · rintro ⟨run, answered⟩
    obtain ⟨inner, hrun, heq⟩ := runs_within_iff.mp run
    cases inner with
    | error cause => cases heq
    | ok y =>
        cases heq
        exact ⟨hrun, answered⟩
  · rintro ⟨run, answered⟩
    exact ⟨runs_within_iff.mpr ⟨.ok x, run, rfl⟩, answered⟩

/-- One exchange succeeds if the request can be sent and the answer of the cluster is of use. -/
theorem plays_iff_of_exchanges {understand : Reply → Except Raised α}
    (hruns : ∀ trace result, task.Runs trace result ↔ Exchanges request understand trace result) :
    task.Plays collects cluster trace (.ok x) last ↔
      ∃ wire, request.wire? = some wire ∧
        trace = [sent request (cluster.answer collects wire).1] ∧
        last = (cluster.answer collects wire).2 ∧
        understand (cluster.answer collects wire).1 = .ok x := by
  have serves {wire : WireRequest} (hwire : request.wire? = some wire) :
      Cluster.serve collects (.send request) cluster = cluster.answer collects wire := by
    simp only [Cluster.serve, hwire]
    rfl
  constructor
  · rintro ⟨run, answered⟩
    rcases (hruns _ _).mp run with ⟨-, -, heq⟩ | ⟨hsome, reply, rfl, heq⟩
    · cases heq
    · obtain ⟨wire, hwire⟩ := Option.isSome_iff_exists.mp hsome
      have hanswer := Dialogue.answeredBy_singleton_iff.mp answered
      rw [serves hwire] at hanswer
      exact ⟨wire, hwire, by rw [hanswer], by rw [hanswer], by rw [hanswer]; exact heq.symm⟩
  · rintro ⟨wire, hwire, rfl, rfl, hunderstand⟩
    refine ⟨(hruns _ _).mpr (Or.inr ⟨by rw [hwire]; rfl, _, rfl, hunderstand.symm⟩), ?_⟩
    exact Dialogue.answeredBy_singleton_iff.mpr (serves hwire)

theorem plays_request_iff : (Task.request request read).Plays collects cluster trace (.ok x) last ↔
    ∃ wire, request.wire? = some wire ∧
      trace = [sent request (cluster.answer collects wire).1] ∧
      last = (cluster.answer collects wire).2 ∧
      (cluster.answer collects wire).1.received read = .ok x :=
  plays_iff_of_exchanges fun _ _ => runs_request_iff

/-- What is looked for is found if it is there and can be read. -/
theorem plays_find?_iff {found : Option α} :
    (find? object read).Plays collects cluster trace (.ok found) last ↔
      (Request.get object).wire?.isSome = true ∧
        (cluster.stored? object).map read = found.map some ∧
        trace = [sent (.get object) (cluster.lookup object)] ∧ last = cluster := by
  have answers {wire : WireRequest} (hwire : (Request.get object).wire? = some wire) :
      cluster.answer collects wire = (cluster.lookup object, cluster) := by
    obtain ⟨hverb, htarget⟩ := Request.wire_get hwire
    rw [Cluster.answer_get hverb, htarget, Cluster.lookup, Cluster.stored?]
    cases cluster.object? object.wirePath <;> rfl
  rw [plays_iff_of_exchanges fun _ _ => runs_find?_iff]
  constructor
  · rintro ⟨wire, hwire, rfl, rfl, hfound⟩
    rw [answers hwire] at hfound ⊢
    exact ⟨by rw [hwire]; rfl, Cluster.found_lookup_iff.mp hfound, rfl, rfl⟩
  · rintro ⟨hsome, hfound, rfl, rfl⟩
    obtain ⟨wire, hwire⟩ := Option.isSome_iff_exists.mp hsome
    refine ⟨wire, hwire, ?_⟩
    rw [answers hwire]
    exact ⟨rfl, rfl, Cluster.found_lookup_iff.mpr hfound⟩

def Rests (collects : Bool) (task : Task α) (cluster : Cluster) (x : α) : Prop :=
  ∃ trace, task.Plays collects cluster trace (.ok x) cluster ∧
    OnlySends (·.isRead = true) trace

namespace Rests

theorem pure (x : α) : Rests collects (Pure.pure x : Task α) cluster x :=
  ⟨[], plays_pure_iff.mpr ⟨rfl, rfl, rfl⟩, (OnlySends.chains _).nil⟩

theorem bind (first : Rests collects task cluster x) (next : Rests collects (f x) cluster y) :
    Rests collects (task >>= f) cluster y := by
  obtain ⟨trace, hfirst, reads⟩ := first
  obtain ⟨rest, hrest, reads'⟩ := next
  exact ⟨trace ++ rest, plays_bind_iff.mpr ⟨trace, x, cluster, rest, rfl, hfirst, hrest⟩,
    (OnlySends.chains _).append reads reads'⟩

/-- What follows a task that rests follows its reads. -/
theorem plays_bind (first : Rests collects task cluster x)
    (next : (f x).Plays collects cluster trace (.ok y) last) :
    ∃ reads, OnlySends (·.isRead = true) reads ∧
      (task >>= f).Plays collects cluster (reads ++ trace) (.ok y) last := by
  obtain ⟨reads, hfirst, hreads⟩ := first
  exact ⟨reads, hreads, plays_bind_iff.mpr ⟨reads, x, cluster, trace, rfl, hfirst, next⟩⟩

theorem ofExcept {fallible : Except Fault α} (h : fallible = .ok x) :
    Rests collects (Task.ofExcept fallible) cluster x := by
  rw [h]
  exact pure x

theorem find? (found : Option α) (sendable : (Request.get object).wire?.isSome = true)
    (hfound : (cluster.stored? object).map read = found.map some) :
    Rests collects (Task.find? object read) cluster found :=
  ⟨_, plays_find?_iff.mpr ⟨sendable, hfound, rfl, rfl⟩,
    OnlySends.sent (P := (·.isRead = true)) rfl _⟩

theorem requestIf {needed : Bool} (h : needed = false) :
    Rests collects (Task.requestIf needed request read) cluster () := by
  rw [h]
  exact pure ()

end Rests

section CreateMissing

variable {shapes : List (String × Shape)} {body : Json} {created : Bool}

/-- After a task that creates what is missing, the object is there and can be read. -/
theorem Plays.of_createMissing
    (plays : (createMissing object shapes body).Plays collects cluster trace (.ok created) last)
    (segmented : object.Segmented)
    (hname : (body.field "metadata").field "name" = .string object.name) :
    last.Holds object shapes := by
  obtain ⟨first, found, middle, rest, rfl, hfind, hrest⟩ := plays_bind_iff.mp plays
  obtain ⟨sendable, hfound, rfl, rfl⟩ := plays_find?_iff.mp hfind
  refine ⟨sendable, ?_⟩
  cases found with
  | some data =>
      obtain ⟨-, -, rfl⟩ := plays_pure_iff.mp hrest
      obtain ⟨value, hstored, hread⟩ := Option.map_eq_some_iff.mp hfound
      exact ⟨value, data, hstored, hread⟩
  | none =>
      have hnone := Option.map_eq_none_iff.mp hfound
      obtain ⟨made, data, after, rest, rfl, hcreate, hpure⟩ := plays_bind_iff.mp hrest
      obtain ⟨rfl, -, rfl⟩ := plays_pure_iff.mp hpure
      obtain ⟨wire, hwire, rfl, rfl, hreceived⟩ :=
        plays_request_iff.mp (plays_within_iff.mp hcreate)
      obtain ⟨hverb, hbody, htarget⟩ := Request.wire_create hwire segmented hname
      rw [Cluster.stored?, ← htarget] at hnone
      rw [Cluster.answer_create hverb hbody, hnone] at hreceived ⊢
      refine ⟨body, data, ?_, ?_⟩
      · rw [Cluster.stored?, Cluster.object?_store, htarget, if_pos rfl]
      · obtain ⟨code, read, heq, hread⟩ := Reply.received_eq_ok_iff.mp hreceived
        cases heq
        exact hread

/-- What is there is not created again. -/
theorem Rests.createMissing (holds : cluster.Holds object shapes) :
    Rests collects (Task.createMissing object shapes body) cluster false := by
  obtain ⟨sendable, value, data, stored, hread⟩ := holds
  refine .bind (.find? (some data) sendable ?_) (.pure false)
  rw [stored, Option.map_some, hread]
  rfl

end CreateMissing

section DeleteOwned

variable {kind uid : String} {shapes : List (String × Shape)} {outcome : DeleteOutcome}

/-- After a task that deletes what is owned, nothing that is there may be deleted. -/
theorem Plays.of_deleteOwned (hshapes : "metadata" ∉ shapes.map Prod.fst)
    (plays : (deleteOwned object kind uid (Decoder.typedMeta object.type shapes)).Plays collects
      cluster trace (.ok outcome) last) :
    last.Spares object shapes uid := by
  obtain ⟨first, found, middle, rest, rfl, hfind, hrest⟩ := plays_bind_iff.mp plays
  obtain ⟨sendable, hfound, rfl, rfl⟩ := plays_find?_iff.mp hfind
  refine ⟨sendable, ?_⟩
  cases found with
  | none =>
      obtain ⟨-, -, rfl⟩ := plays_pure_iff.mp hrest
      rw [Option.map_eq_none_iff.mp hfound]
      exact nofun
  | some data =>
      obtain ⟨value, hstored, hread⟩ := Option.map_eq_some_iff.mp hfound
      cases hrefused : data.deleteRefusal? uid with
      | some outcome =>
          simp only [hrefused] at hrest
          obtain ⟨-, -, rfl⟩ := plays_pure_iff.mp hrest
          rw [hstored]
          intro left hleft
          obtain rfl := Option.some.inj hleft
          exact ⟨data, outcome, hread, hrefused⟩
      | none =>
          simp only [hrefused] at hrest
          obtain ⟨gone, there, after, rest, rfl, hremove, hpure⟩ := plays_bind_iff.mp hrest
          obtain ⟨-, -, rfl⟩ := plays_pure_iff.mp hpure
          obtain ⟨wire, hwire, rfl, rfl, -⟩ := (plays_iff_of_exchanges
            fun _ _ => runs_remove_iff).mp (plays_within_iff.mp hremove)
          rw [Cluster.stored?_of_delete hwire hstored]
          intro left hleft
          obtain ⟨held, hleft⟩ := Option.ite_none_right_eq_some.mp hleft
          obtain rfl := Option.some.inj hleft
          obtain ⟨going, hgoing, terminating⟩ :=
            Decoder.exists_typedMeta_deletion hread held hshapes
          exact ⟨going, .alreadyDeleting, hgoing, by simp [ObjectMeta.deleteRefusal?, terminating]⟩

/-- What must not be deleted is left alone. -/
theorem Rests.deleteOwned (collects : Bool) (kind : String)
    (spares : cluster.Spares object shapes uid) :
    ∃ outcome, Rests collects (Task.deleteOwned object kind uid
      (Decoder.typedMeta object.type shapes)) cluster outcome := by
  obtain ⟨sendable, refused⟩ := spares
  cases hstored : cluster.stored? object with
  | none =>
      refine ⟨.notFound, .bind (.find? none sendable ?_) (.pure _)⟩
      rw [hstored]
      rfl
  | some value =>
      obtain ⟨data, outcome, hread, hrefused⟩ := refused value hstored
      refine ⟨outcome, .bind (.find? (some data) sendable ?_) ?_⟩
      · rw [hstored, Option.map_some, hread]
        rfl
      · simp only [hrefused]
        exact .pure outcome

end DeleteOwned

end Task

end SiteOperator
