import SiteOperator.Proofs.Pass.Repeat
import SiteOperator.Proofs.Reconcile.Played
import SiteOperator.Proofs.Reconcile.Lifetime
import SiteOperator.Proofs.Reconcile.Ownership
import SiteOperator.Proofs.Reconcile.Failures

/-!
# What the dependents of a site report

`SiteNames.reported` takes a cluster to what the dependents of a site report in it. An apply keeps
the status that is published under an object, so on this side of the map the calls of a pass that do
not fail are answered as if every dependent kept reporting the same (`SiteOwner.Performs`,
`SiteOwner.performsAll_of_performed`). The other way round, calls that are answered so can be
performed in every cluster whose dependents can be read (`SiteOwner.exists_performed`).
-/

namespace SiteOperator

open Dialogue (AnsweredBy)

variable {collects : Bool} {cluster last : Cluster} {part : List AnsweredEffect}
  {names : SiteNames} {owner : SiteOwner} {d : DependentSpec}

namespace Cluster

variable {earlier : Option Json} {fields : Fields} {body status : Json}

theorem applied_of_status (h : ((earlier.bind Json.fields?).bind fun fields =>
    Entries.at? fields "status") = some status) :
    applied earlier (.object fields) = .object (Entries.put fields "status" status) := by
  simp only [applied, h]

theorem applied_of_no_status (h : ((earlier.bind Json.fields?).bind fun fields =>
    Entries.at? fields "status") = none) : applied earlier body = body := by
  simp only [applied, h]

/-- An object reports what it reported before it was applied, or nothing if it is new. -/
theorem ofObject_applied (earlier : Option Json) (h : Entries.at? fields "status" = none) :
    DependentStatus.ofObject (applied earlier (.object fields)) =
      (earlier.map DependentStatus.ofObject).getD .empty := by
  have hreported (earlier : Option Json) : (earlier.map DependentStatus.ofObject).getD .empty =
      (((earlier.bind Json.fields?).bind fun fields => Entries.at? fields "status").bind
        DependentStatus.decode).getD .empty := by
    cases earlier <;> rfl
  rw [hreported]
  cases hstatus : (earlier.bind Json.fields?).bind fun fields => Entries.at? fields "status" with
  | none =>
      rw [applied_of_no_status hstatus, DependentStatus.ofObject]
      simp [Json.fields?, h]
  | some status =>
      rw [applied_of_status hstatus, DependentStatus.ofObject]
      simp [Json.fields?]

end Cluster

def SiteNames.Places (names : SiteNames) (d : DependentSpec) : Prop :=
  d.locator = names.dependent d.kind

def SiteNames.reported (names : SiteNames) (cluster : Cluster) : Observed :=
  .ofFn fun kind => (cluster.stored? (names.dependent kind)).map DependentStatus.ofObject

namespace SiteNames.Places

theorem get_reported (places : names.Places d) (cluster : Cluster) :
    (names.reported cluster).get d.kind =
      (cluster.stored? d.locator).map DependentStatus.ofObject := by
  rw [reported, PerKind.get_ofFn, places]

/-- Storing a dependent changes what its kind reports, and nothing else. -/
theorem reported_store (places : names.Places d) (cluster : Cluster) (value : Json) :
    names.reported (cluster.store d.locator.wirePath value) =
      (names.reported cluster).set d.kind (some (DependentStatus.ofObject value)) := by
  refine PerKind.eq_of_get_eq fun kind => ?_
  rw [PerKind.get_set, reported, reported, PerKind.get_ofFn, PerKind.get_ofFn, Cluster.stored?,
    Cluster.stored?, Cluster.object?_store, places]
  by_cases hkind : kind = d.kind
  · rw [if_pos hkind, hkind, if_pos rfl]
    rfl
  · have hne : (names.dependent kind).wirePath ≠ (names.dependent d.kind).wirePath := by
      intro heq
      have hstarts := names.starts_dependent kind
      rw [heq] at hstarts
      exact hkind (DependentKind.eq_of_starts hstarts (names.starts_dependent d.kind))
    rw [if_neg hkind, if_neg hne]

end SiteNames.Places

namespace SiteOwner

def applying (owner : SiteOwner) (d : DependentSpec) : Request :=
  .apply d.locator owner.manager (d.object owner.reference owner.labels)

def applied (owner : SiteOwner) (d : DependentSpec) (cluster : Cluster) : Json :=
  Cluster.applied (cluster.stored? d.locator) (d.object owner.reference owner.labels)

theorem exists_object_eq (owner : SiteOwner) (d : DependentSpec) : ∃ fields : Fields,
    d.object owner.reference owner.labels = .object fields ∧ fields.at? "status" = none := by
  refine ⟨_, rfl, ?_⟩
  simp [Entries.at?_ofList, Entries.at?_cons]

theorem isSome_anyMeta_applied (owner : SiteOwner) (d : DependentSpec) (cluster : Cluster) :
    (Decoder.anyMeta (owner.applied d cluster)).isSome = true := by
  rw [applied, Cluster.anyMeta_applied, d.anyMeta_object]
  rfl

/-- A dependent that has been applied reports what it reported before, or nothing if it is new. -/
theorem ofObject_applied (owner : SiteOwner) (d : DependentSpec) (cluster : Cluster) :
    DependentStatus.ofObject (owner.applied d cluster) =
      ((cluster.stored? d.locator).map DependentStatus.ofObject).getD .empty := by
  obtain ⟨fields, hobject, hstatus⟩ := owner.exists_object_eq d
  rw [applied, hobject, Cluster.ofObject_applied _ hstatus]

/-- The answer to a request that applies a dependent. -/
theorem answer_applying {wire : WireRequest} (h : (owner.applying d).wire? = some wire) :
    cluster.answer collects wire = (.success 200 (some (owner.applied d cluster)),
      cluster.store d.locator.wirePath (owner.applied d cluster)) := by
  obtain ⟨hverb, hbody, htarget⟩ := Request.wire_apply h
  rw [Cluster.answer_apply hverb hbody, htarget]
  rfl

/-- What there is of a dependent is observed if it can be read. -/
theorem plays_observe_iff {found : Option DependentStatus} :
    (observe d).Plays collects cluster part (.ok found) last ↔
      (Request.get d.locator).wire?.isSome = true ∧
        (∀ value, cluster.stored? d.locator = some value →
          (Decoder.anyMeta value).isSome = true) ∧
        found = (cluster.stored? d.locator).map DependentStatus.ofObject ∧
        part = [sent (.get d.locator) (cluster.lookup d.locator)] ∧ last = cluster := by
  have hfound : (cluster.stored? d.locator).map dependentStatus = found.map some ↔
      (∀ value, cluster.stored? d.locator = some value →
        (Decoder.anyMeta value).isSome = true) ∧
        found = (cluster.stored? d.locator).map DependentStatus.ofObject := by
    cases cluster.stored? d.locator with
    | none => cases found <;> simp
    | some value =>
        have hstatus : dependentStatus value =
            (Decoder.anyMeta value).map fun _ => DependentStatus.ofObject value := rfl
        rw [Option.map_some, hstatus]
        cases hread : Decoder.anyMeta value with
        | none => cases found <;> simp [hread]
        | some data =>
            cases found with
            | none => simp
            | some status => simp [hread, eq_comm (a := status)]
  rw [observe, Task.plays_find?_iff, hfound, and_assoc]

/-- Applying a dependent succeeds if the request can be sent. -/
theorem plays_apply_iff {status : DependentStatus} :
    (owner.apply d).Plays collects cluster part (.ok status) last ↔
      (owner.applying d).wire?.isSome = true ∧
        status = ((cluster.stored? d.locator).map DependentStatus.ofObject).getD .empty ∧
        part = [sent (owner.applying d) (.success 200 (some (owner.applied d cluster))),
          recorded (.applied d.kind.name)] ∧
        last = cluster.store d.locator.wirePath (owner.applied d cluster) := by
  have happly : owner.apply d = Task.within ("failed to apply " ++ d.name)
      (Task.request (owner.applying d) dependentStatus) >>= fun status =>
        Task.record (.applied d.kind.name) >>= fun _ => pure status := rfl
  have hstatus : dependentStatus (owner.applied d cluster) =
      some (((cluster.stored? d.locator).map DependentStatus.ofObject).getD .empty) := by
    obtain ⟨data, hdata⟩ := Option.isSome_iff_exists.mp (owner.isSome_anyMeta_applied d cluster)
    rw [dependentStatus, hdata, Option.map_some, ofObject_applied]
  have hresult {wire : WireRequest} (hwire : (owner.applying d).wire? = some wire) :
      (cluster.answer collects wire).1.received dependentStatus =
        .ok (((cluster.stored? d.locator).map DependentStatus.ofObject).getD .empty) :=
    Reply.received_eq_ok_iff.mpr ⟨200, _, congrArg Prod.fst (answer_applying hwire), hstatus⟩
  rw [happly, Task.plays_bind_iff]
  constructor
  · rintro ⟨first, reported, middle, rest, rfl, hrequest, hrest⟩
    obtain ⟨_, rfl, hpure⟩ := Task.plays_record_bind_iff.mp hrest
    obtain ⟨rfl, heq, rfl⟩ := Task.plays_pure_iff.mp hpure
    cases heq
    obtain ⟨wire, hwire, rfl, rfl, hreceived⟩ :=
      Task.plays_request_iff.mp (Task.plays_within_iff.mp hrequest)
    rw [hresult hwire] at hreceived
    cases hreceived
    rw [answer_applying hwire]
    exact ⟨by rw [hwire]; rfl, rfl, rfl, rfl⟩
  · rintro ⟨hsome, rfl, rfl, rfl⟩
    obtain ⟨wire, hwire⟩ := Option.isSome_iff_exists.mp hsome
    have hrequest := Task.plays_request_iff.mpr ⟨wire, hwire, rfl, rfl, hresult hwire⟩
    rw [answer_applying hwire] at hrequest
    exact ⟨_, _, _, _, rfl, Task.plays_within_iff.mpr hrequest, Task.plays_record_bind_iff.mpr
      ⟨[], rfl, Task.plays_pure_iff.mpr ⟨rfl, rfl, rfl⟩⟩⟩

end SiteOwner

def Effect.application? : Effect → Option Request
  | .send (.apply object manager body) => some (.apply object manager body)
  | .send _ | .record _ => none

def applications (trace : List AnsweredEffect) : List Request :=
  trace.filterMap fun e => e.1.application?

theorem applications_append (first rest : List AnsweredEffect) :
    applications (first ++ rest) = applications first ++ applications rest :=
  List.filterMap_append

/-- Where no request applies anything, nothing is applied. -/
theorem applications_eq_nil {P : Request → Prop} {trace : List AnsweredEffect}
    (sends : OnlySends P trace)
    (h : ∀ request, P request → (Effect.send request).application? = none) :
    applications trace = [] := by
  refine List.filterMap_eq_nil_iff.mpr fun e he => ?_
  obtain ⟨effect, answer⟩ := e
  cases effect with
  | send request => exact h request (sends request answer he)
  | record measurement => rfl

namespace SiteNames

/-- The call is about a dependent at its place, and does not delete it. -/
def Tends (names : SiteNames) : DependentCall → Prop
  | .observe d | .apply d => names.Places d
  | .delete _ => False

def Readable (names : SiteNames) (cluster : Cluster) (kind : DependentKind) : Prop :=
  ∀ value, cluster.stored? (names.dependent kind) = some value →
    (Decoder.anyMeta value).isSome = true

theorem Readable.store {kind : DependentKind} {value : Json}
    (readable : names.Readable cluster kind)
    (hvalue : (Decoder.anyMeta value).isSome = true) :
    names.Readable (cluster.store d.locator.wirePath value) kind := by
  intro stored hstored
  rw [Cluster.stored?, Cluster.object?_store] at hstored
  split at hstored
  · cases hstored
    exact hvalue
  · exact readable stored hstored

theorem readable_store {value : Json} (places : names.Places d)
    (hvalue : (Decoder.anyMeta value).isSome = true) :
    names.Readable (cluster.store d.locator.wirePath value) d.kind := by
  intro stored hstored
  rw [Cluster.stored?, Cluster.object?_store, places, if_pos rfl] at hstored
  cases hstored
  exact hvalue

end SiteNames

namespace SiteOwner

variable {call : DependentCall} {answer : call.Answer}

def asking (owner : SiteOwner) : DependentCall → Request
  | .observe d => .get d.locator
  | .apply d => owner.applying d
  | .delete d => .delete d.locator

def application? (owner : SiteOwner) : DependentCall → Option Request
  | .apply d => some (owner.applying d)
  | .observe _ | .delete _ => none

/-- What a call that does not fail does in a cluster that answers it. What the dependents report
goes on as if each of them kept reporting the same, and the dependent of the call can be read from
then on. -/
structure Performs (owner : SiteOwner) (names : SiteNames) (cluster : Cluster)
    (call : DependentCall) (answer : call.Answer) (part : List AnsweredEffect) (last : Cluster) :
    Prop where
  keeps : Pass.keeping call (names.reported cluster) = (answer, names.reported last)
  sendable : (owner.asking call).wire?.isSome = true
  readable : names.Readable last call.dependent.kind
  remains : ∀ kind, names.Readable cluster kind → names.Readable last kind
  applies : applications part = (owner.application? call).toList

theorem performs_of_runs (tends : names.Tends call)
    (run : (owner.perform call).Runs part answer)
    (answered : AnsweredBy (Cluster.serve collects) cluster part last)
    (succeeds : call.error? answer = none) :
    owner.Performs names cluster call answer part last := by
  cases call with
  | delete d => cases tends
  | observe d =>
      cases answer with
      | error cause => cases succeeds
      | ok found =>
          obtain ⟨sendable, readable, rfl, rfl, rfl⟩ := plays_observe_iff.mp ⟨run, answered⟩
          have places : names.Places d := tends
          refine ⟨?_, sendable, ?_, fun _ h => h, rfl⟩
          · rw [Pass.keeping, places.get_reported]
          · intro value hvalue
            rw [DependentCall.dependent, ← places] at hvalue
            exact readable value hvalue
  | apply d =>
      cases answer with
      | error cause => cases succeeds
      | ok status =>
          obtain ⟨sendable, rfl, rfl, rfl⟩ := plays_apply_iff.mp ⟨run, answered⟩
          have places : names.Places d := tends
          have hread := owner.isSome_anyMeta_applied d cluster
          refine ⟨?_, sendable, names.readable_store places hread,
            fun kind h => h.store hread, rfl⟩
          rw [places.reported_store, ofObject_applied, Pass.keeping, places.get_reported]

/-- A call about a dependent that can be read is answered as if the dependent kept reporting the
same. -/
theorem exists_runs (collects : Bool) (tends : names.Tends call)
    (sendable : (owner.asking call).wire?.isSome = true)
    (readable : names.Readable cluster call.dependent.kind) :
    ∃ part last, (owner.perform call).Runs part (Pass.keeping call (names.reported cluster)).1 ∧
      AnsweredBy (Cluster.serve collects) cluster part last := by
  cases call with
  | delete d => cases tends
  | observe d =>
      have places : names.Places d := tends
      have hread (value : Json) (hvalue : cluster.stored? d.locator = some value) :
          (Decoder.anyMeta value).isSome = true := by
        rw [places] at hvalue
        exact readable value hvalue
      have plays : (observe d).Plays collects cluster _ _ _ :=
        plays_observe_iff.mpr ⟨sendable, hread, rfl, rfl, rfl⟩
      refine ⟨_, _, ?_, plays.answered⟩
      rw [Pass.keeping, places.get_reported]
      exact plays.runs
  | apply d =>
      have places : names.Places d := tends
      have plays : (owner.apply d).Plays collects cluster _ _ _ :=
        plays_apply_iff.mpr ⟨sendable, rfl, rfl, rfl⟩
      refine ⟨_, _, ?_, plays.answered⟩
      rw [Pass.keeping, places.get_reported]
      exact plays.runs

variable {made : List Pass.AnsweredCall} {events : List AnsweredEffect} {known : Observed}

structure PerformsAll (owner : SiteOwner) (names : SiteNames) (cluster : Cluster)
    (made : List Pass.AnsweredCall) (events : List AnsweredEffect) (last : Cluster) : Prop where
  keeps : AnsweredBy Pass.keeping (names.reported cluster) made (names.reported last)
  sendable : ∀ call ∈ Pass.calls made, (owner.asking call).wire?.isSome = true
  readable : ∀ call ∈ Pass.calls made, names.Readable last call.dependent.kind
  remains : ∀ kind, names.Readable cluster kind → names.Readable last kind
  applies : applications events = (Pass.calls made).filterMap owner.application?

theorem performsAll_of_performed (performed : Dialogue.Performed owner.perform made events)
    (tends : ∀ call ∈ Pass.calls made, names.Tends call)
    (answered : AnsweredBy (Cluster.serve collects) cluster events last)
    (succeeds : ∀ e ∈ made, Pass.failure? e = none) :
    owner.PerformsAll names cluster made events last := by
  induction performed generalizing cluster with
  | nil =>
      cases answered
      exact ⟨.nil, nofun, nofun, fun _ h => h, rfl⟩
  | @cons call answer made first rest run _ ih =>
      obtain ⟨middle, hfirst, hrest⟩ := answered.of_append
      obtain ⟨hcall, hcalls⟩ := List.forall_mem_cons.mp tends
      obtain ⟨hsucceeds, hlater⟩ := List.forall_mem_cons.mp succeeds
      have performs := performs_of_runs hcall run hfirst hsucceeds
      have later := ih hcalls hrest hlater
      have keeps : AnsweredBy Pass.keeping (names.reported cluster)
          (⟨call, (Pass.keeping call (names.reported cluster)).1⟩ :: made) (names.reported last) :=
        .cons (by rw [performs.keeps]; exact later.keeps)
      rw [performs.keeps] at keeps
      refine ⟨keeps, List.forall_mem_cons.mpr ⟨performs.sendable, later.sendable⟩,
        List.forall_mem_cons.mpr ⟨later.remains _ performs.readable, later.readable⟩,
        fun kind h => later.remains kind (performs.remains kind h), ?_⟩
      rw [applications_append, performs.applies, later.applies, Pass.calls_cons,
        List.filterMap_cons]
      cases owner.application? call <;> rfl

/-- Calls that are answered as if each dependent kept reporting the same can be performed in a
cluster in which every dependent can be read. -/
theorem exists_performed (collects : Bool)
    (answered : AnsweredBy Pass.keeping (names.reported cluster) made known)
    (tends : ∀ call ∈ Pass.calls made, names.Tends call)
    (sendable : ∀ call ∈ Pass.calls made, (owner.asking call).wire?.isSome = true)
    (readable : ∀ call ∈ Pass.calls made, names.Readable cluster call.dependent.kind) :
    ∃ events last, Dialogue.Performed owner.perform made events ∧
      AnsweredBy (Cluster.serve collects) cluster events last := by
  generalize hstate : names.reported cluster = state at answered
  induction answered generalizing cluster with
  | nil => exact ⟨[], cluster, .nil, .nil⟩
  | @cons call state known made _ ih =>
      subst hstate
      obtain ⟨hcall, hcalls⟩ := List.forall_mem_cons.mp tends
      obtain ⟨hsendable, hsendables⟩ := List.forall_mem_cons.mp sendable
      obtain ⟨hreadable, hreadables⟩ := List.forall_mem_cons.mp readable
      obtain ⟨part, middle, run, hpart⟩ := exists_runs collects hcall hsendable hreadable
      have succeeds : call.error? (Pass.keeping call (names.reported cluster)).1 = none := by
        cases call <;> rfl
      have performs := performs_of_runs hcall run hpart succeeds
      obtain ⟨events, last, performed, hevents⟩ := ih hcalls hsendables
        (fun other hother => performs.remains _ (hreadables other hother))
        (congrArg Prod.snd performs.keeps).symm
      exact ⟨part ++ events, last, .cons run performed, hpart.append hevents⟩

/-- Calls that tend to dependents read and apply, and do nothing else. -/
theorem performed_reads_or_applies (performed : Dialogue.Performed owner.perform made events)
    (tends : ∀ call ∈ Pass.calls made, names.Tends call) :
    OnlySends (fun request => request.isRead = true ∨
      ∃ object manager body, request = .apply object manager body) events := by
  refine performed_onlySends performed fun call hcall request h => ?_
  cases call with
  | delete d => cases tends _ hcall
  | observe d =>
      obtain rfl := List.mem_singleton.mp h
      exact Or.inl rfl
  | apply d =>
      obtain rfl := List.mem_singleton.mp h
      exact Or.inr ⟨_, _, _, rfl⟩

end SiteOwner

end SiteOperator
