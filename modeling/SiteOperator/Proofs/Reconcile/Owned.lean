import SiteOperator.Proofs.Cluster.Paths
import SiteOperator.Proofs.Cluster.Tasks
import SiteOperator.Proofs.Pass.Finalize
import SiteOperator.Reconcile.Site

/-!
# How a reconcile acts on the objects of a site

An attempt to delete an object reads the object first, and goes on only if the object is owned and
not going already (`DeleteCheck`). The calls of a pass become the requests of the task one after the
other, so what all effects of the calls have in common is common to all effects of the pass
(`Performed.always`).

`Request.Fails` says of an answer that the operator cannot use it.
-/

namespace SiteOperator

/-- How the operator reads the objects of a type, as far as their metadata goes. -/
def ResourceType.reader (type : ResourceType) : Decoder ObjectMeta :=
  if type = Site.resourceType then fun body => (Site.decode body).map Site.metadata
  else if type = Template.resourceType then fun body => (Template.decode body).map Template.metadata
  else if type = namespaces then Decoder.typedMeta namespaces Shape.namespaces
  else if type = networkPolicies then Decoder.typedMeta networkPolicies Shape.networkPolicy
  else Decoder.anyMeta

theorem DependentKind.reader_resourceType (kind : DependentKind) :
    kind.resourceType.reader = Decoder.anyMeta := by
  cases kind <;> rfl

namespace Request

/-- The operator cannot use the answer to a request: the API has refused the request, or the answer
cannot be read. It is no failure that an object is not there if it is only looked for or should
go. -/
def Fails (request : Request) (reply : Reply) : Prop :=
  match request with
  | get object => (reply.found object.type.reader).isOk = false
  | delete object => (reply.removed object.type.reader).isOk = false
  | create object _ | apply object _ _ | patch object _ | patchStatus object _ =>
      (reply.received object.type.reader).isOk = false

/-- A request that creates, applies or deletes an object. -/
def Alters : Request → Prop
  | create _ _ | apply _ _ _ | delete _ => True
  | get _ | patch _ _ | patchStatus _ _ => False

theorem isSome_wire?_delete (object : Locator) :
    (delete object).wire?.isSome = (get object).wire?.isSome := by
  by_cases h : object.name = "" <;> simp [wire?, Request.object, onWire?, h]

end Request

namespace Reply

variable {α β : Type} {read : Decoder α} {reader : Decoder β} {reply : Reply}

theorem isOk_found_congr (same : ∀ body, (read body).isSome = (reader body).isSome) :
    (reply.found read).isOk = (reply.found reader).isOk := by
  cases reply with
  | failure status =>
      simp only [found]
      split <;> rfl
  | success code body =>
      cases body with
      | none => rfl
      | some body =>
          have hbody := same body
          cases hread : read body <;> cases hreader : reader body <;>
            simp_all [found, Except.isOk, Except.toBool]

theorem isOk_received_congr (same : ∀ body, (read body).isSome = (reader body).isSome) :
    (reply.received read).isOk = (reply.received reader).isOk := by
  cases reply with
  | failure status => rfl
  | success code body =>
      cases body with
      | none => rfl
      | some body =>
          have hbody := same body
          cases hread : read body <;> cases hreader : reader body <;>
            simp_all [received, Except.isOk, Except.toBool]

end Reply

/-- An object is looked for, and deleted if it is there, if it is owned and if it is not going
already. -/
inductive DeleteCheck (object : Locator) (kind uid : String) (read : Decoder ObjectMeta) :
    List AnsweredEffect → Except Raised DeleteOutcome → Prop where
  | unsent (h : (Request.get object).wire? = none) :
      DeleteCheck object kind uid read [] (.error (.ofFault (.api none)))
  | unread {reply : Reply} {error : Raised} (h : reply.found read = .error error) :
      DeleteCheck object kind uid read [sent (.get object) reply] (.error error)
  | absent {reply : Reply} (h : reply.found read = .ok none) :
      DeleteCheck object kind uid read [sent (.get object) reply] (.ok .notFound)
  | kept {reply : Reply} {data : ObjectMeta} {outcome : DeleteOutcome}
      (h : reply.found read = .ok (some data)) (refused : data.deleteRefusal? uid = some outcome) :
      DeleteCheck object kind uid read [sent (.get object) reply] (.ok outcome)
  | failed {reply answer : Reply} {data : ObjectMeta} {error : Raised}
      (h : reply.found read = .ok (some data)) (allowed : data.deleteRefusal? uid = none)
      (refused : answer.removed read = .error error) :
      DeleteCheck object kind uid read [sent (.get object) reply, sent (.delete object) answer]
        (.error (error.within ("failed to delete " ++ kind ++ " " ++ object.name)))
  | removed {reply answer : Reply} {data : ObjectMeta} {found : Bool}
      (h : reply.found read = .ok (some data)) (allowed : data.deleteRefusal? uid = none)
      (removed : answer.removed read = .ok found) :
      DeleteCheck object kind uid read [sent (.get object) reply, sent (.delete object) answer]
        (.ok (if found then .deleted else .notFound))

namespace Task

variable {object : Locator} {kind uid context : String} {read : Decoder ObjectMeta}
  {trace : List AnsweredEffect} {result : Except Raised DeleteOutcome}

/-- An object that could be asked for can be deleted, and the answer decides what comes of it. -/
theorem runs_remove_of_get (sendable : (Request.get object).wire?.isSome = true)
    (run : (within context (remove object read) >>= fun found =>
      pure (if found then DeleteOutcome.deleted else .notFound)).Runs trace result) :
    ∃ answer, trace = [sent (.delete object) answer] ∧
      ((∃ error, answer.removed read = .error error ∧ result = .error (error.within context)) ∨
        ∃ found, answer.removed read = .ok found ∧
          result = .ok (if found then .deleted else .notFound)) := by
  have removal : ∀ {trace removed}, (remove object read).Runs trace removed →
      ∃ answer, trace = [sent (.delete object) answer] ∧ removed = answer.removed read := by
    intro trace removed hremove
    rcases runs_remove_iff.mp hremove with ⟨hnone, -⟩ | ⟨-, exchange⟩
    · rw [← Request.isSome_wire?_delete, hnone] at sendable
      cases sendable
    · exact exchange
  rcases runs_bind_iff.mp run with ⟨error, hfirst, rfl⟩ | ⟨first, found, last, rfl, hfirst, hlast⟩
  · obtain ⟨removed, hremove, hresult⟩ := runs_within_iff.mp hfirst
    obtain ⟨answer, rfl, rfl⟩ := removal hremove
    refine ⟨answer, rfl, Or.inl ?_⟩
    cases hanswer : answer.removed read with
    | ok found =>
        rw [hanswer] at hresult
        cases hresult
    | error cause =>
        rw [hanswer] at hresult
        cases hresult
        exact ⟨cause, rfl, rfl⟩
  · obtain ⟨rfl, rfl⟩ := runs_pure_iff.mp hlast
    obtain ⟨removed, hremove, hresult⟩ := runs_within_iff.mp hfirst
    obtain ⟨answer, rfl, rfl⟩ := removal hremove
    refine ⟨answer, List.append_nil _, Or.inr ?_⟩
    cases hanswer : answer.removed read with
    | error cause =>
        rw [hanswer] at hresult
        cases hresult
    | ok there =>
        rw [hanswer] at hresult
        cases hresult
        exact ⟨found, rfl, rfl⟩

theorem runs_deleteOwned (run : (deleteOwned object kind uid read).Runs trace result) :
    DeleteCheck object kind uid read trace result := by
  rcases runs_bind_iff.mp run with ⟨error, hfind, rfl⟩ | ⟨first, found, rest, rfl, hfind, hrest⟩
  · rcases runs_find?_iff.mp hfind with ⟨hwire, rfl, heq⟩ | ⟨-, reply, rfl, heq⟩
    · cases heq
      exact .unsent hwire
    · exact .unread heq.symm
  · rcases runs_find?_iff.mp hfind with ⟨-, -, heq⟩ | ⟨hwire, reply, rfl, heq⟩
    · cases heq
    · cases found with
      | none =>
          obtain ⟨rfl, rfl⟩ := runs_pure_iff.mp hrest
          exact .absent heq.symm
      | some data =>
          cases hrefused : data.deleteRefusal? uid with
          | some outcome =>
              simp only [hrefused] at hrest
              obtain ⟨rfl, rfl⟩ := runs_pure_iff.mp hrest
              exact .kept heq.symm hrefused
          | none =>
              simp only [hrefused] at hrest
              obtain ⟨answer, rfl, ⟨error, hremoved, rfl⟩ | ⟨there, hremoved, rfl⟩⟩ :=
                runs_remove_of_get hwire hrest
              · exact .failed heq.symm hrefused hremoved
              · exact .removed heq.symm hrefused hremoved

theorem Always.createMissing {P : List AnsweredEffect → Prop} (chains : Chains P)
    {shapes : List (String × Shape)} {body : Json} (reads : ∀ reply, P [sent (.get object) reply])
    (creates : ∀ reply, P [sent (.create object body) reply]) :
    Always P (createMissing object shapes body) := by
  refine .bind chains (.find? chains reads) fun found => ?_
  cases found with
  | some _ => exact .pure chains _
  | none => exact .bind chains (.within (.request chains creates)) fun _ => .pure chains _

end Task

namespace DeleteCheck

variable {object : Locator} {kind uid : String} {read : Decoder ObjectMeta}
  {trace : List AnsweredEffect} {result : Except Raised DeleteOutcome}

/-- A check sends nothing but requests that read or delete the object. -/
theorem onlySends (check : DeleteCheck object kind uid read trace result) :
    OnlySends (fun request => request = .get object ∨ request = .delete object) trace := by
  intro request reply hmem
  cases check with
  | unsent => cases hmem
  | unread | absent | kept =>
      obtain ⟨rfl, -⟩ := sent_inj (List.mem_singleton.mp hmem)
      exact Or.inl rfl
  | failed | removed =>
      rcases List.mem_cons.mp hmem with heq | hmem
      · obtain ⟨rfl, -⟩ := sent_inj heq
        exact Or.inl rfl
      · obtain ⟨rfl, -⟩ := sent_inj (List.mem_singleton.mp hmem)
        exact Or.inr rfl

/-- In a check that comes to an outcome no request fails. -/
theorem succeeds {outcome : DeleteOutcome} (hread : read = object.type.reader)
    (check : DeleteCheck object kind uid read trace (.ok outcome)) (request : Request)
    (reply : Reply) (hmem : sent request reply ∈ trace) : ¬ request.Fails reply := by
  subst hread
  have reads {reply : Reply} {found : Option ObjectMeta}
      (h : reply.found object.type.reader = .ok found) : ¬ (Request.get object).Fails reply := by
    simp [Request.Fails, h, Except.isOk, Except.toBool]
  cases check with
  | absent h | kept h =>
      obtain ⟨rfl, rfl⟩ := sent_inj (List.mem_singleton.mp hmem)
      exact reads h
  | removed h _ removed =>
      rcases List.mem_cons.mp hmem with heq | hmem
      · obtain ⟨rfl, rfl⟩ := sent_inj heq
        exact reads h
      · obtain ⟨rfl, rfl⟩ := sent_inj (List.mem_singleton.mp hmem)
        simp [Request.Fails, removed, Except.isOk, Except.toBool]

end DeleteCheck

/-- Each of the dependents was looked for, and nothing of it is left to wait for. -/
inductive GoneChecks (uid : String) : List DependentSpec → List AnsweredEffect → Prop where
  | nil : GoneChecks uid [] []
  | cons {d : DependentSpec} {deps : List DependentSpec} {first rest : List AnsweredEffect}
      {outcome : DeleteOutcome}
      (check : DeleteCheck d.locator d.kind.name uid Decoder.anyMeta first (.ok outcome))
      (gone : outcome = .notFound ∨ outcome = .notOwned) (checks : GoneChecks uid deps rest) :
      GoneChecks uid (d :: deps) (first ++ rest)

namespace GoneChecks

variable {uid : String} {deps : List DependentSpec} {trace : List AnsweredEffect}

theorem onlySends (checks : GoneChecks uid deps trace) :
    OnlySends (fun request => ∃ d ∈ deps, request = .get d.locator ∨ request = .delete d.locator)
      trace := by
  induction checks with
  | nil => exact (OnlySends.chains _).nil
  | cons check _ _ ih =>
      refine (OnlySends.chains _).append (check.onlySends.mono fun request h => ?_)
        (ih.mono fun request h => ?_)
      · exact ⟨_, List.mem_cons_self, h⟩
      · obtain ⟨d, hd, h⟩ := h
        exact ⟨d, List.mem_cons_of_mem _ hd, h⟩

theorem succeeds (checks : GoneChecks uid deps trace) (request : Request) (reply : Reply)
    (hmem : sent request reply ∈ trace) : ¬ request.Fails reply := by
  induction checks with
  | nil => cases hmem
  | @cons d _ _ _ _ check _ _ ih =>
      rcases List.mem_append.mp hmem with hmem | hmem
      · exact check.succeeds d.kind.reader_resourceType.symm request reply hmem
      · exact ih hmem

end GoneChecks

namespace SiteOwner

variable {owner : SiteOwner} {trace : List AnsweredEffect}

/-- Deleting a dependent checks it and records that it has been deleted. -/
theorem runs_delete {d : DependentSpec} {result : Except Raised DeleteOutcome}
    (run : (owner.delete d).Runs trace result) :
    ∃ check, DeleteCheck d.locator d.kind.name owner.reference.uid Decoder.anyMeta check result ∧
      (trace = check ∨
        result = .ok .deleted ∧ trace = check ++ [recorded (.deleted d.kind.name)]) := by
  rcases Task.runs_bind_iff.mp run with
    ⟨error, hcheck, rfl⟩ | ⟨check, outcome, rest, rfl, hcheck, hrest⟩
  · exact ⟨trace, Task.runs_deleteOwned hcheck, Or.inl rfl⟩
  · by_cases hdeleted : outcome = .deleted
    · rw [if_pos hdeleted] at hrest
      obtain ⟨last, rfl, hlast⟩ := Task.runs_record_bind_iff.mp hrest
      obtain ⟨rfl, rfl⟩ := Task.runs_pure_iff.mp hlast
      exact ⟨check, Task.runs_deleteOwned hcheck, Or.inr ⟨by rw [hdeleted], rfl⟩⟩
    · rw [if_neg hdeleted] at hrest
      obtain ⟨rfl, rfl⟩ := Task.runs_pure_iff.mp hrest
      exact ⟨check, Task.runs_deleteOwned hcheck, Or.inl (List.append_nil _)⟩

/-- The effects of a pass are those of its calls, one after the other. -/
theorem runs_runPass {pass : PassProgram PassResult}
    {result : Except Raised (Progress × StatusDraft)}
    (run : (owner.runPass pass).Runs trace result) :
    ∃ made ended, pass.Runs made ended ∧ Dialogue.Performed owner.perform made trace ∧
      result = ended.outcome.map fun progress => (progress, ended.draft) := by
  obtain ⟨first, ended, rest, rfl, hpass, hrest⟩ := Dialogue.runs_bind_iff.mp run
  obtain ⟨rfl, rfl⟩ := Dialogue.runs_done_iff.mp hrest
  obtain ⟨made, hmade, performed⟩ := Dialogue.runs_translate hpass
  refine ⟨made, ended, hmade, by rwa [List.append_nil], ?_⟩
  cases ended.outcome <;> rfl

/-- What follows a pass follows its effects, unless the pass has failed. -/
theorem runs_runPass_bind {α : Type} {pass : PassProgram PassResult}
    {next : Progress × StatusDraft → Task α} {result : Except Raised α}
    (run : (owner.runPass pass >>= next).Runs trace result) :
    ∃ events rest made ended, trace = events ++ rest ∧ pass.Runs made ended ∧
      Dialogue.Performed owner.perform made events ∧
      ((∃ error, ended.outcome = .error error ∧ rest = [] ∧ result = .error error) ∨
        ∃ progress, ended.outcome = .ok progress ∧
          (next (progress, ended.draft)).Runs rest result) := by
  rcases Task.runs_bind_iff.mp run with
    ⟨error, hpass, rfl⟩ | ⟨events, ⟨progress, draft⟩, rest, rfl, hpass, hrest⟩
  · obtain ⟨made, ended, hmade, performed, heq⟩ := runs_runPass hpass
    refine ⟨trace, [], made, ended, (List.append_nil _).symm, hmade, performed, Or.inl ?_⟩
    cases houtcome : ended.outcome with
    | ok progress => simp [houtcome, Except.map] at heq
    | error cause =>
        simp only [houtcome, Except.map, Except.error.injEq] at heq
        exact ⟨cause, rfl, rfl, by rw [heq]⟩
  · obtain ⟨made, ended, hmade, performed, heq⟩ := runs_runPass hpass
    refine ⟨events, rest, made, ended, rfl, hmade, performed, Or.inr ?_⟩
    cases houtcome : ended.outcome with
    | error cause => simp [houtcome, Except.map] at heq
    | ok reached =>
        simp only [houtcome, Except.map, Except.ok.injEq, Prod.mk.injEq] at heq
        exact ⟨reached, rfl, heq.1 ▸ heq.2 ▸ hrest⟩

/-- A pass that deletes dependents, none of which is left to wait for, checks each of them. -/
theorem goneChecks_of_performed {deps : List DependentSpec} {made : List Pass.AnsweredCall}
    (performed : Dialogue.Performed owner.perform made trace)
    (hcalls : Pass.calls made = deps.map .delete)
    (gone : ∀ e ∈ made, Pass.failure? e = none ∧ ¬ Pass.Pending e) :
    GoneChecks owner.reference.uid deps trace := by
  induction deps generalizing made trace with
  | nil =>
      obtain rfl : made = [] := List.map_eq_nil_iff.mp hcalls
      cases performed
      exact .nil
  | cons d deps ih =>
      cases performed with
      | nil => cases hcalls
      | @cons call answer made first rest run performed =>
          obtain ⟨rfl, hrest⟩ := List.cons.inj hcalls
          obtain ⟨⟨hnone, hpending⟩, later⟩ := List.forall_mem_cons.mp gone
          obtain ⟨outcome, heq⟩ := Pass.exists_eq_deleted rfl hnone
          cases heq
          have hgone : outcome = .notFound ∨ outcome = .notOwned :=
            DeleteOutcome.isPending_eq_false_iff.mp
              (Bool.eq_false_iff.mpr fun h => hpending (Pass.pending_deleted_iff.mpr h))
          obtain ⟨check, hcheck, rfl | ⟨hdeleted, -⟩⟩ := runs_delete run
          · exact .cons hcheck hgone (ih performed hrest later)
          · cases hdeleted
            simp at hgone

def requests (owner : SiteOwner) : DependentCall → List Request
  | .observe d => [.get d.locator]
  | .apply d => [.apply d.locator owner.manager (d.object owner.reference owner.labels)]
  | .delete d => [.get d.locator, .delete d.locator]

theorem mem_requests_delete_iff {d : DependentSpec} {request : Request} :
    request ∈ owner.requests (.delete d) ↔
      request = .get d.locator ∨ request = .delete d.locator := by
  simp [requests]

theorem perform_onlySends {call : DependentCall} {answer : call.Answer}
    (run : (owner.perform call).Runs trace answer) :
    OnlySends (· ∈ owner.requests call) trace := by
  have chains := OnlySends.chains (· ∈ owner.requests call)
  cases call with
  | observe d =>
      have sends : Task.Always (OnlySends (· ∈ owner.requests (.observe d))) (observe d) :=
        .find? chains fun reply => OnlySends.sent List.mem_cons_self reply
      exact sends _ _ run
  | apply d =>
      have sends : Task.Always (OnlySends (· ∈ owner.requests (.apply d))) (owner.apply d) :=
        .bind chains (.within (.request chains fun reply =>
          OnlySends.sent List.mem_cons_self reply)) fun _ =>
            .bind chains (.record OnlySends.recorded _) fun _ => .pure chains _
      exact sends _ _ run
  | delete d =>
      obtain ⟨check, hcheck, htrace⟩ := runs_delete run
      have sends : OnlySends (· ∈ owner.requests (.delete d)) check :=
        hcheck.onlySends.mono fun request h => mem_requests_delete_iff.mpr h
      rcases htrace with rfl | ⟨-, rfl⟩
      · exact sends
      · exact chains.append sends (OnlySends.recorded _)

/-- Calls send nothing but the requests that they are made of. -/
theorem performed_onlySends {P : Request → Prop} {made : List Pass.AnsweredCall}
    (performed : Dialogue.Performed owner.perform made trace)
    (h : ∀ call ∈ Pass.calls made, ∀ request ∈ owner.requests call, P request) :
    OnlySends P trace := by
  induction performed with
  | nil => exact (OnlySends.chains P).nil
  | cons run _ ih =>
      refine (OnlySends.chains P).append ((perform_onlySends run).mono (h _ List.mem_cons_self))
        (ih ?_)
      exact fun call hcall => h call (List.mem_cons_of_mem _ hcall)

end SiteOwner

end SiteOperator
