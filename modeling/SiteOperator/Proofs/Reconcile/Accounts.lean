import SiteOperator.Proofs.Reconcile.Requests

/-!
# Failures that the API accounts for

A task that talks to the API and checks nothing of its own has a result only if no request of it has
failed, and fails only if one has: one that was sent, or one that cannot be sent (`Task.Accounts`).
Its error is then one of the API, whatever context it has gathered on its way. A task accounts for
its failures if its parts do. So do the calls of a pass, and with them the pass
(`Site.accounts_runPass`).
-/

namespace SiteOperator

/-- The API has refused a request, or its answer was of no use. -/
def Raised.ByApi (error : Raised) : Prop := ∃ code, error.cause = .fault (.api code)

namespace Raised.ByApi

variable {error : Raised}

theorem ofFault (code : Option Nat) : (Raised.ofFault (.api code)).ByApi := ⟨code, rfl⟩

theorem within (h : error.ByApi) (context : String) : (error.within context).ByApi := h

theorem reason (h : error.ByApi) : error.classify.reason = "KubeApiError" := by
  obtain ⟨code, hcause⟩ := h
  rw [Raised.classify, hcause]
  rfl

end Raised.ByApi

namespace Reply

variable {α : Type} {read : Decoder α} {reply : Reply} {error : Raised}

theorem byApi_of_received (h : reply.received read = .error error) : error.ByApi := by
  cases reply with
  | failure status =>
      cases h
      exact .ofFault _
  | success code body =>
      simp only [received] at h
      split at h
      · cases h
      · cases h
        exact .ofFault _

theorem byApi_of_found (h : reply.found read = .error error) : error.ByApi := by
  cases reply with
  | failure status =>
      simp only [found] at h
      split at h
      · cases h
      · cases h
        exact .ofFault _
  | success code body =>
      simp only [found] at h
      split at h
      · cases h
      · cases h
        exact .ofFault _

theorem byApi_of_removed (h : reply.removed read = .error error) : error.ByApi := by
  cases reply with
  | failure status =>
      simp only [removed] at h
      split at h
      · cases h
      · cases h
        exact .ofFault _
  | success code body =>
      simp only [removed] at h
      split at h
      · cases h
      · cases h
        exact .ofFault _

end Reply

def AllSucceed (trace : List AnsweredEffect) : Prop :=
  ∀ request reply, sent request reply ∈ trace → ¬ request.Fails reply

namespace AllSucceed

variable {first rest : List AnsweredEffect} {request : Request} {reply : Reply}

theorem chains : Chains AllSucceed where
  nil := fun _ _ hmem => absurd hmem List.not_mem_nil
  append hfirst hrest := fun request reply hmem =>
    (List.mem_append.mp hmem).elim (hfirst request reply) (hrest request reply)

theorem sent (h : ¬ request.Fails reply) : AllSucceed [sent request reply] := by
  intro other answer hmem
  obtain ⟨rfl, rfl⟩ := sent_inj (List.mem_singleton.mp hmem)
  exact h

theorem recorded (measurement : Measurement) : AllSucceed [recorded measurement] := by
  intro request reply hmem
  exact absurd (List.mem_singleton.mp hmem) sent_ne_recorded

end AllSucceed

/-- A request of the trace has failed, or one of these requests cannot be sent. -/
def Blames (due : Request → Prop) (trace : List AnsweredEffect) : Prop :=
  (∃ request reply, sent request reply ∈ trace ∧ request.Fails reply) ∨
    ∃ request, due request ∧ request.wire? = none

namespace Blames

variable {due : Request → Prop} {part trace : List AnsweredEffect} {request : Request}
  {reply : Reply}

theorem sent (h : request.Fails reply) (hmem : sent request reply ∈ trace) : Blames due trace :=
  Or.inl ⟨request, reply, hmem, h⟩

theorem unsendable (h : request.wire? = none) (hdue : due request) : Blames due trace :=
  Or.inr ⟨request, hdue, h⟩

theorem mono {later : Request → Prop} (h : Blames due part) (hsub : part ⊆ trace)
    (himp : ∀ request, due request → later request) : Blames later trace := by
  rcases h with ⟨request, reply, hmem, fails⟩ | ⟨request, hdue, hwire⟩
  · exact .sent fails (hsub hmem)
  · exact .unsendable hwire (himp request hdue)

end Blames

namespace Task

variable {α β : Type}

def Strict (task : Task α) : Prop := ∀ trace x, task.Runs trace (.ok x) → AllSucceed trace

namespace Strict

theorem ofExcept (x : Except Fault α) : Strict (Task.ofExcept x) := by
  intro trace y run
  obtain ⟨rfl, -⟩ := runs_ofExcept_iff.mp run
  exact AllSucceed.chains.nil

theorem bind {task : Task α} {f : α → Task β} (first : Strict task) (next : ∀ x, Strict (f x)) :
    Strict (task >>= f) := by
  intro trace y run
  rcases runs_bind_iff.mp run with ⟨error, -, heq⟩ | ⟨made, x, rest, rfl, hmade, hrest⟩
  · cases heq
  · exact AllSucceed.chains.append (first _ _ hmade) (next x _ _ hrest)

end Strict

/-- The task has a result only if no request of it has failed, and it fails only if one has, with an
error of the API. -/
structure Accounts (due : Request → Prop) (task : Task α) : Prop where
  strict : Strict task
  blames : ∀ trace error, task.Runs trace (.error error) → error.ByApi ∧ Blames due trace

namespace Accounts

variable {due : Request → Prop}

theorem pure (x : α) : Accounts due (Pure.pure x : Task α) where
  strict := Strict.ofExcept (.ok x)
  blames := fun _ _ run => nomatch (runs_pure_iff.mp run).2

theorem bind {task : Task α} {f : α → Task β} (first : Accounts due task)
    (next : ∀ x, Accounts due (f x)) : Accounts due (task >>= f) where
  strict := first.strict.bind fun x => (next x).strict
  blames := by
    intro trace error run
    rcases runs_bind_iff.mp run with ⟨cause, hrun, heq⟩ | ⟨made, x, rest, rfl, -, hrest⟩
    · cases heq
      exact first.blames _ _ hrun
    · obtain ⟨byApi, blames⟩ := (next x).blames _ _ hrest
      exact ⟨byApi, blames.mono (List.subset_append_right _ _) fun _ => id⟩

theorem mono {later : Request → Prop} {task : Task α} (h : Accounts due task)
    (himp : ∀ request, due request → later request) : Accounts later task where
  strict := h.strict
  blames := fun _ _ run => (h.blames _ _ run).imp_right fun blames =>
    blames.mono (List.Subset.refl _) himp

theorem within {context : String} {task : Task α} (h : Accounts due task) :
    Accounts due (Task.within context task) where
  strict := by
    intro trace y run
    obtain ⟨inner, hrun, heq⟩ := runs_within_iff.mp run
    cases inner with
    | error cause => cases heq
    | ok x => exact h.strict _ x hrun
  blames := by
    intro trace error run
    obtain ⟨inner, hrun, heq⟩ := runs_within_iff.mp run
    cases inner with
    | ok x => cases heq
    | error cause =>
        cases heq
        exact (h.blames _ _ hrun).imp_left fun byApi => byApi.within context

theorem record (measurement : Measurement) : Accounts due (Task.record measurement) where
  strict := by
    intro trace y run
    obtain ⟨rfl, -⟩ := runs_record_iff.mp run
    exact AllSucceed.recorded measurement
  blames := fun _ _ run => nomatch (runs_record_iff.mp run).2

theorem of_exchanges {task : Task α} {request : Request} {understand : Reply → Except Raised α}
    (hruns : ∀ trace result, task.Runs trace result → Exchanges request understand trace result)
    (hdue : due request)
    (understood : ∀ reply, request.Fails reply ↔ (understand reply).isOk = false)
    (byApi : ∀ reply error, understand reply = .error error → error.ByApi) :
    Accounts due task where
  strict := by
    intro trace y run
    rcases hruns _ _ run with ⟨-, -, heq⟩ | ⟨-, reply, rfl, heq⟩
    · cases heq
    · refine AllSucceed.sent fun fails => ?_
      rw [understood, ← heq] at fails
      cases fails
  blames := by
    intro trace error run
    rcases hruns _ _ run with ⟨hwire, -, heq⟩ | ⟨-, reply, rfl, heq⟩
    · cases heq
      exact ⟨.ofFault none, .unsendable hwire hdue⟩
    · refine ⟨byApi reply error heq.symm, .sent ?_ List.mem_cons_self⟩
      rw [understood, ← heq]
      rfl

theorem find? {object : Locator} {read : Decoder α} (hdue : due (.get object))
    (same : ∀ body, (read body).isSome = (object.type.reader body).isSome) :
    Accounts due (Task.find? object read) :=
  of_exchanges (fun _ _ => runs_find?_iff.mp) hdue
    (fun _ => by rw [Request.Fails, Reply.isOk_found_congr same]) fun _ _ => Reply.byApi_of_found

theorem request {request : Request} {read : Decoder α} (hdue : due request)
    (understood : ∀ reply, request.Fails reply ↔ (reply.received read).isOk = false) :
    Accounts due (Task.request request read) :=
  of_exchanges (fun _ _ => runs_request_iff.mp) hdue understood fun _ _ => Reply.byApi_of_received

theorem requestIf {needed : Bool} {request : Request} {read : Decoder α}
    (hdue : needed = true → due request)
    (understood : ∀ reply, request.Fails reply ↔ (reply.received read).isOk = false) :
    Accounts due (Task.requestIf needed request read) := by
  cases needed with
  | false => exact .pure ()
  | true => exact .bind (.request (hdue rfl) understood) fun _ => .pure ()

theorem createMissing {object : Locator} {shapes : List (String × Shape)} {body : Json}
    (reads : due (.get object)) (creates : due (.create object body))
    (hread : object.type.reader = Decoder.typedMeta object.type shapes) :
    Accounts due (Task.createMissing object shapes body) := by
  refine .bind (.find? reads fun _ => by rw [hread]) fun found => ?_
  cases found with
  | some _ => exact .pure _
  | none =>
      refine .bind (.within (.request creates fun reply => ?_)) fun _ => .pure _
      rw [Request.Fails, hread]

theorem deleteOwned {object : Locator} {kind uid : String} {read : Decoder ObjectMeta}
    (reads : due (.get object)) (hread : read = object.type.reader) :
    Accounts due (Task.deleteOwned object kind uid read) where
  strict := fun _ _ run => (runs_deleteOwned run).succeeds hread
  blames := by
    intro trace error run
    subst hread
    generalize hresult : Except.error error = result at run
    cases runs_deleteOwned run with
    | unsent hwire =>
        cases hresult
        exact ⟨.ofFault none, .unsendable hwire reads⟩
    | unread hfound =>
        cases hresult
        refine ⟨Reply.byApi_of_found hfound, .sent ?_ List.mem_cons_self⟩
        simp [Request.Fails, hfound, Except.isOk, Except.toBool]
    | absent | kept | removed => cases hresult
    | failed _ _ refused =>
        cases hresult
        refine ⟨(Reply.byApi_of_removed refused).within _,
          .sent ?_ (List.mem_cons_of_mem _ List.mem_cons_self)⟩
        simp [Request.Fails, refused, Except.isOk, Except.toBool]

end Accounts

end Task

theorem Dialogue.Performed.exists_runs {Q R : Type} {A : Q → Type} {B : R → Type}
    {perform : (q : Q) → Dialogue R B (A q)} {made : List (Answered Q A)}
    {events : List (Answered R B)} (performed : Performed perform made events) {e : Answered Q A}
    (he : e ∈ made) : ∃ part, (perform e.1).Runs part e.2 ∧ part ⊆ events := by
  induction performed with
  | nil => cases he
  | cons run _ ih =>
      rcases List.mem_cons.mp he with rfl | he
      · exact ⟨_, run, List.subset_append_left _ _⟩
      · obtain ⟨part, hpart, hsub⟩ := ih he
        exact ⟨part, hpart, List.Subset.trans hsub (List.subset_append_right _ _)⟩

namespace SiteOwner

variable {due : Request → Prop} {owner : SiteOwner} {part : List AnsweredEffect}
  {e : Pass.AnsweredCall}

theorem isSome_dependentStatus (d : DependentSpec) (body : Json) :
    (dependentStatus body).isSome = (d.locator.type.reader body).isSome := by
  rw [DependentSpec.locator, d.kind.reader_resourceType, dependentStatus, Option.isSome_map]

theorem accounts_observe {d : DependentSpec} (hdue : due (.get d.locator)) :
    Task.Accounts due (observe d) :=
  .find? hdue (isSome_dependentStatus d)

theorem accounts_apply {d : DependentSpec}
    (hdue : due (.apply d.locator owner.manager (d.object owner.reference owner.labels))) :
    Task.Accounts due (owner.apply d) := by
  refine .bind (.within (.request hdue fun reply => ?_)) fun _ =>
    .bind (.record _) fun _ => .pure _
  rw [Request.Fails, Reply.isOk_received_congr (isSome_dependentStatus d)]

theorem accounts_delete {d : DependentSpec} (hdue : due (.get d.locator)) :
    Task.Accounts due (owner.delete d) := by
  refine .bind (.deleteOwned hdue d.kind.reader_resourceType.symm) fun outcome => ?_
  by_cases hdeleted : outcome = .deleted
  · simp only [hdeleted, if_true]
    exact .bind (.record _) fun _ => .pure _
  · simp only [hdeleted, if_false]
    exact .pure _

/-- An application with a result sent the object, read the answer and recorded that. -/
theorem runs_apply_ok {d : DependentSpec} {part : List AnsweredEffect} {status : DependentStatus}
    (run : (owner.apply d).Runs part (.ok status)) :
    ∃ reply, part = [sent (.apply d.locator owner.manager (d.object owner.reference owner.labels))
        reply, recorded (.applied d.kind.name)] ∧
      reply.received dependentStatus = .ok status := by
  rcases Task.runs_bind_iff.mp run with ⟨_, -, heq⟩ | ⟨first, x, rest, rfl, hfirst, hrest⟩
  · cases heq
  obtain ⟨last, rfl, hlast⟩ := Task.runs_record_bind_iff.mp hrest
  obtain ⟨rfl, heq⟩ := Task.runs_pure_iff.mp hlast
  cases heq
  obtain ⟨inner, hinner, heq⟩ := Task.runs_within_iff.mp hfirst
  cases inner with
  | error cause => cases heq
  | ok y =>
      cases heq
      rcases Task.runs_request_iff.mp hinner with ⟨-, -, heq⟩ | ⟨-, reply, rfl, heq⟩
      · cases heq
      · exact ⟨reply, rfl, heq.symm⟩

/-- A call accounts for its failure. -/
theorem accounts_call (run : (owner.perform e.1).Runs part e.2) :
    (Pass.failure? e = none → AllSucceed part) ∧
      ∀ error, Pass.failure? e = some error →
        error.ByApi ∧ Blames (· ∈ owner.requests e.1) part := by
  have account {α : Type} {task : Task α} {answer : Except Raised α}
      (accounts : Task.Accounts (· ∈ owner.requests e.1) task) (run : task.Runs part answer) :
      (∀ x, answer = .ok x → AllSucceed part) ∧
        ∀ error, answer = .error error →
          error.ByApi ∧ Blames (· ∈ owner.requests e.1) part :=
    ⟨fun x heq => accounts.strict part x (heq ▸ run),
      fun error heq => accounts.blames part error (heq ▸ run)⟩
  obtain ⟨call, answer⟩ := e
  cases call with
  | observe d =>
      have account := account (accounts_observe List.mem_cons_self) run
      cases answer with
      | ok status => exact ⟨fun _ => account.1 status rfl, nofun⟩
      | error cause =>
          exact ⟨nofun, fun error h => account.2 error (congrArg _ (Option.some.inj h))⟩
  | apply d =>
      have account := account (accounts_apply List.mem_cons_self) run
      cases answer with
      | ok status => exact ⟨fun _ => account.1 status rfl, nofun⟩
      | error cause =>
          exact ⟨nofun, fun error h => account.2 error (congrArg _ (Option.some.inj h))⟩
  | delete d =>
      have account := account (accounts_delete List.mem_cons_self) run
      cases answer with
      | ok outcome => exact ⟨fun _ => account.1 outcome rfl, nofun⟩
      | error cause =>
          exact ⟨nofun, fun error h => account.2 error (congrArg _ (Option.some.inj h))⟩

theorem allSucceed_performed {made : List Pass.AnsweredCall} {events : List AnsweredEffect}
    (performed : Dialogue.Performed owner.perform made events)
    (h : ∀ e ∈ made, Pass.failure? e = none) : AllSucceed events := by
  induction performed with
  | nil => exact AllSucceed.chains.nil
  | cons run _ ih =>
      obtain ⟨hhead, hrest⟩ := List.forall_mem_cons.mp h
      exact AllSucceed.chains.append ((accounts_call run).1 hhead) (ih hrest)

/-- A pass that ends right after a call that fails, or with all of its calls answered, accounts for
its failures. -/
theorem accounts_runPass {pass : PassProgram PassResult}
    (ends : ∀ made ended, pass.Runs made ended →
      (∃ error, Pass.FailsLast made error ∧ ended.outcome = .error error) ∨
        (∀ e ∈ made, Pass.failure? e = none) ∧ ∃ progress, ended.outcome = .ok progress)
    (hdue : ∀ made ended, pass.Runs made ended → ∀ call ∈ Pass.calls made,
      ∀ request ∈ owner.requests call, due request) :
    Task.Accounts due (owner.runPass pass) where
  strict := by
    intro events concluded run
    obtain ⟨made, ended, hmade, performed, heq⟩ := runs_runPass run
    rcases ends _ _ hmade with ⟨error, -, houtcome⟩ | ⟨hnone, -⟩
    · rw [houtcome] at heq
      cases heq
    · exact allSucceed_performed performed hnone
  blames := by
    intro events error run
    obtain ⟨made, ended, hmade, performed, heq⟩ := runs_runPass run
    rcases ends _ _ hmade with ⟨cause, ⟨before, last, hsplit, hlast, -⟩, houtcome⟩ |
      ⟨-, progress, houtcome⟩
    · have hmem : last ∈ made := by simp [hsplit]
      obtain ⟨part, hpart, hsub⟩ := performed.exists_runs hmem
      rw [houtcome] at heq
      cases heq
      obtain ⟨byApi, blames⟩ := (accounts_call hpart).2 _ hlast
      exact ⟨byApi, blames.mono hsub
        (hdue _ _ hmade last.1 (Pass.mem_calls_iff.mpr ⟨last, hmem, rfl⟩))⟩
    · rw [houtcome] at heq
      cases heq

end SiteOwner

end SiteOperator
