import SiteOperator.Proofs.Pass.Finalize
import SiteOperator.Proofs.Pass.Present
import SiteOperator.Proofs.Pass.Suspend
import SiteOperator.Proofs.Reconcile.Owned

/-!
# What a reconcile of a site sends

A reconcile first reads the template, composes the plan and puts the labels of the site in place
(`Prepares`, `Prepared`). What it may send afterwards depends on the plan, on whether the site is
being deleted and on whether it carries the finalizer; `MaySend` lists all of it, with the bodies.
`runs_reconcile` splits every run into these two parts.
-/

namespace SiteOperator

namespace Task

variable {α β : Type} {trace : List AnsweredEffect} {request : Request} {read : Decoder α}

def requestIf (needed : Bool) (request : Request) (read : Decoder α) : Task Unit :=
  if needed then do
    let _ ← Task.request request read
  else pure ()

/-- The request was sent and succeeded if there was need for it, and otherwise nothing happened. -/
def SentIf (needed : Bool) (request : Request) (trace : List AnsweredEffect) : Prop :=
  needed = true ∧ (∃ reply, trace = [sent request reply] ∧ ¬ request.Fails reply) ∨
    needed = false ∧ trace = []

theorem SentIf.succeeds {needed : Bool} (h : SentIf needed request trace) (other : Request)
    (reply : Reply) (hmem : sent other reply ∈ trace) : ¬ other.Fails reply := by
  rcases h with ⟨-, answer, rfl, hok⟩ | ⟨-, rfl⟩
  · obtain ⟨rfl, rfl⟩ := sent_inj (List.mem_singleton.mp hmem)
    exact hok
  · cases hmem

theorem SentIf.onlySends {P : Request → Prop} {needed : Bool} (h : SentIf needed request trace)
    (hrequest : P request) : OnlySends P trace := by
  rcases h with ⟨-, reply, rfl, -⟩ | ⟨-, rfl⟩
  · exact OnlySends.sent hrequest reply
  · exact (OnlySends.chains P).nil

theorem ensureFinalizer_eq (object : Locator) (data : ObjectMeta) (read : Decoder α) :
    ensureFinalizer object data read =
      requestIf (!data.hasFinalizer operatorFinalizer) (.patch object (metadataPatch "finalizers"
        (.strings (data.finalizerList ++ [operatorFinalizer])))) read := by
  cases h : data.hasFinalizer operatorFinalizer <;>
    simp [ensureFinalizer, requestIf, ObjectMeta.finalizersWith?, h]

theorem removeFinalizer_eq (object : Locator) (data : ObjectMeta) (read : Decoder α) :
    removeFinalizer object data read =
      requestIf (data.hasFinalizer operatorFinalizer) (.patch object (metadataPatch "finalizers"
        (.strings (data.finalizerList.filter (· ≠ operatorFinalizer))))) read := by
  cases h : data.hasFinalizer operatorFinalizer <;>
    simp [removeFinalizer, requestIf, ObjectMeta.finalizersWithout?, h]

/-- A task that ends with a request is one exchange. -/
theorem exchanges_of_runs {x : β} {result : Except Raised β}
    (run : (Task.request request read >>= fun _ => pure x).Runs trace result) :
    Exchanges request (fun reply => (reply.received read).map fun _ => x) trace result := by
  rcases runs_bind_iff.mp run with ⟨error, hrequest, rfl⟩ | ⟨first, y, rest, rfl, hrequest, hrest⟩
  · rcases runs_request_iff.mp hrequest with ⟨hnone, rfl, heq⟩ | ⟨hwire, reply, rfl, heq⟩
    · cases heq
      exact Or.inl ⟨hnone, rfl, rfl⟩
    · exact Or.inr ⟨hwire, reply, rfl, congrArg (Except.map fun _ => x) heq⟩
  · obtain ⟨rfl, rfl⟩ := runs_pure_iff.mp hrest
    rw [List.append_nil]
    rcases runs_request_iff.mp hrequest with ⟨-, -, heq⟩ | ⟨hwire, reply, rfl, heq⟩
    · cases heq
    · exact Or.inr ⟨hwire, reply, rfl, congrArg (Except.map fun _ => x) heq⟩

theorem runs_requestIf {needed : Bool} {result : Except Raised Unit}
    (understood : ∀ reply, request.Fails reply ↔ (reply.received read).isOk = false)
    (run : (requestIf needed request read).Runs trace result) :
    (∃ error, result = .error error ∧ needed = true ∧
        (trace = [] ∨ ∃ reply, trace = [sent request reply] ∧ request.Fails reply)) ∨
      result = .ok () ∧ SentIf needed request trace := by
  cases needed with
  | false =>
      obtain ⟨rfl, rfl⟩ := runs_pure_iff.mp run
      exact Or.inr ⟨rfl, Or.inr ⟨rfl, rfl⟩⟩
  | true =>
      rcases exchanges_of_runs run with ⟨-, rfl, rfl⟩ | ⟨-, reply, rfl, hresult⟩
      · exact Or.inl ⟨_, rfl, rfl, Or.inl rfl⟩
      · cases hreply : reply.received read with
        | error error =>
            have fails : request.Fails reply := (understood reply).mpr (hreply ▸ rfl)
            exact Or.inl ⟨error, hresult.trans (congrArg (Except.map fun _ => ()) hreply), rfl,
              Or.inr ⟨reply, rfl, fails⟩⟩
        | ok x =>
            have hok : ¬ request.Fails reply := by
              simp [understood, hreply, Except.isOk, Except.toBool]
            exact Or.inr ⟨hresult.trans (congrArg (Except.map fun _ => ()) hreply),
              Or.inl ⟨rfl, reply, rfl, hok⟩⟩

/-- A request that was needed and is not sent cannot be sent. -/
theorem wire?_of_unsent {needed : Bool} {error : Raised}
    (run : (requestIf needed request read).Runs [] (.error error)) : request.wire? = none := by
  cases needed with
  | false => cases (runs_pure_iff.mp run).2
  | true =>
      rcases exchanges_of_runs run with ⟨hnone, -⟩ | ⟨-, _, htrace, -⟩
      · exact hnone
      · cases htrace

theorem Always.requestIf {P : List AnsweredEffect → Prop} (chains : Chains P) {needed : Bool}
    (h : needed = true → ∀ reply, P [sent request reply]) :
    Always P (requestIf needed request read) := by
  cases needed with
  | false => exact .pure chains ()
  | true => exact .bind chains (.request chains (h rfl)) fun _ => .pure chains ()

end Task

def SiteNames.policies (names : SiteNames) : List String :=
  [names.namespacePolicy, names.nginxPolicy]

namespace Plan

inductive Applies (plan : Plan) (owner : SiteOwner) : Request → Prop where
  | observe {kind : DependentKind} {d : DependentSpec} (h : plan.dependent? kind = some d) :
      Applies plan owner (.get d.locator)
  | apply {kind : DependentKind} {d : DependentSpec} (h : plan.dependent? kind = some d) :
      Applies plan owner
        (.apply d.locator owner.manager (d.object owner.reference owner.labels))
  | suspend {kind : DependentKind} {d : DependentSpec} (h : plan.dependent? kind = some d) :
      Applies plan owner
        (.apply d.locator owner.manager (d.suspended.object owner.reference owner.labels))

/-- What a reconcile sends about the namespace and the network policies of a site. -/
inductive Surrounds (plan : Plan) (owner : SiteOwner) : Request → Prop where
  | readNamespace : Surrounds plan owner (.get plan.names.namespaceLocator)
  | createNamespace : Surrounds plan owner (.create plan.names.namespaceLocator
      (plan.names.namespaceObject owner.reference plan.composition.labels))
  | readPolicy {name : String} (h : name ∈ plan.names.policies) :
      Surrounds plan owner (.get (plan.names.policyLocator name))
  | createNamespacePolicy (kept : plan.omitPolicies = false) :
      Surrounds plan owner (.create (plan.names.policyLocator plan.names.namespacePolicy)
        (plan.names.namespacePolicyObject owner.reference plan.composition.labels))
  | createNginxPolicy (kept : plan.omitPolicies = false) :
      Surrounds plan owner (.create (plan.names.policyLocator plan.names.nginxPolicy)
        (plan.names.nginxPolicyObject owner.reference plan.composition.labels))
  | deletePolicy {name : String} (omitted : plan.omitPolicies = true)
      (h : name ∈ plan.names.policies) :
      Surrounds plan owner (.delete (plan.names.policyLocator name))

/-- What a reconcile sends about the objects of a site that is not being deleted. -/
inductive Maintains (plan : Plan) (owner : SiteOwner) (request : Request) : Prop where
  | surroundings (h : plan.Surrounds owner request) : Maintains plan owner request
  | dependents (h : plan.Applies owner request) : Maintains plan owner request

inductive Finalizes (plan : Plan) : Request → Prop where
  | check {kind : DependentKind} {d : DependentSpec} (h : plan.dependent? kind = some d) :
      Finalizes plan (.get d.locator)
  | delete {kind : DependentKind} {d : DependentSpec} (h : plan.dependent? kind = some d) :
      Finalizes plan (.delete d.locator)

/-- The calls of a pass over a site that is not being deleted are made of what a reconcile sends
about its dependents. -/
theorem applies_of_mem_schedule {plan : Plan} {owner : SiteOwner}
    {f : DependentSpec → DependentSpec} {order : List DependentKind} {call : DependentCall}
    {request : Request}
    (scheduled : call ∈ Pass.observations plan ++ Pass.applications plan order f)
    (applies : ∀ kind d, plan.dependent? kind = some d → plan.Applies owner
      (.apply (f d).locator owner.manager ((f d).object owner.reference owner.labels)))
    (h : request ∈ owner.requests call) : plan.Applies owner request := by
  rcases List.mem_append.mp scheduled with hmem | hmem
  · obtain ⟨d, hd, rfl⟩ := List.mem_map.mp hmem
    obtain ⟨kind, -, hd⟩ := Pass.mem_configured.mp hd
    obtain rfl := List.mem_singleton.mp h
    exact .observe hd
  · obtain ⟨d, hd, rfl⟩ := List.mem_map.mp hmem
    obtain ⟨kind, -, hd⟩ := Pass.mem_configured.mp hd
    obtain rfl := List.mem_singleton.mp h
    exact applies kind d hd

/-- The calls of a pass over a site that is being deleted check and delete its dependents. -/
theorem finalizes_of_mem_schedule {plan : Plan} {owner : SiteOwner} {call : DependentCall}
    {request : Request} (scheduled : call ∈ Pass.finalizeSchedule plan)
    (h : request ∈ owner.requests call) : plan.Finalizes request := by
  obtain ⟨kind, d, hd, rfl⟩ := Pass.mem_finalizeSchedule.mp scheduled
  rcases SiteOwner.mem_requests_delete_iff.mp h with rfl | rfl
  · exact .check hd
  · exact .delete hd

end Plan

namespace Site

variable {site : Site} {manager now : String} {plan : Plan} {owner : SiteOwner}
  {trace prep : List AnsweredEffect}

theorem patchLabels_eq (site : Site) (labels : Entries String) :
    site.patchLabels labels = Task.requestIf (labelsNeedPatch site.metadata.labels labels)
      (.patch site.ownLocator (metadataPatch "labels" (.textMap labels))) decode := rfl

theorem writeStatus_eq (site : Site) (draft : StatusDraft) :
    site.writeStatus draft = Task.requestIf draft.hasChanges
      (.patchStatus site.ownLocator (statusPatch draft.collected.encode)) decode := rfl

/-- The patch that adds the operator's finalizer to a site that does not carry it. -/
def finalizerAddition (site : Site) : Request :=
  .patch site.ownLocator (metadataPatch "finalizers"
    (.strings (site.metadata.finalizerList ++ [operatorFinalizer])))

def finalizerRemoval (site : Site) : Request :=
  .patch site.ownLocator (metadataPatch "finalizers"
    (.strings (site.metadata.finalizerList.filter (· ≠ operatorFinalizer))))

/-- The answer to a patch of a site is read as a site. -/
theorem isOk_received_ownLocator (site : Site) (reply : Reply) :
    (reply.received site.ownLocator.type.reader).isOk = (reply.received decode).isOk :=
  Reply.isOk_received_congr fun _ => Option.isSome_map

theorem fails_patch_iff (site : Site) {body : Json} (reply : Reply) :
    (Request.patch site.ownLocator body).Fails reply ↔ (reply.received decode).isOk = false := by
  rw [Request.Fails, site.isOk_received_ownLocator]

theorem fails_patchStatus_iff (site : Site) {body : Json} (reply : Reply) :
    (Request.patchStatus site.ownLocator body).Fails reply ↔
      (reply.received decode).isOk = false := by
  rw [Request.Fails, site.isOk_received_ownLocator]

/-- The template that the trace begins with leads to the plan. -/
def Composed (site : Site) (trace : List AnsweredEffect) (plan : Plan) : Prop :=
  ∃ reply rest template labels blocks,
    trace = sent (.get (Template.locator site.spec.templateName)) reply :: rest ∧
      reply.found Template.decode = .ok template ∧
      resolveTemplate template site.spec.templateName site.isTerminating = .ok (labels, blocks) ∧
      Plan.compose site.name labels blocks site.spec.overrides = .ok plan

/-- What a reconcile sends before it turns to the objects of the site. -/
inductive Prepares (site : Site) : Request → Prop where
  | readTemplate : Prepares site (.get (Template.locator site.spec.templateName))
  | patchLabels (labels : Entries String) :
      Prepares site (.patch site.ownLocator (metadataPatch "labels" (.textMap labels)))

/-- The plan was composed from the template, the labels of the site are in place, and the site can
be named as the owner of its objects. -/
structure Prepared (site : Site) (manager : String) (plan : Plan) (owner : SiteOwner)
    (prep : List AnsweredEffect) : Prop where
  composed : site.Composed prep plan
  owner : ∃ reference, site.ownerReference? = some reference ∧
    owner = ⟨reference, plan.composition.labels, manager⟩
  succeeds : ∀ request reply, sent request reply ∈ prep → ¬ request.Fails reply

def proceed (site : Site) (plan : Plan) (owner : SiteOwner) (now : String) : Task Progress :=
  if site.isTerminating then site.finalize plan owner now
  else site.maintain plan owner now

theorem ownerReference_eq_ok_iff {reference : OwnerReference} :
    site.ownerReference = .ok reference ↔ site.ownerReference? = some reference := by
  cases h : site.ownerReference? <;> simp [ownerReference, h]

/-- The reference to a site names the site as the controller, by its UID. -/
theorem of_ownerReference?_eq_some {reference : OwnerReference}
    (h : site.ownerReference? = some reference) :
    site.metadata.uid = some reference.uid ∧ reference.controller = some true := by
  obtain ⟨name, -, hrest⟩ := Option.bind_eq_some_iff.mp h
  obtain ⟨uid, huid, heq⟩ := Option.bind_eq_some_iff.mp hrest
  cases heq
  exact ⟨huid, rfl⟩

theorem Composed.unique {other : Plan} (composed : site.Composed trace plan)
    (composed' : site.Composed trace other) : plan = other := by
  obtain ⟨reply, rest, template, labels, blocks, rfl, hfound, hresolve, hcompose⟩ := composed
  obtain ⟨reply', rest', template', labels', blocks', heq, hfound', hresolve', hcompose'⟩ :=
    composed'
  obtain ⟨-, rfl⟩ := sent_inj (List.cons.inj heq).1
  cases hfound.symm.trans hfound'
  cases hresolve.symm.trans hresolve'
  cases hcompose.symm.trans hcompose'
  rfl

theorem Composed.append (composed : site.Composed prep plan) (rest : List AnsweredEffect) :
    site.Composed (prep ++ rest) plan := by
  obtain ⟨reply, tail, template, labels, blocks, rfl, hfound, hresolve, hcompose⟩ := composed
  exact ⟨reply, tail ++ rest, template, labels, blocks, rfl, hfound, hresolve, hcompose⟩

theorem fails_readTemplate_iff (site : Site) (reply : Reply) :
    (Request.get (Template.locator site.spec.templateName)).Fails reply ↔
      (reply.found Template.decode).isOk = false := by
  have same : ∀ body, (Template.decode body).isSome =
      (((Template.decode body).map Template.metadata)).isSome := fun _ => Option.isSome_map.symm
  rw [Reply.isOk_found_congr same]
  rfl

/-- A template that was read is no failing request. -/
theorem not_fails_readTemplate {reply : Reply} {template : Option Template}
    (h : reply.found Template.decode = .ok template) :
    ¬ (Request.get (Template.locator site.spec.templateName)).Fails reply := by
  rw [site.fails_readTemplate_iff, h]
  exact Bool.false_ne_true ∘ Eq.symm

def prepare (site : Site) (manager : String) : Task (Plan × SiteOwner) := do
  let template ← Task.find? (Template.locator site.spec.templateName) Template.decode
  let (templateLabels, blocks) ←
    Task.ofExcept (resolveTemplate template site.spec.templateName site.isTerminating)
  let plan ← Task.ofExcept (Plan.compose site.name templateLabels blocks site.spec.overrides)
  site.patchLabels plan.composition.labels
  let reference ← Task.ofExcept site.ownerReference
  pure (plan, ⟨reference, plan.composition.labels, manager⟩)

theorem reconcile_eq (site : Site) (manager now : String) :
    site.reconcile manager now =
      site.prepare manager >>= fun (plan, owner) => site.proceed plan owner now := by
  simp [reconcile, prepare, proceed, bind_assoc]

theorem prepare_onlySends (site : Site) (manager : String) :
    Task.Always (OnlySends site.Prepares) (site.prepare manager) := by
  have chains := OnlySends.chains site.Prepares
  refine .bind chains (.find? chains fun reply => OnlySends.sent .readTemplate reply) fun _ => ?_
  refine .bind chains (.ofExcept chains _) fun resolved => ?_
  refine .bind chains (.ofExcept chains _) fun plan => ?_
  refine .bind chains (.requestIf chains fun _ reply => OnlySends.sent (.patchLabels _) reply)
    fun _ => ?_
  exact .bind chains (.ofExcept chains _) fun reference => .pure chains _

theorem runs_prepare (run : (site.prepare manager).Runs prep (.ok (plan, owner))) :
    site.Prepared manager plan owner prep := by
  rcases Task.runs_bind_iff.mp run with ⟨_, -, heq⟩ | ⟨first, template, rest, rfl, hfind, resolves⟩
  · cases heq
  rcases Task.runs_find?_iff.mp hfind with ⟨-, -, heq⟩ | ⟨-, reply, rfl, hreply⟩
  · cases heq
  rcases Task.runs_ofExcept_bind_iff.mp resolves with
    ⟨_, -, -, heq⟩ | ⟨⟨labels, blocks⟩, hresolve, composes⟩
  · cases heq
  rcases Task.runs_ofExcept_bind_iff.mp composes with ⟨_, -, -, heq⟩ | ⟨made, hcompose, puts⟩
  · cases heq
  rcases Task.runs_bind_iff.mp puts with ⟨_, -, heq⟩ | ⟨put, _, rest, rfl, hput, refers⟩
  · cases heq
  rcases Task.runs_ofExcept_bind_iff.mp refers with ⟨_, -, -, heq⟩ | ⟨reference, hreference, ends⟩
  · cases heq
  obtain ⟨rfl, heq⟩ := Task.runs_pure_iff.mp ends
  cases heq
  rw [patchLabels_eq] at hput
  rw [List.append_nil]
  refine ⟨⟨reply, put, template, labels, blocks, rfl, hreply.symm, hresolve, hcompose⟩,
    ⟨reference, ownerReference_eq_ok_iff.mp hreference, rfl⟩, ?_⟩
  intro request answer hmem
  rcases List.mem_append.mp hmem with hmem | hmem
  · obtain ⟨rfl, rfl⟩ := sent_inj (List.mem_singleton.mp hmem)
    exact not_fails_readTemplate hreply.symm
  · rcases Task.runs_requestIf site.fails_patch_iff hput with ⟨_, heq, -⟩ | ⟨-, hsent⟩
    · cases heq
    · exact hsent.succeeds request answer hmem

/-- Every run of a reconcile prepares first. It ends there with an error, or it goes on with the
plan. -/
theorem runs_reconcile {result : Except Raised Progress}
    (run : (site.reconcile manager now).Runs trace result) :
    ∃ prep rest, trace = prep ++ rest ∧ OnlySends site.Prepares prep ∧
      ((rest = [] ∧ ∃ error, result = .error error) ∨
        ∃ plan owner, site.Prepared manager plan owner prep ∧
          (site.proceed plan owner now).Runs rest result) := by
  rw [reconcile_eq] at run
  rcases Task.runs_bind_iff.mp run with
    ⟨error, hprepare, rfl⟩ | ⟨prep, ⟨plan, owner⟩, rest, rfl, hprepare, run⟩
  · exact ⟨trace, [], (List.append_nil _).symm, prepare_onlySends _ _ _ _ hprepare,
      Or.inl ⟨rfl, error, rfl⟩⟩
  · exact ⟨prep, rest, rfl, prepare_onlySends _ _ _ _ hprepare,
      Or.inr ⟨plan, owner, runs_prepare hprepare, run⟩⟩

/-- What a reconcile may send once it is prepared: about the site itself in either case, about all
of its objects if it is not being deleted, and about its dependents if it is being deleted and
carries the finalizer. -/
inductive MaySend (site : Site) (plan : Plan) (owner : SiteOwner) : Request → Prop where
  | writeStatus (status : SiteStatus) :
      MaySend site plan owner (.patchStatus site.ownLocator (statusPatch status.encode))
  | addFinalizer (alive : site.isTerminating = false)
      (lacks : site.metadata.hasFinalizer operatorFinalizer = false) :
      MaySend site plan owner site.finalizerAddition
  | maintain {request : Request} (alive : site.isTerminating = false)
      (h : plan.Maintains owner request) : MaySend site plan owner request
  | finalize {request : Request} (terminating : site.isTerminating = true)
      (carries : site.metadata.hasFinalizer operatorFinalizer = true)
      (h : plan.Finalizes request) : MaySend site plan owner request
  | removeFinalizer (terminating : site.isTerminating = true)
      (carries : site.metadata.hasFinalizer operatorFinalizer = true) :
      MaySend site plan owner site.finalizerRemoval

theorem reconcilePolicies_onlySends (plan : Plan) (owner : SiteOwner) :
    Task.Always (OnlySends (plan.Surrounds owner)) (reconcilePolicies plan owner) := by
  have chains := OnlySends.chains (plan.Surrounds owner)
  have hnamespace : plan.names.namespacePolicy ∈ plan.names.policies := by
    simp [SiteNames.policies]
  have hnginx : plan.names.nginxPolicy ∈ plan.names.policies := by simp [SiteNames.policies]
  have reads {name} (h : name ∈ plan.names.policies) (reply : Reply) :=
    OnlySends.sent (show plan.Surrounds owner _ from .readPolicy h) reply
  unfold reconcilePolicies
  cases homit : plan.omitPolicies with
  | true =>
      have drops {name kind uid read} (h : name ∈ plan.names.policies) :
          Task.Always (OnlySends (plan.Surrounds owner))
            (Task.deleteOwned (plan.names.policyLocator name) kind uid read) := by
        intro trace result run
        refine (Task.runs_deleteOwned run).onlySends.mono ?_
        rintro request (rfl | rfl)
        · exact .readPolicy h
        · exact .deletePolicy homit h
      simp only [if_true]
      refine .bind chains (.bind chains (drops hnamespace) fun _ => .pure chains _) fun _ => ?_
      exact .bind chains (drops hnginx) fun _ => .pure chains _
  | false =>
      simp only [Bool.false_eq_true, if_false]
      refine .bind chains (.bind chains (.createMissing chains (reads hnamespace) fun reply =>
        OnlySends.sent (.createNamespacePolicy homit) reply) fun _ => .pure chains _) fun _ => ?_
      exact .bind chains (.createMissing chains (reads hnginx) fun reply =>
        OnlySends.sent (.createNginxPolicy homit) reply) fun _ => .pure chains _

theorem reconcileNamespace_onlySends (plan : Plan) (owner : SiteOwner) :
    Task.Always (OnlySends (plan.Surrounds owner)) (reconcileNamespace plan owner) := by
  have chains := OnlySends.chains (plan.Surrounds owner)
  refine .bind chains (.createMissing chains (fun reply => OnlySends.sent .readNamespace reply)
    fun reply => OnlySends.sent .createNamespace reply) fun _ => ?_
  exact reconcilePolicies_onlySends plan owner

theorem runPass_applies (h : plan.WellFormed) {draft : StatusDraft} (suspended : Bool) :
    Task.Always (OnlySends (plan.Applies owner)) (owner.runPass
      (if suspended then Pass.suspend plan now draft else Pass.present plan now draft)) := by
  intro trace result run
  obtain ⟨made, ended, hpass, performed, -⟩ := SiteOwner.runs_runPass run
  cases suspended with
  | true =>
      obtain ⟨ending, walk, -⟩ := Pass.runs_suspend hpass
      exact SiteOwner.performed_onlySends performed fun _ hcall _ =>
        Plan.applies_of_mem_schedule (walk.calls_prefix_schedule.subset hcall)
          fun _ _ hd => .suspend hd
  | false =>
      have present := Pass.runs_present h hpass
      exact SiteOwner.performed_onlySends performed fun _ hcall _ =>
        Plan.applies_of_mem_schedule (present.calls_prefix_schedule.subset hcall)
          fun _ _ hd => .apply hd

def maintainDependents (site : Site) (plan : Plan) (owner : SiteOwner) (now : String) :
    Task Progress := do
  let draft := StatusDraft.ofCurrent site.status
  let (progress, draft) ← owner.runPass
    (if site.spec.isSuspended then Pass.suspend plan now draft else Pass.present plan now draft)
  site.writeStatus draft
  pure progress

def maintainObjects (site : Site) (plan : Plan) (owner : SiteOwner) (now : String) :
    Task Progress := do
  reconcileNamespace plan owner
  site.maintainDependents plan owner now

theorem maintain_eq (site : Site) (plan : Plan) (owner : SiteOwner) (now : String) :
    site.maintain plan owner now =
      Task.ofExcept plan.names.validate >>= fun _ =>
        Task.requestIf (!site.metadata.hasFinalizer operatorFinalizer) site.finalizerAddition decode
          >>= fun _ => site.maintainObjects plan owner now := by
  rw [finalizerAddition, ← Task.ensureFinalizer_eq]
  rfl

theorem maintainDependents_onlySends (h : plan.WellFormed) :
    Task.Always (OnlySends fun request => plan.Applies owner request ∨
        ∃ status : SiteStatus, request = .patchStatus site.ownLocator (statusPatch status.encode))
      (site.maintainDependents plan owner now) := by
  have chains := OnlySends.chains fun request => plan.Applies owner request ∨
    ∃ status : SiteStatus, request = .patchStatus site.ownLocator (statusPatch status.encode)
  refine .bind chains (fun _ _ run => (runPass_applies h _ _ _ run).mono fun _ => Or.inl)
    fun ended => .bind chains ?_ fun _ => .pure chains _
  rw [writeStatus_eq]
  exact .requestIf chains fun _ reply => OnlySends.sent (Or.inr ⟨_, rfl⟩) reply

theorem maintain_onlySends (alive : site.isTerminating = false) (h : plan.WellFormed) :
    Task.Always (OnlySends (site.MaySend plan owner)) (site.maintain plan owner now) := by
  have chains := OnlySends.chains (site.MaySend plan owner)
  rw [maintain_eq]
  refine .bind chains (.ofExcept chains _) fun _ => .bind chains ?_ fun _ => .bind chains ?_
    fun _ => ?_
  · refine .requestIf chains fun needed reply => OnlySends.sent (.addFinalizer alive ?_) reply
    simpa using needed
  · exact fun _ _ run => (reconcileNamespace_onlySends plan owner _ _ run).mono
      fun _ h => .maintain alive (.surroundings h)
  · intro _ _ run
    refine (maintainDependents_onlySends h _ _ run).mono fun request hrequest => ?_
    rcases hrequest with happlies | ⟨status, rfl⟩
    · exact .maintain alive (.dependents happlies)
    · exact .writeStatus status

theorem finalize_onlySends (terminating : site.isTerminating = true) (h : plan.WellFormed)
    {moodle : DependentSpec} (hmoodle : plan.dependent? .moodle = some moodle) :
    Task.Always (OnlySends (site.MaySend plan owner)) (site.finalize plan owner now) := by
  have chains := OnlySends.chains (site.MaySend plan owner)
  unfold finalize
  cases carries : site.metadata.hasFinalizer operatorFinalizer with
  | false => exact .pure chains _
  | true =>
      refine .bind chains ?_ fun ended => .bind chains ?_ fun _ => ?_
      · intro trace result run
        obtain ⟨made, ended, hpass, performed, -⟩ := SiteOwner.runs_runPass run
        obtain ⟨ending, walk, -⟩ := Pass.runs_finalize h hmoodle hpass
        exact SiteOwner.performed_onlySends performed fun _ hcall _ h =>
          .finalize terminating carries
            (Plan.finalizes_of_mem_schedule (walk.calls_prefix_schedule.subset hcall) h)
      · rw [writeStatus_eq]
        exact .requestIf chains fun _ reply => OnlySends.sent (.writeStatus _) reply
      · by_cases settled : ended.1 = .settled
        · simp only [settled, if_true, Task.removeFinalizer_eq]
          exact .bind chains (.requestIf chains fun _ reply =>
            OnlySends.sent (.removeFinalizer terminating carries) reply) fun _ => .pure chains _
        · simp only [settled, if_false]
          exact .pure chains _

/-- Everything that a prepared reconcile sends is among what it may send. -/
theorem proceed_onlySends (prepared : site.Prepared manager plan owner prep) :
    Task.Always (OnlySends (site.MaySend plan owner)) (site.proceed plan owner now) := by
  obtain ⟨reply, rest, template, labels, blocks, -, -, -, hcompose⟩ := prepared.composed
  have hplan := Plan.compose_wellFormed hcompose
  obtain ⟨moodle, hmoodle⟩ := Plan.compose_workload hcompose
  unfold proceed
  cases terminating : site.isTerminating with
  | true => exact finalize_onlySends terminating hplan hmoodle
  | false => exact maintain_onlySends terminating hplan

/-- A site that is not being deleted gets the finalizer if it does not carry it, before anything is
done about its objects. -/
theorem runs_maintain (run : (site.maintain plan owner now).Runs trace result) :
    ∃ added rest, trace = added ++ rest ∧ OnlySends (· = site.finalizerAddition) added ∧
      ((rest = [] ∧ ∃ error, result = .error error) ∨
        Task.SentIf (!site.metadata.hasFinalizer operatorFinalizer) site.finalizerAddition added ∧
          (site.maintainObjects plan owner now).Runs rest result) := by
  have chains := OnlySends.chains (· = site.finalizerAddition)
  have onlyAdds : Task.Always (OnlySends (· = site.finalizerAddition))
      (Task.requestIf (!site.metadata.hasFinalizer operatorFinalizer) site.finalizerAddition
        decode) :=
    .requestIf chains fun _ => OnlySends.sent (P := (· = site.finalizerAddition)) rfl
  rw [maintain_eq] at run
  rcases Task.runs_ofExcept_bind_iff.mp run with ⟨fault, -, rfl, rfl⟩ | ⟨⟨⟩, -, hadds⟩
  · exact ⟨[], [], rfl, chains.nil, Or.inl ⟨rfl, _, rfl⟩⟩
  rcases Task.runs_bind_iff.mp hadds with ⟨error, hadd, rfl⟩ | ⟨added, ⟨⟩, rest, rfl, hadd, hrest⟩
  · exact ⟨trace, [], (List.append_nil _).symm, onlyAdds _ _ hadd, Or.inl ⟨rfl, _, rfl⟩⟩
  · rcases Task.runs_requestIf site.fails_patch_iff hadd with ⟨_, heq, -⟩ | ⟨-, hsent⟩
    · cases heq
    · exact ⟨added, rest, rfl, onlyAdds _ _ hadd, Or.inr ⟨hsent, hrest⟩⟩

def endFinalizing (site : Site) (progress : Progress) (draft : StatusDraft) : Task Progress := do
  site.writeStatus draft
  if progress = .settled then
    Task.removeFinalizer site.ownLocator site.metadata decode
  pure progress

theorem endFinalizing_onlySends (progress : Progress) (draft : StatusDraft) :
    Task.Always (OnlySends fun request => (∃ status : SiteStatus,
        request = .patchStatus site.ownLocator (statusPatch status.encode)) ∨
      request = site.finalizerRemoval) (site.endFinalizing progress draft) := by
  have chains := OnlySends.chains fun request => (∃ status : SiteStatus,
    request = .patchStatus site.ownLocator (statusPatch status.encode)) ∨
      request = site.finalizerRemoval
  refine .bind chains ?_ fun _ => ?_
  · rw [writeStatus_eq]
    exact .requestIf chains fun _ reply => OnlySends.sent (Or.inl ⟨_, rfl⟩) reply
  · cases progress with
    | requeue => exact .pure chains _
    | settled =>
        simp only [if_true, Task.removeFinalizer_eq]
        exact .bind chains (.requestIf chains fun _ reply => OnlySends.sent (Or.inr rfl) reply)
          fun _ => .pure chains _

/-- A site that carries the finalizer is finalized by the effects of the pass, after which the
reconcile goes on if the pass has not failed. -/
theorem runs_finalize (carries : site.metadata.hasFinalizer operatorFinalizer = true)
    (run : (site.finalize plan owner now).Runs trace result) :
    ∃ checks rest made ended, trace = checks ++ rest ∧
      (Pass.finalize plan now (.ofCurrent site.status)).Runs made ended ∧
      Dialogue.Performed owner.perform made checks ∧
      ((∃ error, ended.outcome = .error error ∧ rest = [] ∧ result = .error error) ∨
        ∃ progress, ended.outcome = .ok progress ∧
          (site.endFinalizing progress ended.draft).Runs rest result) := by
  have hfinalize : site.finalize plan owner now =
      owner.runPass (Pass.finalize plan now (.ofCurrent site.status)) >>= fun ended =>
        site.endFinalizing ended.1 ended.2 := by
    simp only [finalize, carries, if_true]
    rfl
  rw [hfinalize] at run
  exact SiteOwner.runs_runPass_bind run

end Site

end SiteOperator
