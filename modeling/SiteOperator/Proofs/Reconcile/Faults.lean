import SiteOperator.Proofs.Plan.Outcome
import SiteOperator.Proofs.Reconcile.Accounts

/-!
# How a reconcile of a site fails

A reconcile checks a few things of its own: that there is a template, that the specs can be
composed, that the site can own its objects, and that the name of its namespace is not too long. The
first of these checks that fails ends it, and then no request has failed (`Site.Rejects`). All other
failures are accounted for by the API: a request has failed, or one that the checks admit cannot be
sent (`Site.Admits`, `Site.runs_reconcile_error_cases`).
-/

namespace SiteOperator

theorem Pass.outcome_of_suspend {plan : Plan} {now : String} {draft : StatusDraft}
    {made : List AnsweredCall} {ended : PassResult}
    (run : (suspend plan now draft).Runs made ended) :
    (∃ error, FailsLast made error ∧ ended.outcome = .error error) ∨
      (∀ e ∈ made, failure? e = none) ∧ ∃ progress, ended.outcome = .ok progress := by
  obtain ⟨ending, walk, rfl⟩ := runs_suspend run
  cases ending with
  | failed error => exact Or.inl ⟨error, walk.failed, rfl⟩
  | completed => exact Or.inr ⟨fun e he => (walk.completed.2 e he).1, _, rfl⟩
  | stopped =>
      obtain ⟨before, last, rfl, hlast, -, hgo⟩ := walk.stopped
      refine Or.inr ⟨fun e he => ?_, _, rfl⟩
      rcases List.mem_append.mp he with he | he
      · exact (hgo e he).1
      · rw [List.mem_singleton.mp he, hlast]

theorem SiteNames.reason_of_validate_eq_error {names : SiteNames} {fault : Fault}
    (h : names.validate = .error fault) : fault.reason = "NameTooLong" := by
  unfold validate at h
  split at h
  · cases h
    rfl
  · cases h

theorem Site.reason_of_ownerReference_eq_error {site : Site} {fault : Fault}
    (h : site.ownerReference = .error fault) : fault.reason = "MissingMetadata" := by
  unfold ownerReference at h
  split at h
  · cases h
  · cases h
    rfl

namespace Site

variable {site : Site} {manager now : String} {plan : Plan} {owner : SiteOwner}
  {trace prep : List AnsweredEffect} {error : Raised} {request : Request} {fault : Fault}

def pass (site : Site) (plan : Plan) (now : String) : PassProgram PassResult :=
  if site.isTerminating then Pass.finalize plan now (.ofCurrent site.status)
  else if site.spec.isSuspended then Pass.suspend plan now (.ofCurrent site.status)
  else Pass.present plan now (.ofCurrent site.status)

/-- A pass ends right after a call that fails, with its error, or no call of it fails. -/
theorem pass_outcome {made : List Pass.AnsweredCall} {ended : PassResult}
    (composed : site.Composed trace plan) (run : (site.pass plan now).Runs made ended) :
    (∃ error, Pass.FailsLast made error ∧ ended.outcome = .error error) ∨
      (∀ e ∈ made, Pass.failure? e = none) ∧ ∃ progress, ended.outcome = .ok progress := by
  obtain ⟨_, _, _, _, _, -, -, -, hcompose⟩ := composed
  have wellFormed := Plan.compose_wellFormed hcompose
  obtain ⟨moodle, hmoodle⟩ := Plan.compose_workload hcompose
  unfold pass at run
  split at run
  · obtain ⟨ending, walk, hend⟩ := Pass.runs_finalize wellFormed hmoodle run
    exact hend.outcome_eq walk
  · split at run
    · exact Pass.outcome_of_suspend run
    · exact (Pass.runs_present wellFormed run).cut.imp_right fun ⟨hnone, hprogress, _⟩ =>
        ⟨hnone, hprogress⟩

/-- The calls of a pass are made of what a reconcile may send. -/
theorem maySend_of_pass {made : List Pass.AnsweredCall} {ended : PassResult} {call : DependentCall}
    (composed : site.Composed trace plan)
    (carries : site.isTerminating = true → site.metadata.hasFinalizer operatorFinalizer = true)
    (run : (site.pass plan now).Runs made ended) (hcall : call ∈ Pass.calls made)
    (h : request ∈ owner.requests call) : site.MaySend plan owner request := by
  obtain ⟨_, _, _, _, _, -, -, -, hcompose⟩ := composed
  have wellFormed := Plan.compose_wellFormed hcompose
  obtain ⟨moodle, hmoodle⟩ := Plan.compose_workload hcompose
  unfold pass at run
  cases terminating : site.isTerminating with
  | true =>
      rw [if_pos terminating] at run
      obtain ⟨ending, walk, -⟩ := Pass.runs_finalize wellFormed hmoodle run
      exact .finalize terminating (carries terminating)
        (Plan.finalizes_of_mem_schedule (walk.calls_prefix_schedule.subset hcall) h)
  | false =>
      rw [if_neg (by simp [terminating])] at run
      refine .maintain terminating (.dependents ?_)
      split at run
      · obtain ⟨ending, walk, -⟩ := Pass.runs_suspend run
        exact Plan.applies_of_mem_schedule (walk.calls_prefix_schedule.subset hcall)
          (fun _ _ hd => .suspend hd) h
      · have present := Pass.runs_present wellFormed run
        exact Plan.applies_of_mem_schedule (present.calls_prefix_schedule.subset hcall)
          (fun _ _ hd => .apply hd) h

theorem accounts_writeStatus (draft : StatusDraft) :
    Task.Accounts (site.MaySend plan owner) (site.writeStatus draft) :=
  .requestIf (fun _ => .writeStatus _) site.fails_patchStatus_iff

theorem accounts_reconcileNamespace (plan : Plan) (owner : SiteOwner) :
    Task.Accounts (plan.Surrounds owner) (reconcileNamespace plan owner) := by
  have hnamespace : plan.names.namespacePolicy ∈ plan.names.policies := by
    simp [SiteNames.policies]
  have hnginx : plan.names.nginxPolicy ∈ plan.names.policies := by simp [SiteNames.policies]
  refine .bind (.createMissing .readNamespace .createNamespace rfl) fun _ => ?_
  unfold reconcilePolicies
  cases homit : plan.omitPolicies with
  | true =>
      simp only [if_true]
      exact .bind (.bind (.deleteOwned (.readPolicy hnamespace) rfl) fun _ => .pure _) fun _ =>
        .bind (.deleteOwned (.readPolicy hnginx) rfl) fun _ => .pure _
  | false =>
      simp only [Bool.false_eq_true, if_false]
      exact .bind (.bind (.createMissing (.readPolicy hnamespace) (.createNamespacePolicy homit)
          rfl) fun _ => .pure _) fun _ =>
        .bind (.createMissing (.readPolicy hnginx) (.createNginxPolicy homit) rfl) fun _ => .pure _

/-- Once a reconcile is prepared, and if the name of the site is not too long for what it has to do,
the API accounts for its failures. -/
theorem accounts_proceed (composed : site.Composed prep plan)
    (passes : site.isTerminating = true ∨ plan.names.validate = .ok ()) :
    Task.Accounts (site.MaySend plan owner) (site.proceed plan owner now) := by
  have makes (carries : site.isTerminating = true →
      site.metadata.hasFinalizer operatorFinalizer = true) :
      Task.Accounts (site.MaySend plan owner) (owner.runPass (site.pass plan now)) :=
    SiteOwner.accounts_runPass (fun _ _ run => site.pass_outcome composed run)
      fun _ _ run _ hcall _ h => site.maySend_of_pass composed carries run hcall h
  unfold proceed
  unfold pass at makes
  cases terminating : site.isTerminating with
  | true =>
      simp only [terminating, if_true] at makes ⊢
      unfold finalize
      cases carries : site.metadata.hasFinalizer operatorFinalizer with
      | false => exact .pure _
      | true =>
          simp only [if_true]
          refine .bind (makes fun _ => carries) fun concluded =>
            .bind (accounts_writeStatus _) fun _ => ?_
          by_cases settled : concluded.1 = .settled
          · simp only [settled, if_true, Task.removeFinalizer_eq]
            exact .bind (.requestIf (fun _ => .removeFinalizer terminating carries)
              site.fails_patch_iff) fun _ => .pure _
          · simp only [settled, if_false]
            exact .pure _
  | false =>
      have hvalid : plan.names.validate = .ok () :=
        passes.resolve_left (by simp [terminating])
      simp only [terminating, Bool.false_eq_true, if_false] at makes ⊢
      rw [maintain_eq, hvalid]
      have adds : Task.Accounts (site.MaySend plan owner) (Task.requestIf
          (!site.metadata.hasFinalizer operatorFinalizer) site.finalizerAddition decode) :=
        .requestIf (fun needed => .addFinalizer terminating (by simpa using needed))
          site.fails_patch_iff
      exact .bind (.pure ()) fun _ => .bind adds fun _ =>
        .bind ((accounts_reconcileNamespace plan owner).mono
          fun _ h => .maintain terminating (.surroundings h)) fun _ =>
            .bind (makes nofun) fun _ => .bind (accounts_writeStatus _) fun _ => .pure _

/-- The template was read, and the labels of the site were patched if there was need for it. -/
def Opens (site : Site) (trace : List AnsweredEffect) : Prop :=
  ∃ reply plan put, trace = sent (.get (Template.locator site.spec.templateName)) reply :: put ∧
    site.Composed trace plan ∧
    Task.SentIf (labelsNeedPatch site.metadata.labels plan.composition.labels)
      (.patch site.ownLocator (metadataPatch "labels" (.textMap plan.composition.labels))) put

/-- A check of the operator has ended a reconcile: there is no template, or the specs conflict or
cannot be rendered, right after the template was read; or metadata is missing or the name is too
long, once the labels of the site are in place. -/
inductive Rejects (site : Site) : List AnsweredEffect → Fault → Prop where
  | template {reply : Reply} {template : Option Template} {fault : Fault}
      (found : reply.found Template.decode = .ok template)
      (h : resolveTemplate template site.spec.templateName site.isTerminating = .error fault) :
      Rejects site [sent (.get (Template.locator site.spec.templateName)) reply] fault
  | specs {reply : Reply} {template : Option Template} {labels : Option (Entries String)}
      {blocks : SpecBlocks} {fault : Fault}
      (found : reply.found Template.decode = .ok template)
      (resolved : resolveTemplate template site.spec.templateName site.isTerminating =
        .ok (labels, blocks))
      (h : Plan.compose site.name labels blocks site.spec.overrides = .error fault) :
      Rejects site [sent (.get (Template.locator site.spec.templateName)) reply] fault
  | metadata {trace : List AnsweredEffect} {fault : Fault} (opens : site.Opens trace)
      (h : site.ownerReference = .error fault) : Rejects site trace fault
  | name {trace : List AnsweredEffect} {plan : Plan} {reference : OwnerReference} {fault : Fault}
      (opens : site.Opens trace) (composed : site.Composed trace plan)
      (named : site.ownerReference = .ok reference) (alive : site.isTerminating = false)
      (h : plan.names.validate = .error fault) : Rejects site trace fault

/-- The checks of a reconcile admit a request after a trace. At first this is the request for the
template, and then the one for the labels of the site if there is need for it. Once the reconcile is
prepared and the name of the site has passed, no check is left, and all requests about the objects
of the site are admitted, whichever of them have been sent already. -/
inductive Admits (site : Site) (manager : String) : List AnsweredEffect → Request → Prop where
  | template : Admits site manager [] (.get (Template.locator site.spec.templateName))
  | labels {reply : Reply} {plan : Plan}
      (composed : site.Composed [sent (.get (Template.locator site.spec.templateName)) reply] plan)
      (needed : labelsNeedPatch site.metadata.labels plan.composition.labels = true) :
      Admits site manager [sent (.get (Template.locator site.spec.templateName)) reply]
        (.patch site.ownLocator (metadataPatch "labels" (.textMap plan.composition.labels)))
  | objects {prep rest : List AnsweredEffect} {plan : Plan} {owner : SiteOwner} {request : Request}
      (prepared : site.Prepared manager plan owner prep)
      (passes : site.isTerminating = true ∨ plan.names.validate = .ok ())
      (h : site.MaySend plan owner request) : Admits site manager (prep ++ rest) request

theorem Opens.allSucceed (h : site.Opens trace) : AllSucceed trace := by
  obtain ⟨reply, plan, put, rfl, ⟨_, _, _, _, _, heq, found, -, -⟩, hput⟩ := h
  obtain ⟨-, rfl⟩ := sent_inj (List.cons.inj heq).1
  exact AllSucceed.chains.append (AllSucceed.sent (not_fails_readTemplate found)) hput.succeeds

namespace Rejects

/-- When a check ends a reconcile, no request has failed. -/
theorem allSucceed (h : site.Rejects trace fault) : AllSucceed trace := by
  cases h with
  | template found | specs found => exact AllSucceed.sent (not_fails_readTemplate found)
  | metadata opens | name opens => exact opens.allSucceed

theorem reason (h : site.Rejects trace fault) :
    fault.reason ∈ ["TemplateNotFound", "SpecTypeMismatch", "SpecRenderFailed", "MissingMetadata",
      "NameTooLong"] := by
  cases h with
  | @template reply template _ _ h =>
      unfold resolveTemplate at h
      split at h
      · cases h
      · split at h
        · cases h
        · cases h
          simp [Fault.reason]
  | specs _ _ h =>
      have hreason := Plan.reason_of_compose_error h
      simp only [List.mem_cons, List.not_mem_nil, or_false] at hreason ⊢
      exact Or.inr (hreason.imp_right Or.inl)
  | metadata _ h => simp [reason_of_ownerReference_eq_error h]
  | name _ _ _ _ h => simp [SiteNames.reason_of_validate_eq_error h]

/-- Right after the template was read, a check has ended the reconcile only if no plan was composed.
-/
theorem not_composed {reply : Reply} {template : Option Template}
    (found : reply.found Template.decode = .ok template)
    (refused : ∀ labels blocks plan,
      resolveTemplate template site.spec.templateName site.isTerminating = .ok (labels, blocks) →
        Plan.compose site.name labels blocks site.spec.overrides ≠ .ok plan) :
    ¬ site.Composed [sent (.get (Template.locator site.spec.templateName)) reply] plan := by
  rintro ⟨_, _, _, labels, blocks, heq, hfound, hresolve, hcompose⟩
  obtain ⟨-, rfl⟩ := sent_inj (List.cons.inj heq).1
  cases found.symm.trans hfound
  exact refused labels blocks plan hresolve hcompose

/-- When one of the checks has ended a reconcile, no request is admitted. -/
theorem not_admits (h : site.Rejects trace fault) : ¬ site.Admits manager trace request := by
  have composes (admits : site.Admits manager trace request) : trace = [] ∨
      ∃ plan, site.Composed trace plan := by
    cases admits with
    | template => exact Or.inl rfl
    | labels composed => exact Or.inr ⟨_, composed⟩
    | objects prepared => exact Or.inr ⟨_, prepared.composed.append _⟩
  -- After the labels, it is the labels themselves or a check that comes next, never both.
  have opened (opens : site.Opens trace) (admits : site.Admits manager trace request) :
      ∃ prep rest plan owner, trace = prep ++ rest ∧ site.Prepared manager plan owner prep ∧
        (site.isTerminating = true ∨ plan.names.validate = .ok ()) := by
    obtain ⟨reply, plan, put, rfl, composed, hput⟩ := opens
    generalize hopened : sent (.get (Template.locator site.spec.templateName)) reply :: put =
      opened at admits composed
    cases admits with
    | template => cases hopened
    | labels composed' needed =>
        obtain ⟨-, rfl⟩ := List.cons.inj hopened
        obtain rfl := composed.unique composed'
        rcases hput with ⟨-, answer, heq, -⟩ | ⟨unneeded, -⟩
        · cases heq
        · rw [unneeded] at needed
          cases needed
    | objects prepared passes => exact ⟨_, _, _, _, rfl, prepared, passes⟩
  intro admits
  cases h with
  | template found h =>
      rcases composes admits with heq | ⟨plan, composed⟩
      · cases heq
      · refine not_composed found (fun labels blocks plan hresolve => ?_) composed
        cases h.symm.trans hresolve
  | specs found resolved h =>
      rcases composes admits with heq | ⟨plan, composed⟩
      · cases heq
      · refine not_composed found (fun labels blocks plan hresolve hcompose => ?_) composed
        cases resolved.symm.trans hresolve
        cases h.symm.trans hcompose
  | metadata opens h =>
      obtain ⟨prep, rest, plan, owner, rfl, prepared, -⟩ := opened opens admits
      obtain ⟨reference, hreference, -⟩ := prepared.owner
      cases h.symm.trans (ownerReference_eq_ok_iff.mpr hreference)
  | name opens composed _ alive h =>
      obtain ⟨prep, rest, plan, owner, rfl, prepared, passes⟩ := opened opens admits
      obtain rfl := composed.unique (prepared.composed.append rest)
      rcases passes with terminating | hvalid
      · exact Bool.false_ne_true (alive.symm.trans terminating)
      · cases h.symm.trans hvalid

end Rejects

/-- The preparations fail because of the API, or one of the checks ends them, or they have come
through with the labels of the site in place. -/
theorem runs_prepare_cases {result : Except Raised (Plan × SiteOwner)}
    (run : (site.prepare manager).Runs trace result) :
    (∃ error, result = .error error ∧ error.ByApi ∧ Blames (site.Admits manager trace) trace) ∨
      (∃ fault, result = .error (.ofFault fault) ∧ site.Rejects trace fault) ∨
      site.Opens trace ∧ ∃ prepared, result = .ok prepared := by
  rcases Task.runs_bind_iff.mp run with
    ⟨error, hfind, rfl⟩ | ⟨first, template, rest, rfl, hfind, resolves⟩
  · rcases Task.runs_find?_iff.mp hfind with ⟨hwire, rfl, heq⟩ | ⟨-, reply, rfl, heq⟩
    · cases heq
      exact Or.inl ⟨_, rfl, .ofFault none, .unsendable hwire .template⟩
    · refine Or.inl ⟨error, rfl, Reply.byApi_of_found heq.symm, .sent ?_ List.mem_cons_self⟩
      rw [site.fails_readTemplate_iff, ← heq]
      rfl
  rcases Task.runs_find?_iff.mp hfind with ⟨-, -, heq⟩ | ⟨-, reply, rfl, hreply⟩
  · cases heq
  rcases Task.runs_ofExcept_bind_iff.mp resolves with
    ⟨fault, hfault, rfl, rfl⟩ | ⟨⟨labels, blocks⟩, hresolve, composes⟩
  · exact Or.inr (Or.inl ⟨fault, rfl, .template hreply.symm hfault⟩)
  rcases Task.runs_ofExcept_bind_iff.mp composes with
    ⟨fault, hfault, rfl, rfl⟩ | ⟨plan, hcompose, puts⟩
  · exact Or.inr (Or.inl ⟨fault, rfl, .specs hreply.symm hresolve hfault⟩)
  have composed (rest : List AnsweredEffect) : site.Composed
      (sent (.get (Template.locator site.spec.templateName)) reply :: rest) plan :=
    ⟨reply, rest, template, labels, blocks, rfl, hreply.symm, hresolve, hcompose⟩
  rcases Task.runs_bind_iff.mp puts with ⟨error, hput, rfl⟩ | ⟨put, _, last, rfl, hput, refers⟩
  · rw [patchLabels_eq] at hput
    have accounts : Task.Accounts (fun _ => True) (Task.requestIf
        (labelsNeedPatch site.metadata.labels plan.composition.labels)
        (.patch site.ownLocator (metadataPatch "labels" (.textMap plan.composition.labels)))
        decode) := .requestIf (fun _ => trivial) site.fails_patch_iff
    refine Or.inl ⟨error, rfl, (accounts.blames _ _ hput).1, ?_⟩
    rcases Task.runs_requestIf site.fails_patch_iff hput with
      ⟨_, -, needed, rfl | ⟨answer, rfl, fails⟩⟩ | ⟨heq, -⟩
    · exact .unsendable (Task.wire?_of_unsent hput) (.labels (composed []) needed)
    · exact .sent fails (List.mem_cons_of_mem _ List.mem_cons_self)
    · cases heq
  rw [patchLabels_eq] at hput
  have opens : site.Opens (sent (.get (Template.locator site.spec.templateName)) reply :: put) := by
    rcases Task.runs_requestIf site.fails_patch_iff hput with ⟨_, heq, -⟩ | ⟨-, hsent⟩
    · cases heq
    · exact ⟨reply, plan, put, rfl, composed put, hsent⟩
  rcases Task.runs_ofExcept_bind_iff.mp refers with ⟨fault, hfault, rfl, rfl⟩ | ⟨reference, -, ends⟩
  · rw [List.append_nil]
    exact Or.inr (Or.inl ⟨fault, rfl, .metadata opens hfault⟩)
  · obtain ⟨rfl, rfl⟩ := Task.runs_pure_iff.mp ends
    rw [List.append_nil]
    exact Or.inr (Or.inr ⟨opens, _, rfl⟩)

/-- A reconcile fails because of the API, which accounts for it, or one of its checks ends it. -/
theorem runs_reconcile_error_cases (run : (site.reconcile manager now).Runs trace (.error error)) :
    (error.ByApi ∧ Blames (site.Admits manager trace) trace) ∨
      ∃ fault, error = .ofFault fault ∧ site.Rejects trace fault := by
  rw [reconcile_eq] at run
  rcases Task.runs_bind_iff.mp run with
    ⟨cause, hprepare, heq⟩ | ⟨prep, ⟨plan, owner⟩, rest, rfl, hprepare, run⟩
  · cases heq
    rcases runs_prepare_cases hprepare with ⟨_, heq, h⟩ | ⟨fault, heq, rejects⟩ | ⟨-, _, heq⟩
    · cases heq
      exact Or.inl h
    · cases heq
      exact Or.inr ⟨fault, rfl, rejects⟩
    · cases heq
  have prepared := runs_prepare hprepare
  by_cases passes : site.isTerminating = true ∨ plan.names.validate = .ok ()
  · obtain ⟨byApi, blames⟩ := (accounts_proceed prepared.composed passes).blames _ _ run
    exact Or.inl ⟨byApi, blames.mono (List.subset_append_right _ _)
      fun _ => .objects prepared passes⟩
  obtain ⟨kept, toolong⟩ := not_or.mp passes
  have alive : site.isTerminating = false := by simpa using kept
  obtain ⟨fault, hfault⟩ : ∃ fault, plan.names.validate = .error fault := by
    cases h : plan.names.validate with
    | ok => exact absurd h toolong
    | error fault => exact ⟨fault, rfl⟩
  have opens : site.Opens prep := by
    rcases runs_prepare_cases hprepare with ⟨_, heq, -⟩ | ⟨_, heq, -⟩ | ⟨opens, -⟩
    · cases heq
    · cases heq
    · exact opens
  obtain ⟨reference, hreference, -⟩ := prepared.owner
  simp only [proceed, alive, Bool.false_eq_true, if_false, maintain_eq, hfault] at run
  rcases Task.runs_ofExcept_bind_iff.mp run with ⟨_, heq, rfl, hresult⟩ | ⟨_, heq, -⟩
  · cases heq
    cases hresult
    rw [List.append_nil]
    exact Or.inr ⟨fault, rfl, .name opens prepared.composed
      (ownerReference_eq_ok_iff.mpr hreference) alive hfault⟩
  · cases heq

/-- A reconcile that fails does so because of the API if and only if a request has failed, or one
that the checks admit cannot be sent. -/
theorem byApi_iff_blames (run : (site.reconcile manager now).Runs trace (.error error)) :
    error.ByApi ↔ Blames (site.Admits manager trace) trace := by
  rcases runs_reconcile_error_cases run with ⟨byApi, blames⟩ | ⟨fault, rfl, rejects⟩
  · exact iff_of_true byApi blames
  · refine iff_of_false (fun byApi => ?_) ?_
    · have hreason := rejects.reason
      rw [show fault.reason = "KubeApiError" from byApi.reason] at hreason
      exact absurd hreason (by decide)
    · rintro (⟨request, reply, hmem, fails⟩ | ⟨request, admits, -⟩)
      · exact rejects.allSucceed request reply hmem fails
      · exact rejects.not_admits admits

theorem strict_proceed (composed : site.Composed prep plan) :
    Task.Strict (site.proceed plan owner now) := by
  by_cases passes : site.isTerminating = true ∨ plan.names.validate = .ok ()
  · exact (accounts_proceed composed passes).strict
  · obtain ⟨alive, toolong⟩ := not_or.mp passes
    intro trace progress run
    simp only [proceed, alive, Bool.false_eq_true, if_false, maintain_eq] at run
    rcases Task.runs_ofExcept_bind_iff.mp run with ⟨_, -, -, heq⟩ | ⟨⟨⟩, hvalid, -⟩
    · cases heq
    · exact absurd hvalid toolong

/-- No request of a reconcile that has a result has failed. -/
theorem strict_reconcile (site : Site) (manager now : String) :
    Task.Strict (site.reconcile manager now) := by
  intro trace progress run
  obtain ⟨prep, rest, rfl, -, ⟨-, error, heq⟩ | ⟨plan, owner, prepared, hproceed⟩⟩ :=
    runs_reconcile run
  · cases heq
  · exact AllSucceed.chains.append prepared.succeeds
      (strict_proceed prepared.composed _ _ hproceed)

end Site

end SiteOperator
