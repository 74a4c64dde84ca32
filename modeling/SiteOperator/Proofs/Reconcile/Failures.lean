import SiteOperator.Proofs.Reconcile.Faults
import SiteOperator.Proofs.Reconcile.Lifetime

/-!
# What a failing reconcile leaves behind

Whatever can fail without the API fails before the first write: a conflict between the specs ends a
reconcile right after the template was read, and missing metadata or too long a name ends it before
anything but the labels of the site was written (`Site.runs_prepare_cases`). Every later failure is
one of the API. If it is a call of the pass that fails, the reconcile ends there, so neither the
status nor the finalizer of the site is touched any more (`Site.runs_proceed_cases`).
-/

namespace SiteOperator

/-- Requests about dependents leave every site alone. -/
theorem Request.leaves_site {request : Request} {d : DependentSpec}
    (h : ∀ wire, request.wire? = some wire → Cluster.target wire = d.locator.wirePath)
    (site : Site) : request.Leaves site.ownLocator := by
  refine leaves_of_target_ne fun wire hwire heq => ?_
  have hdependent :=
    Locator.starts_wirePath (show d.locator.type ∈ _ from d.kind.resourceType_mem_known)
  have hsite :=
    Locator.starts_wirePath
      (show site.ownLocator.type ∈ _ from show Site.resourceType ∈ _ by decide)
  rw [← h wire hwire, heq] at hdependent
  exact d.kind.not_starts (show Site.resourceType ∈ _ by decide) hsite hdependent

namespace SiteOwner

/-- The calls of a pass leave the site alone. -/
theorem performed_leaves_site {owner : SiteOwner} {made : List Pass.AnsweredCall}
    {events : List AnsweredEffect} (performed : Dialogue.Performed owner.perform made events)
    (site : Site) : OnlySends (·.Leaves site.ownLocator) events := by
  refine performed_onlySends performed fun call _ request h => ?_
  cases call with
  | observe d =>
      obtain rfl := List.mem_singleton.mp h
      exact Request.leaves_get _ _
  | apply d =>
      obtain rfl := List.mem_singleton.mp h
      exact Request.leaves_site (fun _ => Request.target_apply) site
  | delete d =>
      rcases mem_requests_delete_iff.mp h with rfl | rfl
      · exact Request.leaves_get _ _
      · exact Request.leaves_site (fun _ hwire => (Request.wire_delete hwire).2) site

end SiteOwner

namespace Site

variable {site : Site} {manager now : String} {plan : Plan} {owner : SiteOwner}
  {trace prep : List AnsweredEffect} {result : Except Raised Progress} {error : Raised}

inductive Precedes (site : Site) (request : Request) : Prop where
  | prepares (h : site.Prepares request)
  | addsFinalizer (h : request = site.finalizerAddition)
  | surrounds {plan : Plan} {owner : SiteOwner} (h : plan.Surrounds owner request)

/-- The parts of a trace that the pass over the dependents of the site divides it into. After the
pass only the site itself is written. -/
structure MakesPass (site : Site) (plan : Plan) (owner : SiteOwner) (now : String)
    (before events after : List AnsweredEffect) (made : List Pass.AnsweredCall)
    (ended : PassResult) : Prop where
  before : OnlySends site.Precedes before
  runs : (site.pass plan now).Runs made ended
  performed : Dialogue.Performed owner.perform made events
  after : OnlySends (fun request => request.object = site.ownLocator) after

/-- If what goes on after a pass only writes the site itself, then so does what follows the pass,
and a pass that fails is the end. -/
theorem onlySends_after_pass {ended : PassResult} {after : List AnsweredEffect}
    {next : Progress × StatusDraft → Task Progress}
    (hnext : ∀ concluded, Task.Always (OnlySends fun request => request.object = site.ownLocator)
      (next concluded))
    (h : (∃ error, ended.outcome = .error error ∧ after = [] ∧ result = .error error) ∨
      ∃ progress, ended.outcome = .ok progress ∧
        (next (progress, ended.draft)).Runs after result) :
    OnlySends (fun request => request.object = site.ownLocator) after ∧
      ∀ error, ended.outcome = .error error → after = [] ∧ result = .error error := by
  rcases h with ⟨error, houtcome, rfl, rfl⟩ | ⟨progress, houtcome, hrest⟩
  · refine ⟨(OnlySends.chains _).nil, fun cause hcause => ⟨rfl, ?_⟩⟩
    cases houtcome.symm.trans hcause
    rfl
  · refine ⟨hnext _ _ _ hrest, fun cause hcause => ?_⟩
    cases houtcome.symm.trans hcause

/-- A site that is being deleted and carries the finalizer is finalized by a pass. -/
theorem runs_finalize_pass (terminating : site.isTerminating = true)
    (carries : site.metadata.hasFinalizer operatorFinalizer = true)
    (run : (site.finalize plan owner now).Runs trace result) :
    ∃ events after made ended, trace = events ++ after ∧
      site.MakesPass plan owner now [] events after made ended ∧
      ∀ error, ended.outcome = .error error → after = [] ∧ result = .error error := by
  obtain ⟨events, after, made, ended, rfl, hmade, performed, hend⟩ := runs_finalize carries run
  have hnext (concluded : Progress × StatusDraft) : Task.Always
      (OnlySends fun request => request.object = site.ownLocator)
      (site.endFinalizing concluded.1 concluded.2) := by
    refine fun _ _ run => (endFinalizing_onlySends _ _ _ _ run).mono ?_
    rintro request (⟨status, rfl⟩ | rfl) <;> rfl
  obtain ⟨hafter, hfails⟩ := onlySends_after_pass hnext hend
  have hpass : site.pass plan now = Pass.finalize plan now (.ofCurrent site.status) := by
    simp [pass, terminating]
  exact ⟨events, after, made, ended, rfl,
    ⟨(OnlySends.chains _).nil, hpass ▸ hmade, performed, hafter⟩, hfails⟩

/-- A site that is not being deleted is maintained by a pass, unless the reconcile fails before. -/
theorem runs_maintain_pass (alive : site.isTerminating = false)
    (run : (site.maintain plan owner now).Runs trace result) :
    (OnlySends site.Precedes trace ∧ ∃ error, result = .error error) ∨
      ∃ before events after made ended, trace = before ++ (events ++ after) ∧
        site.MakesPass plan owner now before events after made ended ∧
        ∀ error, ended.outcome = .error error → after = [] ∧ result = .error error := by
  have chains := OnlySends.chains (fun request => request.object = site.ownLocator)
  obtain ⟨added, rest, rfl, hadded, ⟨rfl, failed⟩ | ⟨-, run⟩⟩ := runs_maintain run
  · rw [List.append_nil]
    exact Or.inl ⟨hadded.mono fun _ => .addsFinalizer, failed⟩
  have precedes : OnlySends site.Precedes added := hadded.mono fun _ => .addsFinalizer
  rcases Task.runs_bind_iff.mp run with ⟨error, hns, rfl⟩ | ⟨first, _, last, rfl, hns, run⟩
  · exact Or.inl ⟨(OnlySends.chains _).append precedes
      ((reconcileNamespace_onlySends plan owner _ _ hns).mono fun _ => .surrounds), error, rfl⟩
  obtain ⟨events, after, made, ended, rfl, hmade, performed, hend⟩ :=
    SiteOwner.runs_runPass_bind run
  have hnext (concluded : Progress × StatusDraft) : Task.Always
      (OnlySends fun request => request.object = site.ownLocator) (do
        site.writeStatus concluded.2
        pure concluded.1) := by
    rw [writeStatus_eq]
    exact .bind chains (.requestIf chains fun _ =>
      OnlySends.sent (P := fun request => _ = site.ownLocator) rfl) fun _ => .pure chains _
  obtain ⟨hafter, hfails⟩ := onlySends_after_pass hnext hend
  have hpass : site.pass plan now = if site.spec.isSuspended then
      Pass.suspend plan now (.ofCurrent site.status)
      else Pass.present plan now (.ofCurrent site.status) := by
    simp [pass, alive]
  exact Or.inr ⟨added ++ first, events, after, made, ended, (List.append_assoc _ _ _).symm,
    ⟨(OnlySends.chains _).append precedes
      ((reconcileNamespace_onlySends plan owner _ _ hns).mono fun _ => .surrounds),
      hpass ▸ hmade, performed, hafter⟩, hfails⟩

/-- A prepared reconcile ends before its pass, or makes it. A pass that fails is the end. -/
theorem runs_proceed_pass (run : (site.proceed plan owner now).Runs trace result) :
    (OnlySends site.Precedes trace ∧
        (site.isTerminating = true ∨ ∃ error, result = .error error)) ∨
      ∃ before events after made ended, trace = before ++ (events ++ after) ∧
        site.MakesPass plan owner now before events after made ended ∧
        ∀ error, ended.outcome = .error error → after = [] ∧ result = .error error := by
  unfold proceed at run
  cases terminating : site.isTerminating with
  | true =>
      simp only [terminating, if_true] at run
      cases carries : site.metadata.hasFinalizer operatorFinalizer with
      | false =>
          simp only [finalize, carries, Bool.false_eq_true, if_false] at run
          obtain ⟨rfl, -⟩ := Task.runs_pure_iff.mp run
          exact Or.inl ⟨(OnlySends.chains _).nil, Or.inl rfl⟩
      | true =>
          obtain ⟨events, after, made, ended, rfl, makes⟩ :=
            runs_finalize_pass terminating carries run
          exact Or.inr ⟨[], events, after, made, ended, rfl, makes⟩
  | false =>
      simp only [terminating, Bool.false_eq_true, if_false] at run
      exact (runs_maintain_pass terminating run).imp_left (And.imp_right Or.inr)

def WritesLabelsOnly (site : Site) (trace : List AnsweredEffect) : Prop :=
  ∃ reply put, trace = sent (.get (Template.locator site.spec.templateName)) reply :: put ∧
    (put = [] ∨ ∃ labels answer,
      put = [sent (.patch site.ownLocator (metadataPatch "labels" (.textMap labels))) answer])

theorem Opens.writesLabelsOnly (h : site.Opens trace) : site.WritesLabelsOnly trace := by
  obtain ⟨reply, plan, put, rfl, -, ⟨-, answer, rfl, -⟩ | ⟨-, rfl⟩⟩ := h
  · exact ⟨reply, _, rfl, Or.inr ⟨_, answer, rfl⟩⟩
  · exact ⟨reply, _, rfl, Or.inl rfl⟩

/-- A reconcile fails because of the API, or right after the template was read, or with nothing but
the labels of the site written, and then because of its metadata or its name. -/
theorem runs_reconcile_error (run : (site.reconcile manager now).Runs trace (.error error)) :
    error.ByApi ∨
      (∃ reply, trace = [sent (.get (Template.locator site.spec.templateName)) reply]) ∨
      site.WritesLabelsOnly trace ∧ error.classify.reason ∈ ["MissingMetadata", "NameTooLong"] := by
  rcases runs_reconcile_error_cases run with ⟨byApi, -⟩ | ⟨fault, rfl, rejects⟩
  · exact Or.inl byApi
  refine Or.inr ?_
  rw [Raised.classify_ofFault]
  cases rejects with
  | template | specs => exact Or.inl ⟨_, rfl⟩
  | metadata opens h =>
      refine Or.inr ⟨opens.writesLabelsOnly, ?_⟩
      rw [reason_of_ownerReference_eq_error h]
      exact List.mem_cons_self
  | name opens _ _ _ h =>
      refine Or.inr ⟨opens.writesLabelsOnly, ?_⟩
      rw [SiteNames.reason_of_validate_eq_error h]
      exact List.mem_cons_of_mem _ List.mem_cons_self

/-- What a failing reconcile leaves behind. If there is no template, or if the specs conflict or
cannot be rendered, it has read the template and sent nothing else, so nothing has changed; if
metadata is missing or the name is too long, the labels of the site are all that it may have
written. A call that fails within the pass over the dependents is the end of the reconcile, which
then leaves the site, with its status and its finalizers, as it was before the pass. A reconcile
that makes no pass, because it has failed before or because nothing holds on to a site that is being
deleted, writes no status and removes no finalizer. -/
theorem failures_leave_cluster (run : (site.reconcile manager now).Runs trace result) :
    (∀ error, result = .error error →
      error.classify.reason ∈ ["TemplateNotFound", "SpecTypeMismatch", "SpecRenderFailed"] →
      (∃ reply, trace = [sent (.get (Template.locator site.spec.templateName)) reply]) ∧
        ∀ cluster last, Served cluster trace last → last = cluster) ∧
      (∀ error, result = .error error →
        error.classify.reason ∈ ["MissingMetadata", "NameTooLong"] →
        site.WritesLabelsOnly trace) ∧
      ((OnlySends site.Precedes trace ∧
          (site.isTerminating = true ∨ ∃ error, result = .error error)) ∨
        ∃ plan owner before events after made ended,
          trace = before ++ (events ++ after) ∧ site.Composed trace plan ∧
          site.MakesPass plan owner now before events after made ended ∧
          ∀ e ∈ made, ∀ error, Pass.failure? e = some error →
            after = [] ∧ result = .error error ∧
            ∀ cluster last, Served cluster trace last → ∃ middle, Served cluster before middle ∧
              last.stored? site.ownLocator = middle.stored? site.ownLocator) := by
  refine ⟨?_, ?_, ?_⟩
  · rintro error rfl hreason
    rcases runs_reconcile_error run with byApi | ⟨reply, rfl⟩ | ⟨-, hlabels⟩
    · rw [byApi.reason] at hreason
      exact absurd hreason (by decide)
    · exact ⟨⟨reply, rfl⟩, fun cluster last served => served.of_singleton.of_get.1⟩
    · simp only [List.mem_cons, List.not_mem_nil, or_false] at hreason hlabels
      rcases hlabels with heq | heq <;> simp [heq] at hreason
  · rintro error rfl hreason
    rcases runs_reconcile_error run with byApi | ⟨reply, rfl⟩ | ⟨hlabels, -⟩
    · rw [byApi.reason] at hreason
      exact absurd hreason (by decide)
    · exact ⟨reply, [], rfl, Or.inl rfl⟩
    · exact hlabels
  · obtain ⟨prep, rest, rfl, prepares, ⟨rfl, failed⟩ | ⟨plan, owner, prepared, hproceed⟩⟩ :=
      runs_reconcile run
    · rw [List.append_nil]
      exact Or.inl ⟨prepares.mono fun _ => .prepares, Or.inr failed⟩
    have precedes : OnlySends site.Precedes prep := prepares.mono fun _ => .prepares
    rcases runs_proceed_pass hproceed with
      ⟨quiet, ends⟩ | ⟨before, events, after, made, ended, rfl, makes, hfails⟩
    · exact Or.inl ⟨(OnlySends.chains _).append precedes quiet, ends⟩
    refine Or.inr ⟨plan, owner, prep ++ before, events, after, made, ended,
      (List.append_assoc _ _ _).symm, prepared.composed.append _,
      ⟨(OnlySends.chains _).append precedes makes.before, makes.runs, makes.performed,
        makes.after⟩, ?_⟩
    intro e he error hfailure
    have houtcome : ended.outcome = .error error := by
      rcases site.pass_outcome prepared.composed makes.runs with
        ⟨cause, ⟨first, final, rfl, hfinal, hnone⟩, houtcome⟩ | ⟨hnone, -⟩
      · rcases List.mem_append.mp he with he | he
        · rw [hnone e he] at hfailure
          cases hfailure
        · rw [List.mem_singleton.mp he, hfinal] at hfailure
          cases hfailure
          exact houtcome
      · rw [hnone e he] at hfailure
        cases hfailure
    obtain ⟨rfl, hresult⟩ := hfails error houtcome
    refine ⟨rfl, hresult, fun cluster last served => ?_⟩
    rw [← List.append_assoc] at served
    obtain ⟨middle, hbefore, hafter⟩ := served.of_append
    rw [List.append_nil] at hafter
    exact ⟨middle, hbefore,
      hafter.stored?_eq (SiteOwner.performed_leaves_site makes.performed site)⟩

set_option maxRecDepth 10000 in
/-- A new site whose template does not exist. -/
theorem failures_leave_cluster_of_missing_template :
    ∃ trace error reply, (Lifetime.newSite.reconcile "manager" "now").Runs trace (.error error) ∧
      error.classify = .templateNotFound "t" ∧
      trace = [sent (.get (Template.locator "t")) reply] := by
  have run := Dialogue.runs_transcript answerLeaving
    (Lifetime.newSite.reconcile "manager" "now").run ()
  have hresult : (Dialogue.run answerLeaving (Lifetime.newSite.reconcile "manager" "now").run
      ()).1 = .error (.ofFault (.templateNotFound "t")) := rfl
  rw [hresult] at run
  have hfault := Raised.classify_ofFault (.templateNotFound "t")
  have hreason : (Raised.ofFault (.templateNotFound "t")).classify.reason = "TemplateNotFound" :=
    rfl
  obtain ⟨⟨reply, htrace⟩, -⟩ := (failures_leave_cluster run).1 _ rfl (hreason ▸ List.mem_cons_self)
  exact ⟨_, _, reply, run, hfault, htrace⟩

end Site

end SiteOperator
