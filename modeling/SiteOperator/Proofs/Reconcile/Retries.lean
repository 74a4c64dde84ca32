import SiteOperator.Proofs.Reconcile.DeletionGuard
import SiteOperator.Reconcile.Attempt

/-!
# When a failed reconcile is made again

The error of a reconcile is always a fault, so the context that it has gathered does not change what
it is taken for, and it is never taken for a mere failure of an operation. What the operator waits
for before it tries again depends on the fault: the interval for errors if it may pass by itself,
which of those that end a reconcile are a failure of the API, a missing template and a template in
use, and the interval of a settled site otherwise (`Raised.Handled`).
-/

namespace SiteOperator

namespace Fault

/-- The reasons of the faults of a reconcile that may pass by themselves. -/
def passing : List String := ["KubeApiError", "TemplateNotFound", "TemplateInUse"]

theorem transient_iff {fault : Fault} (h : fault.reason ≠ "OperationFailed") :
    fault.transient = true ↔ fault.reason ∈ passing := by
  cases fault with
  | operation text => exact absurd rfl h
  | templateNotFound | templateInUse | typeMismatch | render | missingMetadata | nameTooLong
  | api =>
      simp [transient, reason, passing]

end Fault

/-- What is made of the error that ends a reconcile. It is the same fault whatever context it has
gathered, it is not just any operation that has failed, and the next attempt is due after the
interval for errors if the fault may pass by itself, and otherwise after that of a settled site. -/
structure Raised.Handled (error : Raised) : Prop where
  contexts : ∀ contexts, (Raised.mk error.cause contexts).classify = error.classify
  specific : error.classify.reason ≠ "OperationFailed"
  retried : ∀ intervals resource awaited registry,
    (Attempt.conclude intervals resource awaited (.error error) registry).1 =
      ⟨if error.classify.reason ∈ Fault.passing then intervals.error else intervals.settled,
        some error.classify⟩

theorem Raised.handled_of_fault {error : Raised} {fault : Fault}
    (hcause : error.cause = .fault fault) (specific : fault.reason ≠ "OperationFailed") :
    error.Handled := by
  have hclassify (contexts : List String) : (Raised.mk error.cause contexts).classify = fault := by
    rw [hcause]
    rfl
  refine ⟨fun contexts => (hclassify contexts).trans (hclassify error.contexts).symm,
    (hclassify error.contexts) ▸ specific, fun intervals resource awaited registry => ?_⟩
  have hfault : error.classify = fault := hclassify error.contexts
  simp only [Attempt.conclude, Intervals.afterFault, hfault, Fault.transient_iff specific]

theorem Raised.ByApi.handled {error : Raised} (h : error.ByApi) : error.Handled := by
  obtain ⟨code, hcause⟩ := h
  exact handled_of_fault hcause (by simp [Fault.reason])

namespace Template

variable {template : Template} {sites : List String} {cache : SiteCache}
  {trace : List AnsweredEffect} {error : Raised}

theorem fails_patch_iff (template : Template) {body : Json} (reply : Reply) :
    (Request.patch template.ownLocator body).Fails reply ↔
      (reply.received decode).isOk = false := by
  rw [Request.Fails, template.isOk_received_ownLocator]

/-- Once the sites are published, a reconcile fails because sites hold the template or because of
the API. -/
theorem runs_conclude_error (run : (template.conclude sites).Runs trace (.error error)) :
    error.ByApi ∨ error = .ofFault (.templateInUse template.name sites.length) := by
  generalize hresult : Except.error error = result at run
  cases runs_conclude run with
  | kept alive =>
      have accounts : Task.Accounts (fun _ => True) (template.conclude sites) := by
        unfold conclude
        simp only [alive, Bool.not_false, if_true, Task.ensureFinalizer_eq]
        exact .bind (.requestIf (fun _ => trivial) template.fails_patch_iff) fun _ => .pure _
      exact Or.inl (accounts.blames _ _ (hresult ▸ run)).1
  | gone => cases hresult
  | held =>
      cases hresult
      exact Or.inr rfl
  | unsent =>
      cases hresult
      exact Or.inl (.ofFault none)
  | removed _ _ _ _ reply =>
      cases hreply : reply.received decode with
      | ok x =>
          rw [hreply] at hresult
          cases hresult
      | error cause =>
          rw [hreply] at hresult
          cases hresult
          exact Or.inl (Reply.byApi_of_received hreply)

/-- A reconcile of a template fails because of the API, or because sites hold the template. -/
theorem runs_reconcile_error (run : (template.reconcile cache).Runs trace (.error error)) :
    error.ByApi ∨ ∃ count, error = .ofFault (.templateInUse template.name count) := by
  unfold reconcile at run
  split at run
  · rw [reconcileSynced_eq, Task.runs_record_bind_iff] at run
    obtain ⟨rest, -, run⟩ := run
    rcases Task.runs_bind_iff.mp run with ⟨cause, hwrite, heq⟩ | ⟨_, _, last, -, -, hconclude⟩
    · cases heq
      rw [writeStatus_eq] at hwrite
      have accounts {needed : Bool} {body : Json} : Task.Accounts (fun _ => True)
          (Task.requestIf needed (.patchStatus template.ownLocator body) decode) :=
        .requestIf (fun _ => trivial) template.fails_patchStatus_iff
      exact Or.inl (accounts.blames _ _ hwrite).1
    · exact (runs_conclude_error hconclude).imp_right fun heq => ⟨_, heq⟩
  · cases (Task.runs_pure_iff.mp run).2

end Template

/-- What failures come to. Whatever the API answers, a reconcile of a site that fails has the error
of the API exactly if a request that was sent has failed, where not to find an object that is looked
for or deleted is no failure, or one that its checks admit cannot be sent. Otherwise one of the
checks of the operator has ended it. A reconcile of a template only fails with the error of the
API or because the template is in use. All of these errors are handled by their fault. -/
theorem failures_classified :
    (∀ (site : Site) (manager now : String) (trace : List AnsweredEffect) (error : Raised),
      (site.reconcile manager now).Runs trace (.error error) →
        (error.classify.reason = "KubeApiError" ↔ Blames (site.Admits manager trace) trace) ∧
        (error.classify.reason ≠ "KubeApiError" → error.classify.reason ∈
          ["TemplateNotFound", "SpecTypeMismatch", "SpecRenderFailed", "MissingMetadata",
            "NameTooLong"]) ∧
        error.Handled) ∧
    ∀ (template : Template) (cache : SiteCache) (trace : List AnsweredEffect) (error : Raised),
      (template.reconcile cache).Runs trace (.error error) →
        error.classify.reason ∈ ["TemplateInUse", "KubeApiError"] ∧ error.Handled := by
  constructor
  · intro site manager now trace error run
    have hblames := site.byApi_iff_blames run
    rcases site.runs_reconcile_error_cases run with ⟨byApi, blames⟩ | ⟨fault, rfl, rejects⟩
    · exact ⟨iff_of_true byApi.reason blames, fun h => absurd byApi.reason h, byApi.handled⟩
    · rw [Raised.classify_ofFault]
      have hreason := rejects.reason
      have hother : fault.reason ≠ "KubeApiError" ∧ fault.reason ≠ "OperationFailed" := by
        constructor
        · rintro heq
          rw [heq] at hreason
          exact absurd hreason (by decide)
        · rintro heq
          rw [heq] at hreason
          exact absurd hreason (by decide)
      refine ⟨iff_of_false hother.1 fun blames => ?_, fun _ => hreason,
        Raised.handled_of_fault rfl hother.2⟩
      exact hother.1 (hblames.mpr blames).reason
  · intro template cache trace error run
    rcases template.runs_reconcile_error run with byApi | ⟨count, rfl⟩
    · exact ⟨by simp [byApi.reason], byApi.handled⟩
    · exact ⟨List.mem_cons_self, Raised.handled_of_fault rfl (by simp [Fault.reason])⟩

set_option maxRecDepth 10000 in
/-- A new site whose template does not exist is looked at again after the interval for errors. No
request has failed. -/
theorem failures_classified_of_missing_template :
    ∃ trace error, (Lifetime.newSite.reconcile "manager" "now").Runs trace (.error error) ∧
      error.classify = .templateNotFound "t" ∧
      ¬ Blames (Lifetime.newSite.Admits "manager" trace) trace ∧
      (Attempt.conclude .standard "LMSMoodle" "dependant_wait" (.error error) .empty).1 =
        ⟨30, some (.templateNotFound "t")⟩ := by
  have run := Dialogue.runs_transcript Site.answerLeaving
    (Lifetime.newSite.reconcile "manager" "now").run ()
  have hresult : (Dialogue.run Site.answerLeaving
      (Lifetime.newSite.reconcile "manager" "now").run ()).1 =
        .error (.ofFault (.templateNotFound "t")) := rfl
  rw [hresult] at run
  obtain ⟨hblames, -, handled⟩ := failures_classified.1 _ _ _ _ _ run
  refine ⟨_, _, run, rfl, fun blames => absurd (hblames.mpr blames) (by decide), ?_⟩
  rw [handled.retried]
  rfl

end SiteOperator
