import SiteOperator.Proofs.Cache.References
import SiteOperator.Proofs.Cluster.Finalizers
import SiteOperator.Proofs.Cluster.Sendable
import SiteOperator.Proofs.Reconcile.Failures
import SiteOperator.Reconcile.Template

/-!
# The guard on the deletion of a template

Nothing is done about a template before the sites are known. From then on a reconcile publishes the
sites that reference the template first. What it does about the finalizer afterwards (`Concludes`)
depends on whether the template is being deleted, on whether it carries the finalizer, and on
whether any site references it. So a template loses its finalizer only once nothing references it
any more (`Template.deletion_guard`).
-/

namespace SiteOperator

namespace Template

variable {template : Template} {sites : List String} {trace rest : List AnsweredEffect}
  {result : Except Raised Progress}

def finalizerAddition (template : Template) : Request :=
  .patch template.ownLocator (metadataPatch "finalizers"
    (.strings (template.metadata.finalizerList ++ [operatorFinalizer])))

def finalizerRemoval (template : Template) : Request :=
  .patch template.ownLocator (metadataPatch "finalizers"
    (.strings (template.metadata.finalizerList.filter (· ≠ operatorFinalizer))))

def publication (template : Template) (sites : List String) : Request :=
  .patchStatus template.ownLocator
    (statusPatch (TemplateStatus.desired sites template.metadata.isTerminating).encode)

theorem not_removesFinalizer_finalizerAddition :
    ¬ template.finalizerAddition.RemovesFinalizer :=
  fun removes => removesFinalizer_patch_iff.mp removes (by simp)

theorem removesFinalizer_finalizerRemoval : template.finalizerRemoval.RemovesFinalizer :=
  removesFinalizer_patch_iff.mpr (by simp)

theorem writesStatus_publication : (template.publication sites).WritesStatus :=
  ⟨_, _, rfl, rfl⟩

theorem not_removesFinalizer_publication : ¬ (template.publication sites).RemovesFinalizer :=
  not_removesFinalizer_patchStatus

/-- The answer to a patch of a template is read as a template. -/
theorem isOk_received_ownLocator (template : Template) (reply : Reply) :
    (reply.received template.ownLocator.type.reader).isOk = (reply.received decode).isOk :=
  Reply.isOk_received_congr fun _ => Option.isSome_map

theorem fails_patchStatus_iff (template : Template) {body : Json} (reply : Reply) :
    (Request.patchStatus template.ownLocator body).Fails reply ↔
      (reply.received decode).isOk = false := by
  rw [Request.Fails, template.isOk_received_ownLocator]

theorem writeStatus_eq (template : Template) (desired : TemplateStatus) :
    template.writeStatus desired = Task.requestIf (decide (template.status ≠ some desired))
      (.patchStatus template.ownLocator (statusPatch desired.encode)) decode := by
  by_cases h : template.status = some desired <;> simp [writeStatus, Task.requestIf, h]

def conclude (template : Template) (sites : List String) : Task Progress :=
  if !template.metadata.isTerminating then do
    Task.ensureFinalizer template.ownLocator template.metadata decode
    pure .settled
  else if !template.metadata.hasFinalizer operatorFinalizer then pure .settled
  else do
    Task.ofExcept (checkDeletable template.name sites)
    Task.removeFinalizer template.ownLocator template.metadata decode
    pure .settled

theorem reconcileSynced_eq (template : Template) (sites : List String) :
    template.reconcileSynced sites =
      Task.record (.references template.name sites.length) >>= fun _ =>
        template.writeStatus (.desired sites template.metadata.isTerminating) >>= fun _ =>
          template.conclude sites := rfl

/-- How a reconcile ends once the sites are published: the template is kept, or it is on its way out
and the finalizer is gone already, is held by the sites that reference the template, cannot be taken
away, or is taken away. -/
inductive Concludes (template : Template) (sites : List String) :
    List AnsweredEffect → Except Raised Progress → Prop where
  | kept {trace : List AnsweredEffect} {result : Except Raised Progress}
      (alive : template.metadata.isTerminating = false)
      (adds : OnlySends (· = template.finalizerAddition) trace) :
      Concludes template sites trace result
  | gone (terminating : template.metadata.isTerminating = true)
      (lacks : template.metadata.hasFinalizer operatorFinalizer = false) :
      Concludes template sites [] (.ok .settled)
  | held (terminating : template.metadata.isTerminating = true)
      (carries : template.metadata.hasFinalizer operatorFinalizer = true) (used : sites ≠ []) :
      Concludes template sites [] (.error (.ofFault (.templateInUse template.name sites.length)))
  | unsent (terminating : template.metadata.isTerminating = true)
      (carries : template.metadata.hasFinalizer operatorFinalizer = true) (unused : sites = [])
      (unsendable : ¬ template.ownLocator.Addressable) :
      Concludes template sites [] (.error (.ofFault (.api none)))
  | removed (terminating : template.metadata.isTerminating = true)
      (carries : template.metadata.hasFinalizer operatorFinalizer = true) (unused : sites = [])
      (sendable : template.ownLocator.Addressable) (reply : Reply) :
      Concludes template sites [sent template.finalizerRemoval reply]
        ((reply.received decode).map fun _ => .settled)

theorem runs_conclude (run : (template.conclude sites).Runs trace result) :
    template.Concludes sites trace result := by
  unfold conclude at run
  cases terminating : template.metadata.isTerminating with
  | false =>
      simp only [terminating, Bool.not_false, if_true, Task.ensureFinalizer_eq] at run
      have chains := OnlySends.chains (· = template.finalizerAddition)
      exact .kept terminating (Task.Always.bind chains (.requestIf chains fun _ reply =>
        OnlySends.sent (P := (· = template.finalizerAddition)) rfl reply)
        (fun _ => .pure chains _) _ _ run)
  | true =>
      cases carries : template.metadata.hasFinalizer operatorFinalizer with
      | false =>
          simp only [terminating, carries, Bool.not_true, Bool.not_false, Bool.false_eq_true,
            if_false, if_true] at run
          obtain ⟨rfl, rfl⟩ := Task.runs_pure_iff.mp run
          exact .gone terminating carries
      | true =>
          simp only [terminating, carries, Bool.not_true, Bool.false_eq_true, if_false,
            Task.removeFinalizer_eq] at run
          cases sites with
          | cons name names =>
              obtain ⟨rfl, rfl⟩ := Task.runs_fail_iff.mp run
              exact .held terminating carries nofun
          | nil =>
              have hallowed : Task.ofExcept (checkDeletable template.name []) = pure () := rfl
              simp only [hallowed, Task.requestIf, if_true, bind_assoc, pure_bind] at run
              rcases Task.exchanges_of_runs run with ⟨hnone, rfl, rfl⟩ | ⟨hwire, reply, rfl, rfl⟩
              · exact .unsent terminating carries rfl (Request.not_addressable_of_patch hnone)
              · exact .removed terminating carries rfl (Request.isSome_wire?_patch.mp hwire) reply

def PublicationFails (template : Template) (sites : List String) (trace : List AnsweredEffect) :
    Prop :=
  (∃ reply, trace = [sent (template.publication sites) reply] ∧
      (template.publication sites).Fails reply) ∨
    trace = [] ∧ ¬ template.ownLocator.Addressable

/-- A reconcile publishes the sites first, and it goes on only if this has not failed. -/
theorem runs_reconcileSynced (run : (template.reconcileSynced sites).Runs trace result) :
    ∃ published rest,
      trace = recorded (.references template.name sites.length) :: (published ++ rest) ∧
        OnlySends (· = template.publication sites) published ∧
        ((rest = [] ∧ template.PublicationFails sites published ∧
            ∃ error, result = .error error ∧ error.ByApi) ∨
          AllSucceed published ∧ template.Concludes sites rest result) := by
  rw [reconcileSynced_eq, Task.runs_record_bind_iff] at run
  obtain ⟨trace, rfl, run⟩ := run
  rw [writeStatus_eq] at run
  have chains := OnlySends.chains (· = template.publication sites)
  have publishes {needed : Bool} : Task.Always (OnlySends (· = template.publication sites))
      (Task.requestIf needed (template.publication sites) decode) :=
    .requestIf chains fun _ => OnlySends.sent (P := (· = template.publication sites)) rfl
  have accounts {needed : Bool} : Task.Accounts (fun _ => True)
      (Task.requestIf needed (template.publication sites) decode) :=
    .requestIf (fun _ => trivial) template.fails_patchStatus_iff
  rcases Task.runs_bind_iff.mp run with
    ⟨error, hwrite, rfl⟩ | ⟨published, ⟨⟩, rest, rfl, hwrite, hrest⟩
  · refine ⟨trace, [], by rw [List.append_nil], publishes _ _ hwrite, Or.inl ⟨rfl, ?_, error, rfl,
      (accounts.blames _ _ hwrite).1⟩⟩
    rcases Task.runs_requestIf template.fails_patchStatus_iff hwrite with
      ⟨_, -, -, rfl | ⟨reply, rfl, fails⟩⟩ | ⟨heq, -⟩
    · exact Or.inr ⟨rfl, Request.not_addressable_of_patchStatus (Task.wire?_of_unsent hwrite)⟩
    · exact Or.inl ⟨reply, rfl, fails⟩
    · cases heq
  · exact ⟨published, rest, rfl, publishes _ _ hwrite, Or.inr
      ⟨accounts.strict _ _ hwrite, runs_conclude hrest⟩⟩

theorem mem_or_mem_of_sent {measurement : Measurement} {published : List AnsweredEffect}
    {request : Request} {reply : Reply}
    (h : sent request reply ∈ recorded measurement :: (published ++ rest)) :
    sent request reply ∈ published ∨ sent request reply ∈ rest := by
  rcases List.mem_cons.mp h with heq | h
  · exact absurd heq sent_ne_recorded
  · exact List.mem_append.mp h

/-- The finalizer is taken away from a template that is being deleted and that no site references,
if the sites could be published. -/
theorem sends_finalizerRemoval_iff (run : (template.reconcileSynced sites).Runs trace result) :
    (∃ reply, sent template.finalizerRemoval reply ∈ trace) ↔
      template.metadata.isTerminating = true ∧
        template.metadata.hasFinalizer operatorFinalizer = true ∧ sites = [] ∧
        template.ownLocator.Addressable ∧
        ∀ request reply, sent request reply ∈ trace → request.Fails reply →
          request = template.finalizerRemoval := by
  obtain ⟨published, rest, rfl, publishes, hrest⟩ := runs_reconcileSynced run
  constructor
  · rintro ⟨reply, hmem⟩
    rcases mem_or_mem_of_sent hmem with hmem | hmem
    · cases publishes _ _ hmem
    rcases hrest with ⟨rfl, -⟩ | ⟨succeeds, concludes⟩
    · cases hmem
    cases concludes with
    | kept alive adds =>
        have removes : template.finalizerRemoval.RemovesFinalizer :=
          removesFinalizer_finalizerRemoval
        rw [adds _ _ hmem] at removes
        exact absurd removes not_removesFinalizer_finalizerAddition
    | gone | held | unsent => cases hmem
    | removed terminating carries unused sendable answer =>
        refine ⟨terminating, carries, unused, sendable, fun request reply hmem fails => ?_⟩
        rcases mem_or_mem_of_sent hmem with hmem | hmem
        · exact absurd fails (succeeds _ _ hmem)
        · exact (sent_inj (List.mem_singleton.mp hmem)).1
  · rintro ⟨terminating, carries, unused, sendable, spares⟩
    -- The publication is no removal, so it has not failed, and the reconcile has come to its end.
    rcases hrest with ⟨rfl, ⟨reply, rfl, fails⟩ | ⟨-, unsendable⟩, -⟩ | ⟨-, concludes⟩
    · cases spares (template.publication sites) reply (by simp) fails
    · exact absurd sendable unsendable
    cases concludes with
    | kept alive => exact absurd (alive.symm.trans terminating) (by decide)
    | gone _ lacks => exact absurd (lacks.symm.trans carries) (by decide)
    | held _ _ used => exact absurd unused used
    | unsent _ _ _ unsendable => exact absurd sendable unsendable
    | removed _ _ _ _ reply => exact ⟨reply, by simp⟩

/-- No other request of a reconcile takes the finalizer away. -/
theorem removes_only_by_finalizerRemoval
    (run : (template.reconcileSynced sites).Runs trace result) :
    OnlySends (fun request => request.RemovesFinalizer → request = template.finalizerRemoval)
      trace := by
  obtain ⟨published, rest, rfl, publishes, hrest⟩ := runs_reconcileSynced run
  intro request reply hmem removes
  rcases mem_or_mem_of_sent hmem with hmem | hmem
  · obtain rfl := publishes _ _ hmem
    exact absurd removes not_removesFinalizer_publication
  rcases hrest with ⟨rfl, -⟩ | ⟨-, concludes⟩
  · cases hmem
  cases concludes with
  | kept alive adds =>
      obtain rfl := adds _ _ hmem
      exact absurd removes not_removesFinalizer_finalizerAddition
  | gone | held | unsent => cases hmem
  | removed => exact (sent_inj (List.mem_singleton.mp hmem)).1

/-- Sites that reference a template that is being deleted hold it: the reconcile fails, and it has
written nothing but the status. -/
theorem held_of_used (run : (template.reconcileSynced sites).Runs trace result)
    (terminating : template.metadata.isTerminating = true)
    (carries : template.metadata.hasFinalizer operatorFinalizer = true) (used : sites ≠ []) :
    OnlySends Request.WritesStatus trace ∧
      (AllSucceed trace ∧
          result = .error (.ofFault (.templateInUse template.name sites.length)) ∨
        ((∃ request reply, sent request reply ∈ trace ∧ request.Fails reply) ∨
            ¬ template.ownLocator.Addressable) ∧
          ∃ error, result = .error error ∧ error.ByApi) := by
  obtain ⟨published, rest, rfl, publishes, hrest⟩ := runs_reconcileSynced run
  have hpublished : OnlySends Request.WritesStatus
      (recorded (.references template.name sites.length) :: published) := by
    refine (OnlySends.chains _).append (OnlySends.recorded _) (publishes.mono ?_)
    rintro request rfl
    exact writesStatus_publication
  rcases hrest with ⟨rfl, hfails, herror⟩ | ⟨succeeds, concludes⟩
  · rw [List.append_nil]
    refine ⟨hpublished, Or.inr ⟨?_, herror⟩⟩
    rcases hfails with ⟨reply, rfl, fails⟩ | ⟨-, unsendable⟩
    · exact Or.inl ⟨_, reply, by simp, fails⟩
    · exact Or.inr unsendable
  · cases concludes with
    | kept alive => exact absurd (alive.symm.trans terminating) (by decide)
    | gone _ lacks => exact absurd (lacks.symm.trans carries) (by decide)
    | held =>
        rw [List.append_nil]
        refine ⟨hpublished, Or.inl ⟨?_, rfl⟩⟩
        exact AllSucceed.chains.append (AllSucceed.recorded _) succeeds
    | unsent _ _ unused => exact absurd unused used
    | removed _ _ unused => exact absurd unused used

/-- A template is let go only once nothing references it. Before the first list of sites has ended
nothing is sent. Afterwards the finalizer is taken away by a run if and only if the template is
being deleted and carries it, no site references the template, and no other request of the run
fails; for this the template must have a name that a request can be sent about. If sites reference
a template that is being deleted, the run fails with their number, or because the API has failed
before, and the finalizers of no object change. -/
theorem deletion_guard (events : List CacheEvent)
    (run : (template.reconcile (.ofEvents events)).Runs trace result) :
    (.listEnds ∉ events → trace = [] ∧ result = .ok .requeue) ∧
    (.listEnds ∈ events →
      ((∃ reply, sent template.finalizerRemoval reply ∈ trace) ↔
        template.metadata.isTerminating = true ∧
          template.metadata.hasFinalizer operatorFinalizer = true ∧
          (∀ name site, Known events name site → site.spec.templateName ≠ template.name) ∧
          template.ownLocator.Addressable ∧
          ∀ request reply, sent request reply ∈ trace → request.Fails reply →
            request = template.finalizerRemoval) ∧
      OnlySends (fun request => request.RemovesFinalizer → request = template.finalizerRemoval)
        trace ∧
      ∃ names, Referencing events template.name names ∧
        (template.metadata.isTerminating = true →
          template.metadata.hasFinalizer operatorFinalizer = true → names ≠ [] →
            OnlySends (fun request => ¬ request.RemovesFinalizer) trace ∧
            (∀ cluster last path, Served cluster trace last →
              last.finalizers path = cluster.finalizers path) ∧
            (AllSucceed trace ∧
                result = .error (.ofFault (.templateInUse template.name names.length)) ∨
              ((∃ request reply, sent request reply ∈ trace ∧ request.Fails reply) ∨
                  ¬ template.ownLocator.Addressable) ∧
                ∃ error, result = .error error ∧ error.ByApi))) := by
  rw [reconcile] at run
  cases synced : (SiteCache.ofEvents events).synced with
  | false =>
      have hends : CacheEvent.listEnds ∉ events := by
        rw [← SiteCache.synced_ofEvents_iff, synced]
        exact nofun
      rw [synced] at run
      exact ⟨fun _ => Task.runs_pure_iff.mp run, fun h => absurd h hends⟩
  | true =>
      have hends := SiteCache.synced_ofEvents_iff.mp synced
      rw [synced] at run
      replace run : (template.reconcileSynced
        ((SiteCache.ofEvents events).sitesUsing template.name)).Runs trace result := run
      refine ⟨fun h => absurd hends h, fun _ => ?_⟩
      obtain ⟨names, referencing, hlength⟩ := exists_referencing events template.name
      have hnil : (SiteCache.ofEvents events).sitesUsing template.name = [] ↔ names = [] := by
        rw [← List.length_eq_zero_iff, hlength, List.length_eq_zero_iff]
      have hunused : (SiteCache.ofEvents events).sitesUsing template.name = [] ↔
          ∀ name site, Known events name site → site.spec.templateName ≠ template.name := by
        rw [hnil, List.eq_nil_iff_forall_not_mem]
        simp only [referencing.mem_iff, not_exists, not_and, ne_eq]
      refine ⟨?_, removes_only_by_finalizerRemoval run, names, referencing,
        fun terminating carries used => ?_⟩
      · rw [sends_finalizerRemoval_iff run, hunused]
      · obtain ⟨writes, hresult⟩ := held_of_used run terminating carries (hnil.not.mpr used)
        rw [hlength] at hresult
        refine ⟨writes.mono ?_, fun _ _ path served => served.finalizers_eq writes path, hresult⟩
        rintro request ⟨object, status, rfl, -⟩
        exact not_removesFinalizer_patchStatus

/-- A template that carries the finalizer and is being deleted. -/
def retired : Template where
  metadata := { ObjectMeta.empty with
    name := some "t"
    finalizers := some [operatorFinalizer]
    deletionTimestamp := some "2025-01-01T00:00:00Z" }
  spec := .empty
  status := none

/-- The answer to a patch that the API takes: some template. -/
def taken : Reply := .success 200 (some (.array [.object [], .object [], .null]))

def answerPatches : (effect : Effect) → Unit → effect.Answer × Unit :=
  Site.answerKnown (fun _ => none) (.array [.object [], .object [], .null])

/-- The first list has shown a site that references the template, and the next list has begun. -/
def relisting : List CacheEvent := [.listBegins, .listed Site.leaving, .listEnds, .listBegins]

/-- While the sites are listed again the template is held by the site that was known before. Once
the list has ended without it, the template is let go. -/
theorem deletion_guard_of_relisting :
    (∃ trace, (retired.reconcile (.ofEvents relisting)).Runs trace
        (.error (.ofFault (.templateInUse "t" 1))) ∧
      OnlySends (fun request => ¬ request.RemovesFinalizer) trace) ∧
    ∃ trace reply, (retired.reconcile (.ofEvents (relisting ++ [.listEnds]))).Runs trace
        (.ok .settled) ∧
      sent retired.finalizerRemoval reply ∈ trace := by
  constructor
  · have hused : (SiteCache.ofEvents relisting).sitesUsing "t" = ["a"] := List.mergeSort_singleton _
    have hreconcile : retired.reconcile (.ofEvents relisting) = retired.reconcileSynced ["a"] :=
      congrArg retired.reconcileSynced hused
    have run := Dialogue.runs_transcript answerPatches (retired.reconcileSynced ["a"]).run ()
    have hresult : (Dialogue.run answerPatches (retired.reconcileSynced ["a"]).run ()).1 =
        .error (.ofFault (.templateInUse "t" 1)) := rfl
    rw [hresult, ← hreconcile] at run
    obtain ⟨names, referencing, hheld⟩ := ((deletion_guard relisting run).2 (by decide)).2.2
    have hknown : "a" ∈ names :=
      (referencing.mem_iff "a").mpr ⟨Site.leaving, SiteCache.at?_ofEvents_iff.mp rfl, rfl⟩
    exact ⟨_, run, (hheld rfl (by decide) (List.ne_nil_of_mem hknown)).1⟩
  · have hreconcile : retired.reconcile (.ofEvents (relisting ++ [.listEnds])) =
        retired.reconcileSynced [] :=
      congrArg retired.reconcileSynced List.mergeSort_nil
    have run := Dialogue.runs_transcript answerPatches (retired.reconcileSynced []).run ()
    have hresult : (Dialogue.run answerPatches (retired.reconcileSynced []).run ()).1 =
      .ok .settled := rfl
    have htrace : Dialogue.transcript answerPatches (retired.reconcileSynced []).run () =
        [recorded (.references "t" 0)] ++ [sent (retired.publication []) taken] ++
          [sent retired.finalizerRemoval taken] := rfl
    have succeeds : AllSucceed ([recorded (.references "t" 0)] ++
        [sent (retired.publication []) taken] ++ [sent retired.finalizerRemoval taken]) :=
      AllSucceed.chains.append
        (AllSucceed.chains.append (AllSucceed.recorded _) (AllSucceed.sent nofun))
        (AllSucceed.sent nofun)
    rw [hresult, htrace, ← hreconcile] at run
    have unknown : ∀ name site, Known (relisting ++ [.listEnds]) name site →
        site.spec.templateName ≠ retired.name :=
      fun _ _ hknown => nomatch SiteCache.at?_ofEvents_iff.mpr hknown
    obtain ⟨reply, hsent⟩ := ((deletion_guard _ run).2 (by decide)).1.mpr
      ⟨rfl, by decide, unknown, by decide, fun _ _ hmem fails =>
        absurd fails (succeeds _ _ hmem)⟩
    exact ⟨_, reply, run, hsent⟩

end Template

end SiteOperator
