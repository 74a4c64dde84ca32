import SiteOperator.Proofs.Reconcile.Requests

/-!
# The finalizer of a site

The finalizer brackets the life of everything that a site owns: no object is created, applied or
deleted before the site carries it, and it goes with the last request of a reconcile that has found
nothing left of any dependent and has seen to the last status. `runs_finalize` says how a reconcile
of a site that is being deleted comes to that request.
-/

namespace SiteOperator

/-- A patch names finalizers for an object, and the operator's is not among them. -/
def Request.RemovesFinalizer (request : Request) : Prop :=
  ∃ object body finalizers, request = .patch object body ∧
    (body.field "metadata").field "finalizers" = .strings finalizers ∧
    operatorFinalizer ∉ finalizers

theorem Json.strings_inj {texts others : List String} :
    Json.strings texts = Json.strings others ↔ texts = others := by
  have hinjective : ∀ x y : String, Json.string x = Json.string y → x = y :=
    fun _ _ h => Json.string.inj h
  simp [Json.strings, List.map_inj_right hinjective]

theorem Json.field_ofFields_singleton (key : String) (value : Json) (other : String) :
    (Json.ofFields [(key, value)]).field other = if key = other then value else .null := by
  by_cases h : key = other <;>
    simp [field, ofFields, Entries.ofList, fields?, Entries.put, Entries.at?_cons, h]

theorem field_metadataPatch (key : String) (value : Json) (other : String) :
    ((metadataPatch key value).field "metadata").field other =
      if key = other then value else .null := by
  rw [metadataPatch, Json.field_ofFields_singleton, if_pos rfl, Json.field_ofFields_singleton]

theorem removesFinalizer_patch_iff {object : Locator} {finalizers : List String} :
    (Request.patch object (metadataPatch "finalizers" (.strings finalizers))).RemovesFinalizer ↔
      operatorFinalizer ∉ finalizers := by
  constructor
  · rintro ⟨object', body, named, heq, hfield, hlacks⟩
    cases heq
    rw [field_metadataPatch, if_pos rfl, Json.strings_inj] at hfield
    exact hfield ▸ hlacks
  · intro hlacks
    refine ⟨object, _, finalizers, rfl, ?_, hlacks⟩
    rw [field_metadataPatch, if_pos rfl]

theorem not_removesFinalizer_patchStatus {object : Locator} {body : Json} :
    ¬ (Request.patchStatus object body).RemovesFinalizer := by
  rintro ⟨_, _, _, heq, -⟩
  cases heq

namespace Site

variable {site : Site} {manager now : String} {plan : Plan} {owner : SiteOwner}
  {trace prep : List AnsweredEffect} {result : Except Raised Progress} {request : Request}

theorem removesFinalizer_finalizerRemoval : site.finalizerRemoval.RemovesFinalizer :=
  removesFinalizer_patch_iff.mpr (by simp)

theorem Prepares.not_removesFinalizer (h : site.Prepares request) : ¬ request.RemovesFinalizer := by
  rintro ⟨object, body, finalizers, rfl, hfield, -⟩
  cases h with
  | patchLabels labels =>
      rw [field_metadataPatch, if_neg (by decide)] at hfield
      cases hfield

/-- Of what a reconcile may send, one request takes the finalizer away. -/
theorem MaySend.eq_finalizerRemoval (h : site.MaySend plan owner request)
    (removes : request.RemovesFinalizer) :
    request = site.finalizerRemoval ∧ site.isTerminating = true ∧
      site.metadata.hasFinalizer operatorFinalizer = true := by
  cases h with
  | removeFinalizer terminating carries => exact ⟨rfl, terminating, carries⟩
  | addFinalizer => exact absurd (removesFinalizer_patch_iff.mp removes) (by simp)
  | writeStatus =>
      obtain ⟨object, body, finalizers, heq, -⟩ := removes
      cases heq
  | maintain _ h =>
      obtain ⟨object, body, finalizers, rfl, -⟩ := removes
      cases h with
      | surroundings h => cases h
      | dependents h => cases h
  | finalize _ _ h =>
      obtain ⟨object, body, finalizers, rfl, -⟩ := removes
      cases h

theorem Prepares.not_alters (h : site.Prepares request) : ¬ request.Alters := by
  cases h <;> exact not_false

/-- The status is written first, and then the finalizer is taken away if the pass has settled. -/
theorem runs_endFinalizing {progress : Progress} {draft : StatusDraft}
    (carries : site.metadata.hasFinalizer operatorFinalizer = true)
    (run : (site.endFinalizing progress draft).Runs trace result) :
    OnlySends (fun request => ¬ request.RemovesFinalizer) trace ∧ result ≠ .ok .settled ∨
      progress = .settled ∧ ∃ status reply,
        trace = status ++ [sent site.finalizerRemoval reply] ∧
        Task.SentIf draft.hasChanges
          (.patchStatus site.ownLocator (statusPatch draft.collected.encode)) status ∧
        (result = .ok .settled ∧ ¬ site.finalizerRemoval.Fails reply ∨
          (∃ error, result = .error error) ∧ site.finalizerRemoval.Fails reply) := by
  have chains := OnlySends.chains fun request => ¬ request.RemovesFinalizer
  have writes (reply : Reply) : OnlySends (fun request => ¬ request.RemovesFinalizer)
      [sent (.patchStatus site.ownLocator (statusPatch draft.collected.encode)) reply] :=
    OnlySends.sent not_removesFinalizer_patchStatus reply
  rcases Task.runs_bind_iff.mp run with
    ⟨error, hwrite, rfl⟩ | ⟨status, ⟨⟩, rest, rfl, hwrite, hrest⟩
  · exact Or.inl ⟨Task.Always.requestIf chains (fun _ => writes) _ _ hwrite, nofun⟩
  · rcases Task.runs_requestIf site.fails_patchStatus_iff hwrite with ⟨_, heq, -⟩ | ⟨-, hsent⟩
    · cases heq
    have quiet : OnlySends (fun request => ¬ request.RemovesFinalizer) status :=
      hsent.onlySends not_removesFinalizer_patchStatus
    cases progress with
    | requeue =>
        obtain ⟨rfl, rfl⟩ := Task.runs_pure_iff.mp hrest
        rw [List.append_nil]
        exact Or.inl ⟨quiet, nofun⟩
    | settled =>
        simp only [if_true, Task.removeFinalizer_eq, carries] at hrest
        rcases Task.runs_bind_iff.mp hrest with
          ⟨error, hremove, rfl⟩ | ⟨last, ⟨⟩, tail, rfl, hremove, hend⟩
        · rcases Task.runs_requestIf site.fails_patch_iff hremove with
            ⟨_, -, -, rfl | ⟨reply, rfl, hfails⟩⟩ | ⟨heq, -⟩
          · rw [List.append_nil]
            exact Or.inl ⟨quiet, nofun⟩
          · exact Or.inr ⟨rfl, status, reply, rfl, hsent, Or.inr ⟨⟨error, rfl⟩, hfails⟩⟩
          · cases heq
        · obtain ⟨rfl, rfl⟩ := Task.runs_pure_iff.mp hend
          rcases Task.runs_requestIf site.fails_patch_iff hremove with ⟨_, heq, -⟩ | ⟨-, hlast⟩
          · cases heq
          · rcases hlast with ⟨-, reply, rfl, hok⟩ | ⟨hnone, -⟩
            · rw [List.append_nil]
              exact Or.inr ⟨rfl, status, reply, rfl, hsent, Or.inl ⟨rfl, hok⟩⟩
            · cases hnone

/-- A reconcile of a site that is being deleted either leaves the finalizer alone, or has found
nothing left of any dependent, has seen to the last status, and takes it away. -/
theorem finalize_removes (h : plan.WellFormed) {moodle : DependentSpec}
    (hmoodle : plan.dependent? .moodle = some moodle)
    (run : (site.finalize plan owner now).Runs trace result) :
    OnlySends (fun request => ¬ request.RemovesFinalizer) trace ∧
        (result = .ok .settled → site.metadata.hasFinalizer operatorFinalizer = false) ∨
      site.metadata.hasFinalizer operatorFinalizer = true ∧ ∃ checks status reply,
        trace = checks ++ status ++ [sent site.finalizerRemoval reply] ∧
        GoneChecks owner.reference.uid
          (Pass.configured plan [.moodle, .keydb, .postgres, .nfs]) checks ∧
        Task.SentIf (plan.finalizerEnd now site.status).hasChanges
          (.patchStatus site.ownLocator
            (statusPatch (plan.finalizerEnd now site.status).collected.encode)) status ∧
        (result = .ok .settled ∧ ¬ site.finalizerRemoval.Fails reply ∨
          (∃ error, result = .error error) ∧ site.finalizerRemoval.Fails reply) := by
  cases carries : site.metadata.hasFinalizer operatorFinalizer with
  | false =>
      simp only [finalize, carries, Bool.false_eq_true, if_false] at run
      obtain ⟨rfl, -⟩ := Task.runs_pure_iff.mp run
      exact Or.inl ⟨(OnlySends.chains _).nil, fun _ => rfl⟩
  | true =>
      obtain ⟨checks, rest, made, ended, rfl, hpass, performed, hrest⟩ := runs_finalize carries run
      obtain ⟨ending, walk, hend⟩ := Pass.runs_finalize h hmoodle hpass
      have quiet : OnlySends (fun request => ¬ request.RemovesFinalizer) checks := by
        refine SiteOwner.performed_onlySends performed fun call hcall request h => ?_
        have finalizes : plan.Finalizes request :=
          Plan.finalizes_of_mem_schedule (walk.calls_prefix_schedule.subset hcall) h
        rintro ⟨object, body, finalizers, rfl, -⟩
        cases finalizes
      rcases hrest with ⟨error, -, rfl, rfl⟩ | ⟨progress, houtcome, hrest⟩
      · rw [List.append_nil]
        exact Or.inl ⟨quiet, fun h => by cases h⟩
      · rcases runs_endFinalizing carries hrest with
          ⟨hrest, hresult⟩ | ⟨rfl, status, reply, rfl, hstatus, hresult⟩
        · exact Or.inl ⟨(OnlySends.chains _).append quiet hrest, fun h => absurd h hresult⟩
        · obtain ⟨hcalls, hgone, hdraft⟩ := hend.of_settled walk houtcome
          rw [hdraft] at hstatus
          refine Or.inr
            ⟨rfl, checks, status, reply, (List.append_assoc _ _ _).symm, ?_, hstatus, hresult⟩
          exact SiteOwner.goneChecks_of_performed performed hcalls hgone

/-- Before a site that is not being deleted carries the finalizer, nothing is altered. -/
theorem maintain_adds {before after : List AnsweredEffect} {reply : Reply}
    (run : (site.maintain plan owner now).Runs (before ++ sent request reply :: after) result)
    (alters : request.Alters) :
    site.metadata.hasFinalizer operatorFinalizer = true ∨
      ∃ answer, sent site.finalizerAddition answer ∈ before ∧
        ¬ site.finalizerAddition.Fails answer := by
  obtain ⟨added, rest, heq, onlyAdds, hrest⟩ := runs_maintain run
  rcases append_eq_append_cons heq.symm with ⟨tail, rfl, -⟩ | ⟨lead, rfl, rfl⟩
  · obtain rfl := onlyAdds request reply (by simp)
    exact alters.elim
  · rcases hrest with ⟨hnil, -⟩ | ⟨⟨-, answer, rfl, hok⟩ | ⟨carries, -⟩, -⟩
    · simp at hnil
    · exact Or.inr ⟨answer, by simp, hok⟩
    · exact Or.inl (by simpa using carries)

/-- Before a reconcile takes the finalizer away from a site, it has read the template and put the
labels in place, has found nothing left of any dependent of its plan, and has written the last
status, or that status is stored already up to times; and no request of it has failed. -/
structure TakesFinalizer (site : Site) (before : List AnsweredEffect) : Prop where
  terminating : site.isTerminating = true
  carries : site.metadata.hasFinalizer operatorFinalizer = true
  succeeds : ∀ request reply, sent request reply ∈ before → ¬ request.Fails reply
  gone : ∃ (plan : Plan) (uid : String) (prep checks status : List AnsweredEffect)
      (last : SiteStatus),
    before = prep ++ checks ++ status ∧ OnlySends site.Prepares prep ∧ site.Composed prep plan ∧
      site.metadata.uid = some uid ∧
      GoneChecks uid (Pass.configured plan [.moodle, .keydb, .postgres, .nfs]) checks ∧
      last.FinalizerEnded ∧
      ((∃ reply, status = [sent (.patchStatus site.ownLocator (statusPatch last.encode)) reply]) ∨
        status = [] ∧ ∃ stored, site.status = some stored ∧ stored.untimed = last.untimed)

/-- A reconcile leaves the finalizer alone, or takes it away with its last request. -/
theorem reconcile_removes (run : (site.reconcile manager now).Runs trace result) :
    OnlySends (fun request => ¬ request.RemovesFinalizer) trace ∧
        (site.isTerminating = true → result = .ok .settled →
          site.metadata.hasFinalizer operatorFinalizer = false) ∨
      ∃ before reply, trace = before ++ [sent site.finalizerRemoval reply] ∧
        OnlySends (fun request => ¬ request.RemovesFinalizer) before ∧
        site.TakesFinalizer before ∧
        (result = .ok .settled → ¬ site.finalizerRemoval.Fails reply) := by
  obtain ⟨prep, rest, rfl, prepares, hrest⟩ := runs_reconcile run
  have quiet := prepares.mono fun request h => h.not_removesFinalizer
  have chains := OnlySends.chains fun request => ¬ request.RemovesFinalizer
  rcases hrest with ⟨rfl, error, rfl⟩ | ⟨plan, owner, prepared, hproceed⟩
  · rw [List.append_nil]
    exact Or.inl ⟨quiet, fun _ => nofun⟩
  cases terminating : site.isTerminating with
  | false =>
      refine Or.inl ⟨chains.append quiet ?_, nofun⟩
      refine (proceed_onlySends prepared _ _ hproceed).mono fun request h removes => ?_
      obtain ⟨-, hterminating, -⟩ := h.eq_finalizerRemoval removes
      rw [terminating] at hterminating
      cases hterminating
  | true =>
      rw [proceed, if_pos terminating] at hproceed
      obtain ⟨_, _, _, _, _, -, -, -, hcompose⟩ := prepared.composed
      obtain ⟨moodle, hmoodle⟩ := Plan.compose_workload hcompose
      obtain ⟨reference, hreference, rfl⟩ := prepared.owner
      rcases finalize_removes (Plan.compose_wellFormed hcompose) hmoodle hproceed with
        ⟨hrest, hlacks⟩ | ⟨carries, checks, status, reply, rfl, gone, hstatus, hresult⟩
      · exact Or.inl ⟨chains.append quiet hrest, fun _ => hlacks⟩
      refine Or.inr ⟨prep ++ checks ++ status, reply, by simp, ?_, ?_, ?_⟩
      · refine chains.append (chains.append quiet (gone.onlySends.mono ?_)) ?_
        · rintro request ⟨d, -, rfl | rfl⟩ ⟨_, _, _, heq, -⟩ <;> cases heq
        · exact hstatus.onlySends not_removesFinalizer_patchStatus
      · refine ⟨terminating, carries, ?_, ?_⟩
        · intro request reply hmem
          rcases List.mem_append.mp hmem with hmem | hmem
          · rcases List.mem_append.mp hmem with hmem | hmem
            · exact prepared.succeeds request reply hmem
            · exact gone.succeeds request reply hmem
          · exact hstatus.succeeds request reply hmem
        · refine ⟨plan, reference.uid, prep, checks, status,
            (plan.finalizerEnd now site.status).collected, rfl, prepares, prepared.composed,
            (of_ownerReference?_eq_some hreference).1, gone, ?_, ?_⟩
          · exact StatusDraft.finalizerEnded_setTerminated _ now
          · rcases hstatus with ⟨-, reply, rfl, -⟩ | ⟨unchanged, rfl⟩
            · exact Or.inl ⟨reply, rfl⟩
            · exact Or.inr ⟨rfl, plan.untimed_eq_of_finalizerEnd now unchanged⟩
      · rintro rfl
        rcases hresult with ⟨-, hok⟩ | ⟨⟨error, heq⟩, -⟩
        · exact hok
        · cases heq

/-- The finalizer brackets the life of what a site owns. A reconcile of a site that is not being
deleted creates, applies and deletes objects only once the site carries the finalizer, be it before
the reconcile or because the patch that adds it has succeeded. The finalizer is taken away by the
last request of a reconcile, after nothing of any dependent was left to wait for and the last status
was seen to, and it is not taken away if any request fails. A site that carried the finalizer has
lost it when its reconcile settles. -/
theorem finalizer_brackets (run : (site.reconcile manager now).Runs trace result) :
    (site.isTerminating = false → ∀ before request reply after,
      trace = before ++ sent request reply :: after → request.Alters →
        site.metadata.hasFinalizer operatorFinalizer = true ∨
          ∃ answer, sent site.finalizerAddition answer ∈ before ∧
            ¬ site.finalizerAddition.Fails answer) ∧
    (∀ before request reply after,
      trace = before ++ sent request reply :: after → request.RemovesFinalizer →
        request = site.finalizerRemoval ∧ after = [] ∧ site.TakesFinalizer before) ∧
    ((∃ request reply, sent request reply ∈ trace ∧ request.Fails reply) →
      ∀ request reply, sent request reply ∈ trace → request.RemovesFinalizer →
        request.Fails reply) ∧
    (site.isTerminating = true → site.metadata.hasFinalizer operatorFinalizer = true →
      result = .ok .settled →
        ∃ before reply, trace = before ++ [sent site.finalizerRemoval reply] ∧
          ¬ site.finalizerRemoval.Fails reply) := by
  refine ⟨fun alive before request reply after htrace alters => ?_, ?_⟩
  · obtain ⟨prep, rest, rfl, prepares, hrest⟩ := runs_reconcile run
    rcases append_eq_append_cons htrace with ⟨tail, rfl, -⟩ | ⟨lead, rfl, rfl⟩
    · exact absurd alters (prepares request reply (by simp)).not_alters
    rcases hrest with ⟨hnil, -⟩ | ⟨plan, owner, prepared, hproceed⟩
    · simp at hnil
    rw [proceed, alive] at hproceed
    refine (maintain_adds hproceed alters).imp_right ?_
    rintro ⟨answer, hmem, hok⟩
    exact ⟨answer, List.mem_append_right prep hmem, hok⟩
  rcases reconcile_removes run with
    ⟨quiet, hlacks⟩ | ⟨front, answer, rfl, quiet, takes, hsettled⟩
  · refine ⟨?_, fun _ request reply hmem removes => absurd removes (quiet request reply hmem), ?_⟩
    · rintro before request reply after rfl removes
      exact absurd removes (quiet request reply (by simp))
    · intro terminating carries settled
      rw [hlacks terminating settled] at carries
      cases carries
  · have last (request reply)
        (hmem : sent request reply ∈ front ++ [sent site.finalizerRemoval answer])
        (removes : request.RemovesFinalizer) :
        request = site.finalizerRemoval ∧ reply = answer := by
      rcases List.mem_append.mp hmem with hmem | hmem
      · exact absurd removes (quiet request reply hmem)
      · exact sent_inj (List.mem_singleton.mp hmem)
    refine ⟨?_, ?_, fun _ _ settled => ⟨front, answer, rfl, hsettled settled⟩⟩
    · intro before request reply after htrace removes
      rcases append_eq_append_cons htrace with ⟨tail, rfl, -⟩ | ⟨lead, rfl, heq⟩
      · exact absurd removes (quiet request reply (by simp))
      · rcases List.singleton_eq_append_iff.mp heq with ⟨rfl, hend⟩ | ⟨-, hend⟩
        · obtain ⟨hsent, rfl⟩ := List.cons.inj hend
          rw [List.append_nil]
          exact ⟨(sent_inj hsent).1, rfl, takes⟩
        · cases hend
    · rintro ⟨other, reply, hmem, hfails⟩ request reply' hmem' removes
      obtain ⟨rfl, rfl⟩ := last request reply' hmem' removes
      rcases List.mem_append.mp hmem with hmem | hmem
      · exact absurd hfails (takes.succeeds other reply hmem)
      · obtain ⟨rfl, rfl⟩ := sent_inj (List.mem_singleton.mp hmem)
        exact hfails

def answerKnown (known : Locator → Option Json) (body : Json) :
    (effect : Effect) → Unit → effect.Answer × Unit
  | .send (.get object), _ => match known object with
      | some value => (Reply.success 200 (some value), ())
      | none => (Reply.failure ⟨404, "NotFound"⟩, ())
  | .send _, _ => (Reply.success 200 (some body), ())
  | .record _, _ => ((), ())

/-- A site without a template that carries the finalizer and is being deleted. -/
def leaving : Site where
  metadata := { ObjectMeta.empty with
    name := some "a"
    uid := some "u"
    labels := some (siteLabels "a" none)
    finalizers := some [operatorFinalizer]
    deletionTimestamp := some "2025-01-01T00:00:00Z" }
  spec := ⟨"t", none, .empty⟩
  status := none

def answerLeaving : (effect : Effect) → Unit → effect.Answer × Unit :=
  answerKnown (fun _ => none) (.array [.object [], leaving.spec.encode, .null])

set_option maxRecDepth 10000 in
/-- A site of which nothing is left loses its finalizer. -/
theorem finalizer_brackets_of_absent_dependents :
    ∃ trace reply,
      (leaving.reconcile "manager" "now").Runs (trace ++ [sent leaving.finalizerRemoval reply])
        (.ok .settled) ∧
      leaving.TakesFinalizer trace ∧ ¬ leaving.finalizerRemoval.Fails reply := by
  have run := Dialogue.runs_transcript answerLeaving (leaving.reconcile "manager" "now").run ()
  have settled : (Dialogue.run answerLeaving
      (leaving.reconcile "manager" "now").run ()).1.toOption = some .settled := by
    decide +kernel
  generalize (Dialogue.run answerLeaving (leaving.reconcile "manager" "now").run ()).1 = result
    at run settled
  obtain rfl : result = .ok .settled := by
    cases result with
    | error _ => cases settled
    | ok progress => exact congrArg Except.ok (Option.some.inj settled)
  obtain ⟨-, removes, -, settles⟩ := finalizer_brackets run
  obtain ⟨trace, reply, htrace, hok⟩ := settles (by decide) (by decide) rfl
  rw [htrace] at run
  exact ⟨trace, reply, run,
    (removes trace _ reply [] htrace removesFinalizer_finalizerRemoval).2.2, hok⟩

end Site

end SiteOperator
