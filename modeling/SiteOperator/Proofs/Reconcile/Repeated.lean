import SiteOperator.Proofs.Pass.Repeat
import SiteOperator.Proofs.Reconcile.Reported

/-!
# A pass that is made twice over the dependents of a site

The calls of a pass over a site that is not being deleted tend to its dependents
(`Pass.tends_of_runs`). If such a pass has a result, and it is made once more after a time in which
the dependents have been left alone, then it has that result again, it applies the same once more,
and it has the same effect on the status of the site (`SiteOwner.pass_again`).
-/

namespace SiteOperator

open Dialogue (AnsweredBy)

variable {collects : Bool} {cluster middle last : Cluster} {trace : List AnsweredEffect}
  {plan : Plan} {owner : SiteOwner} {now : String} {draft told : StatusDraft}
  {progress : Progress}

/-- What a reconcile sends about the dependents of a site leaves alone what is elsewhere. -/
theorem Plan.Applies.leavesPath {request : Request} {path : String} (h : plan.Applies owner request)
    (wellFormed : plan.WellFormed)
    (apart : ∀ kind, (plan.names.dependent kind).wirePath ≠ path) : request.LeavesPath path := by
  have leaves {kind : DependentKind} {d : DependentSpec} {manager : String} {body : Json}
      (hd : plan.dependent? kind = some d) :
      (Request.apply d.locator manager body).LeavesPath path := by
    refine Request.leavesPath_of_target_ne fun wire hwire heq => apart kind ?_
    rw [← wellFormed.locator_eq hd, ← Request.target_apply hwire, heq]
  cases h with
  | observe => exact Request.leavesPath_get _ _
  | apply hd => exact leaves hd
  | suspend hd => exact leaves hd

namespace Pass

variable {made : List AnsweredCall} {ended : PassResult}

/-- The calls of a pass over a site that is not being deleted are about its dependents and delete
none of them. -/
theorem tends_of_runs (wellFormed : plan.WellFormed) (suspended : Bool)
    (run : (maintain plan suspended now draft).Runs made ended) :
    ∀ call ∈ calls made, plan.names.Tends call := by
  have places {kind : DependentKind} {d : DependentSpec} (hd : plan.dependent? kind = some d) :
      plan.names.Places d := by
    rw [SiteNames.Places, wellFormed.kind_eq hd]
    exact wellFormed.locator_eq hd
  have scheduled {f : DependentSpec → DependentSpec} {order : List DependentKind}
      (hplaces : ∀ d, plan.names.Places d → plan.names.Places (f d)) :
      ∀ call ∈ observations plan ++ applications plan order f, plan.names.Tends call := by
    intro call hcall
    rcases List.mem_append.mp hcall with hcall | hcall
    · obtain ⟨d, hd, rfl⟩ := List.mem_map.mp hcall
      obtain ⟨kind, -, hd⟩ := mem_configured.mp hd
      exact places hd
    · obtain ⟨d, hd, rfl⟩ := List.mem_map.mp hcall
      obtain ⟨kind, -, hd⟩ := mem_configured.mp hd
      exact hplaces d (places hd)
  intro call hcall
  cases suspended with
  | true =>
      obtain ⟨ending, walk, -⟩ := runs_suspend run
      exact scheduled (f := DependentSpec.suspended) (fun _ h => h) call
        (walk.calls_prefix_schedule.subset hcall)
  | false =>
      have present := runs_present wellFormed run
      exact scheduled (f := id) (fun _ h => h) call (present.calls_prefix_schedule.subset hcall)

/-- No call of a pass that has a result has failed. -/
theorem failure?_eq_none_of_ok (wellFormed : plan.WellFormed) (suspended : Bool)
    (run : (maintain plan suspended now draft).Runs made ended)
    (ok : ended.outcome = .ok progress) : ∀ e ∈ made, failure? e = none := by
  have outcome : (∃ error, FailsLast made error ∧ ended.outcome = .error error) ∨
      ∀ e ∈ made, failure? e = none := by
    cases suspended with
    | true => exact (outcome_of_suspend run).imp_right And.left
    | false => exact (runs_present wellFormed run).cut.imp_right And.left
  rcases outcome with ⟨error, -, houtcome⟩ | hnone
  · rw [ok] at houtcome
    cases houtcome
  · exact hnone

end Pass

namespace SiteOwner

/-- A pass has a result if its calls can be performed and it comes to that result. -/
theorem plays_runPass_iff {pass : PassProgram PassResult} :
    (owner.runPass pass).Plays collects cluster trace (.ok (progress, told)) last ↔
      ∃ made ended, pass.Runs made ended ∧ Dialogue.Performed owner.perform made trace ∧
        AnsweredBy (Cluster.serve collects) cluster trace last ∧
        ended.outcome = .ok progress ∧ ended.draft = told := by
  constructor
  · rintro ⟨run, answered⟩
    obtain ⟨made, ended, hpass, performed, heq⟩ := runs_runPass run
    refine ⟨made, ended, hpass, performed, answered, ?_⟩
    cases houtcome : ended.outcome with
    | error cause =>
        rw [houtcome] at heq
        cases heq
    | ok reached =>
        rw [houtcome] at heq
        cases heq
        exact ⟨rfl, rfl⟩
  · rintro ⟨made, ended, hpass, performed, answered, houtcome, rfl⟩
    refine ⟨Dialogue.runs_bind_iff.mpr ⟨trace, ended, [], (List.append_nil _).symm,
      performed.runs_translate hpass, ?_⟩, answered⟩
    rw [houtcome]
    exact .done _

/-- A pass over a site that is not being deleted leaves alone what is no dependent of it. -/
theorem object?_of_runPass (wellFormed : plan.WellFormed) (suspended : Bool)
    {result : Except Raised (Progress × StatusDraft)}
    (plays : (owner.runPass (Pass.maintain plan suspended now draft)).Plays collects cluster trace
      result last) {path : String}
    (apart : ∀ kind, (plan.names.dependent kind).wirePath ≠ path) :
    last.object? path = cluster.object? path :=
  plays.object?_eq fun _ _ run => (Site.runPass_applies wellFormed suspended _ _ run).mono
    fun _ applies => applies.leavesPath wellFormed apart

/-- A pass that has a result has it again in a cluster whose dependents are as the pass has left
them, and does the same. -/
theorem pass_again (wellFormed : plan.WellFormed) (suspended : Bool)
    (plays : (owner.runPass (Pass.maintain plan suspended now draft)).Plays collects cluster trace
      (.ok (progress, told)) middle)
    (same : ∀ kind, last.stored? (plan.names.dependent kind) =
      middle.stored? (plan.names.dependent kind)) (collects' : Bool) (later : String)
    (draft' : StatusDraft) :
    ∃ again told' final,
      (owner.runPass (Pass.maintain plan suspended later draft')).Plays collects' last again
        (.ok (progress, told')) final ∧
      applications again = applications trace ∧
      OnlySends (fun request => request.isRead = true ∨
        ∃ object manager body, request = .apply object manager body) again ∧
      draft.SameDone draft' told told' := by
  obtain ⟨made, ended, run, performed, answered, houtcome, rfl⟩ := plays_runPass_iff.mp plays
  have tends := Pass.tends_of_runs wellFormed suspended run
  have performs := performsAll_of_performed performed tends answered
    (Pass.failure?_eq_none_of_ok wellFormed suspended run houtcome)
  have reported : plan.names.reported middle = plan.names.reported last :=
    PerKind.eq_of_get_eq fun kind => by
      rw [SiteNames.reported, SiteNames.reported, PerKind.get_ofFn, PerKind.get_ofFn, same]
  have keeps := performs.keeps
  rw [reported] at keeps
  -- The second pass is first led by what is reported, and then performed call by call.
  have run' := Dialogue.runs_transcript Pass.keeping
    (Pass.maintain plan suspended later draft') (plan.names.reported last)
  have keeps' := Dialogue.answeredBy_transcript Pass.keeping
    (Pass.maintain plan suspended later draft') (plan.names.reported last)
  have alike := Pass.repeats suspended run run' keeps keeps'
  have tends' := Pass.tends_of_runs wellFormed suspended run'
  have readable : ∀ call ∈ Pass.calls made, plan.names.Readable last call.dependent.kind := by
    intro call hcall value hvalue
    rw [same] at hvalue
    exact performs.readable call hcall value hvalue
  obtain ⟨again, final, performed', answered'⟩ := exists_performed collects' keeps' tends'
    (alike.calls ▸ performs.sendable) (alike.calls ▸ readable)
  have performs' := performsAll_of_performed performed' tends' answered'
    (Pass.failure?_eq_none_of_keeping keeps')
  refine ⟨again, _, final, plays_runPass_iff.mpr ⟨_, _, run', performed', answered',
    alike.outcome.symm.trans houtcome, rfl⟩, ?_, performed_reads_or_applies performed' tends',
      alike.drafts⟩
  rw [performs'.applies, performs.applies, alike.calls]

/-- A pass only adds to what a status says. -/
theorem extends_of_runPass (wellFormed : plan.WellFormed) (suspended : Bool)
    (plays : (owner.runPass (Pass.maintain plan suspended now draft)).Plays collects cluster trace
      (.ok (progress, told)) last) :
    draft.collected.Extends told.collected := by
  obtain ⟨_, _, _, _, _, _, done⟩ :=
    pass_again wellFormed suspended plays (fun _ => rfl) collects now draft
  obtain ⟨_, _, _, first, _⟩ := done.updated
  exact first.extends

end SiteOwner

end SiteOperator
