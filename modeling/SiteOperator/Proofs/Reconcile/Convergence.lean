import SiteOperator.Proofs.Plan.Labels
import SiteOperator.Proofs.Reconcile.Repeated
import SiteOperator.Proofs.Reconcile.SiteWrites
import SiteOperator.Proofs.Reconcile.Surroundings

/-!
# Reconciles that converge

A reconcile decides four times whether to write: the labels of the site, its finalizer, the
namespace with its policies, and the status. After a reconcile with a result none of these writes is
needed any more, the plan is the same, and the dependents are as the pass has left them
(`Site.Converged`, `Site.Steps.converged`). So a reconcile of the site as it is stored then only
reads and applies, and it applies what the first one has applied (`Site.reconcile_converges`).
-/

namespace SiteOperator

variable {collects : Bool} {cluster last : Cluster} {trace : List AnsweredEffect}
  {plan : Plan} {owner : SiteOwner} {site after : Site} {manager now : String}
  {progress : Progress}

theorem SiteNames.dependent_type_mem_written (names : SiteNames) (kind : DependentKind) :
    (names.dependent kind).type ∈ ResourceType.written :=
  List.mem_append_right _ (List.mem_map_of_mem kind.mem_all)

/-- The dependents of a site are elsewhere than all other objects. -/
theorem SiteNames.dependent_wirePath_ne (names : SiteNames) {object : Locator}
    (h : object.type ∈ ResourceType.surroundings) (kind : DependentKind) :
    (names.dependent kind).wirePath ≠ object.wirePath := by
  intro heq
  have hstarts := Locator.starts_wirePath (ResourceType.mem_known_of_surroundings h)
  exact kind.not_starts h hstarts (heq ▸ names.starts_dependent kind)

/-- No object of a plan is at the place of a template. -/
theorem Plan.wirePath_ne_template {object : Locator} (h : object ∈ plan.objects) (name : String) :
    object.wirePath ≠ (Template.locator name).wirePath := by
  intro heq
  have hknown : Template.resourceType ∈ ResourceType.known := by decide
  have hwritten := type_mem_written h
  have hstarts : object.type.Starts object.wirePath :=
    Locator.starts_wirePath (ResourceType.known_of_written hwritten)
  have htemplate : (Template.locator name).type.Starts (Template.locator name).wirePath :=
    Locator.starts_wirePath hknown
  rw [← heq] at htemplate
  rw [ResourceType.eq_of_starts hwritten hknown hstarts htemplate] at hwritten
  exact absurd hwritten (by decide)

namespace Site

/-- The site and its template in the cluster lead to the plan and to the owner of its objects. -/
structure Planned (site : Site) (manager : String) (cluster : Cluster) (plan : Plan)
    (owner : SiteOwner) : Prop where
  sendable : (Request.get (Template.locator site.spec.templateName)).wire?.isSome = true
  composed : ∃ template labels blocks,
    (cluster.stored? (Template.locator site.spec.templateName)).map Template.decode =
        template.map some ∧
      resolveTemplate template site.spec.templateName site.isTerminating = .ok (labels, blocks) ∧
      Plan.compose site.name labels blocks site.spec.overrides = .ok plan
  owner : ∃ reference, site.ownerReference = .ok reference ∧
    owner = ⟨reference, plan.composition.labels, manager⟩

namespace Planned

/-- The plan depends on the template and on what does not change of a site. -/
theorem of_follows (planned : site.Planned manager cluster plan owner)
    (follows : site.Follows after)
    (same : last.stored? (Template.locator site.spec.templateName) =
      cluster.stored? (Template.locator site.spec.templateName)) :
    after.Planned manager last plan owner := by
  obtain ⟨sendable, composed, named⟩ := planned
  refine ⟨?_, ?_, ?_⟩
  · rwa [follows.spec]
  · rwa [follows.spec, follows.name_eq, follows.isTerminating_eq, same]
  · rwa [follows.ownerReference_eq]

theorem wellFormed (planned : site.Planned manager cluster plan owner) :
    plan.WellFormed ∧ plan.names = .derive site.name := by
  obtain ⟨-, ⟨_, _, _, -, -, hcompose⟩, -⟩ := planned
  exact ⟨Plan.compose_wellFormed hcompose, Plan.compose_names hcompose⟩

/-- The labels of a site that is not being deleted are sorted by key if its template's are. -/
theorem sorted_labels (planned : site.Planned manager cluster plan owner)
    (alive : site.isTerminating = false)
    (sorted : ∀ value template,
      cluster.stored? (Template.locator site.spec.templateName) = some value →
        Template.decode value = some template →
          Entries.Sorted (template.metadata.labels.getD [])) : plan.composition.labels.Sorted := by
  obtain ⟨-, ⟨template, labels, blocks, hread, hresolve, hcompose⟩, -⟩ := planned
  obtain ⟨postgres, keydb, nfs, moodle, -, -, -, -, rfl⟩ := Plan.compose_eq_ok_iff.mp hcompose
  refine sorted_siteLabels site.name ?_
  cases template with
  | none =>
      rw [alive] at hresolve
      cases hresolve
  | some template =>
      cases hresolve
      obtain ⟨value, hvalue, hdecode⟩ := Option.map_eq_some_iff.mp hread
      exact sorted value template hvalue hdecode

/-- The preparations of a site that carries its labels only read. -/
theorem rests_prepare (planned : site.Planned manager cluster plan owner)
    (labelled : labelsNeedPatch site.metadata.labels plan.composition.labels = false) :
    Task.Rests collects (site.prepare manager) cluster (plan, owner) := by
  obtain ⟨sendable, ⟨template, labels, blocks, hread, hresolve, hcompose⟩,
    ⟨reference, hreference, rfl⟩⟩ := planned
  refine .bind (.find? template sendable hread) ?_
  refine .bind (.ofExcept hresolve) ?_
  refine .bind (.ofExcept hcompose) ?_
  refine .bind (.requestIf labelled) ?_
  exact .bind (.ofExcept hreference) (.pure _)

end Planned

/-- The preparations come to a plan and put the labels of the site in place. -/
theorem planned_of_plays
    (plays : (site.prepare manager).Plays collects cluster trace (.ok (plan, owner)) last) :
    site.Planned manager cluster plan owner ∧
      ∃ put,
        (site.patchLabels plan.composition.labels).Plays collects cluster put (.ok ()) last := by
  obtain ⟨first, template, middle, rest, rfl, hfind, resolves⟩ := Task.plays_bind_iff.mp plays
  obtain ⟨sendable, hread, rfl, rfl⟩ := Task.plays_find?_iff.mp hfind
  obtain ⟨⟨labels, blocks⟩, hresolve, composes⟩ := Task.plays_ofExcept_bind_iff.mp resolves
  obtain ⟨made, hcompose, puts⟩ := Task.plays_ofExcept_bind_iff.mp composes
  obtain ⟨put, ⟨⟩, labelled, rest, rfl, hput, refers⟩ := Task.plays_bind_iff.mp puts
  obtain ⟨reference, hreference, ends⟩ := Task.plays_ofExcept_bind_iff.mp refers
  obtain ⟨rfl, heq, rfl⟩ := Task.plays_pure_iff.mp ends
  cases heq
  exact ⟨⟨sendable, ⟨template, labels, blocks, hread, hresolve, hcompose⟩,
    ⟨reference, hreference, rfl⟩⟩, put, hput⟩

/-- Nothing is left to do about the site but to apply its dependents. -/
structure Converged (site : Site) (manager : String) (plan : Plan) (owner : SiteOwner)
    (cluster : Cluster) : Prop where
  planned : site.Planned manager cluster plan owner
  labelled : labelsNeedPatch site.metadata.labels plan.composition.labels = false
  valid : plan.names.validate = .ok ()
  held : site.metadata.hasFinalizer operatorFinalizer = true
  surrounded : plan.Surrounded owner.reference.uid cluster

/-- The steps of a reconcile with a result of a site that is not being deleted, and the clusters
between them. -/
structure Steps (site : Site) (manager now : String) (collects : Bool) (plan : Plan)
    (owner : SiteOwner) (told : StatusDraft) (progress : Progress)
    (cluster labelled held surrounded passed last : Cluster) (made : List AnsweredEffect) :
    Prop where
  prepares : ∃ prep, (site.prepare manager).Plays collects cluster prep (.ok (plan, owner)) labelled
  valid : plan.names.validate = .ok ()
  holds : ∃ added, (Task.requestIf (!site.metadata.hasFinalizer operatorFinalizer)
    site.finalizerAddition decode).Plays collects labelled added (.ok ()) held
  surrounds : ∃ seen, (reconcileNamespace plan owner).Plays collects held seen (.ok ()) surrounded
  passes : (owner.runPass (Pass.maintain plan site.spec.isSuspended now
    (.ofCurrent site.status))).Plays collects surrounded made (.ok (progress, told)) passed
  writes : ∃ written, (site.writeStatus told).Plays collects passed written (.ok ()) last

theorem applications_requestIf {α : Type} {needed : Bool} {request : Request} {read : Decoder α}
    {result : Except Raised Unit} (h : (Effect.send request).application? = none)
    (plays : (Task.requestIf needed request read).Plays collects cluster trace result last) :
    applications trace = [] := by
  have sends : Task.Always (OnlySends (· = request)) (Task.requestIf needed request read) :=
    .requestIf (OnlySends.chains _) fun _ => OnlySends.sent (P := (· = request)) rfl
  exact applications_eq_nil (sends _ _ plays.runs) fun _ heq => heq ▸ h

/-- A reconcile with a result goes through its steps, and only its pass applies anything. -/
theorem steps_of_plays (alive : site.isTerminating = false)
    (plays : (site.reconcile manager now).Plays collects cluster trace (.ok progress) last) :
    ∃ plan owner told labelled held surrounded passed made,
      site.Steps manager now collects plan owner told progress cluster labelled held surrounded
        passed last made ∧
      applications trace = applications made := by
  rw [reconcile_eq] at plays
  obtain ⟨prep, ⟨plan, owner⟩, labelled, _, rfl, hprepare, plays⟩ := Task.plays_bind_iff.mp plays
  simp only [proceed, alive, Bool.false_eq_true, if_false, maintain_eq] at plays
  obtain ⟨⟨⟩, valid, plays⟩ := Task.plays_ofExcept_bind_iff.mp plays
  obtain ⟨added, ⟨⟩, held, _, rfl, hadd, plays⟩ := Task.plays_bind_iff.mp plays
  obtain ⟨seen, ⟨⟩, surrounded, _, rfl, hsurround, plays⟩ := Task.plays_bind_iff.mp plays
  obtain ⟨made, ⟨reached, told⟩, passed, _, rfl, hpass, plays⟩ := Task.plays_bind_iff.mp plays
  obtain ⟨written, ⟨⟩, _, _, rfl, hwrite, hpure⟩ := Task.plays_bind_iff.mp plays
  obtain ⟨rfl, heq, rfl⟩ := Task.plays_pure_iff.mp hpure
  cases heq
  refine ⟨plan, owner, told, labelled, held, surrounded, passed, made,
    ⟨⟨prep, hprepare⟩, valid, ⟨added, hadd⟩, ⟨seen, hsurround⟩, hpass, ⟨written, hwrite⟩⟩, ?_⟩
  have hprep : applications prep = [] :=
    applications_eq_nil (prepare_onlySends _ _ _ _ hprepare.runs) fun request prepares => by
      cases prepares <;> rfl
  have hseen : applications seen = [] :=
    applications_eq_nil (reconcileNamespace_onlySends _ _ _ _ hsurround.runs)
      fun request surrounds => by cases surrounds <;> rfl
  simp only [applications_append, hprep, hseen, applications_requestIf rfl hadd,
    applications_requestIf rfl hwrite, List.nil_append, List.append_nil]

namespace Steps

variable {told : StatusDraft} {labelled held surrounded passed : Cluster}
  {made : List AnsweredEffect}
  (steps : site.Steps manager now collects plan owner told progress cluster labelled held surrounded
    passed last made)

include steps

theorem planned : site.Planned manager cluster plan owner := by
  obtain ⟨prep, hprepare⟩ := steps.prepares
  exact (planned_of_plays hprepare).1

variable (segment : IsSegment site.name)

include segment

theorem segmented : ∀ object ∈ plan.objects, object.Segmented :=
  fun _ => Plan.segmented_of_mem_objects steps.planned.wellFormed.2 segment

/-- The template of the site is as it was before. -/
theorem template_kept :
    last.stored? (Template.locator site.spec.templateName) =
      cluster.stored? (Template.locator site.spec.templateName) := by
  have outside := not_ofSites_template site.spec.templateName
  have htype : (Template.locator site.spec.templateName).type ∈ ResourceType.surroundings :=
    show Template.resourceType ∈ ResourceType.surroundings by decide
  obtain ⟨prep, hprepare⟩ := steps.prepares
  obtain ⟨-, put, hput⟩ := planned_of_plays hprepare
  obtain ⟨added, hadd⟩ := steps.holds
  obtain ⟨seen, hsurround⟩ := steps.surrounds
  obtain ⟨written, hwrite⟩ := steps.writes
  have hlabelled := object?_of_patchIf segment outside (Or.inl rfl) hput
  have hheld := object?_of_patchIf segment outside (Or.inl rfl) hadd
  have hsurrounded := object?_of_reconcileNamespace (steps.segmented segment) hsurround
    fun object h => Plan.wirePath_ne_template h site.spec.templateName
  have hpassed := SiteOwner.object?_of_runPass steps.planned.wellFormed.1 _ steps.passes
    (plan.names.dependent_wirePath_ne htype)
  have hlast := object?_of_patchIf segment outside (Or.inr rfl) hwrite
  exact hlast.trans (hpassed.trans (hsurrounded.trans (hheld.trans hlabelled)))

/-- Between the finalizer and the status nothing changes among the sites. -/
theorem sites_kept {path : String} (h : OfSites path) :
    passed.object? path = held.object? path := by
  obtain ⟨seen, hsurround⟩ := steps.surrounds
  have elsewhere {object : Locator} (hobject : object.type ∈ ResourceType.written) :
      object.wirePath ≠ path :=
    fun heq => not_ofSites_of_written hobject (heq ▸ h)
  have hsurrounded := object?_of_reconcileNamespace (steps.segmented segment) hsurround
    fun object hobject => elsewhere (Plan.type_mem_written hobject)
  have hpassed := SiteOwner.object?_of_runPass steps.planned.wellFormed.1 _ steps.passes
    fun kind => elsewhere (plan.names.dependent_type_mem_written kind)
  exact hpassed.trans hsurrounded

/-- The dependents are as the pass has left them. -/
theorem dependents_kept (kind : DependentKind) :
    last.stored? (plan.names.dependent kind) = passed.stored? (plan.names.dependent kind) := by
  obtain ⟨written, hwrite⟩ := steps.writes
  exact object?_of_patchIf segment
    (not_ofSites_of_written (plan.names.dependent_type_mem_written kind)) (Or.inr rfl) hwrite

/-- The namespace and the policies are as they should be. -/
theorem surroundings_kept : plan.Surrounded owner.reference.uid last := by
  obtain ⟨seen, hsurround⟩ := steps.surrounds
  obtain ⟨written, hwrite⟩ := steps.writes
  refine (surrounded_of_plays (steps.segmented segment) hsurround).of_stored?_eq
    fun object hobject htype => ?_
  have hpassed := SiteOwner.object?_of_runPass steps.planned.wellFormed.1 _ steps.passes
    (plan.names.dependent_wirePath_ne htype)
  have hlast := object?_of_patchIf segment
    (not_ofSites_of_written (Plan.type_mem_written hobject)) (Or.inr rfl) hwrite
  exact hlast.trans hpassed

/-- The site carries its labels and the finalizer, and its status is what was collected, or that
says nothing new. -/
theorem site_kept (alive : site.isTerminating = false) (storedIn : site.StoredIn cluster)
    (sorted : plan.composition.labels.Sorted) :
    ∃ after, after.StoredIn last ∧ site.Follows after ∧
      labelsNeedPatch after.metadata.labels plan.composition.labels = false ∧
      after.metadata.hasFinalizer operatorFinalizer = true ∧
      (after.status = some told.collected ∨
        told.hasChanges = false ∧ after.status = site.status) := by
  obtain ⟨prep, hprepare⟩ := steps.prepares
  obtain ⟨-, put, hput⟩ := planned_of_plays hprepare
  obtain ⟨added, hadd⟩ := steps.holds
  obtain ⟨written, hwrite⟩ := steps.writes
  obtain ⟨first, hfirst, follows, hstatus, hfinalizers, hlabels⟩ :=
    labelled_of_plays segment alive sorted storedIn hput
  obtain ⟨second, hsecond, follows', hstatus', hlabels', hheld⟩ :=
    held_of_plays segment alive hfirst follows hfinalizers hadd
  have hthere := hsecond.of_object?_eq (follows'.name_eq ▸ segment)
    fun path h => steps.sites_kept segment h
  have covers : (second.status.getD .empty).Extends told.collected := by
    rw [hstatus', hstatus]
    exact SiteOwner.extends_of_runPass steps.planned.wellFormed.1 _ steps.passes
  obtain ⟨after, hafter, follows, hmetadata, hpublished⟩ :=
    published_of_plays segment alive hthere follows' covers hwrite
  rw [hstatus', hstatus] at hpublished
  refine ⟨after, hafter, follows, ?_, ?_, hpublished⟩
  · rwa [hmetadata, hlabels']
  · rwa [hmetadata]

/-- After its steps a reconcile has left nothing to do but to apply. -/
theorem converged (alive : site.isTerminating = false) (storedIn : site.StoredIn cluster)
    (sorted : plan.composition.labels.Sorted) :
    ∃ after, after.StoredIn last ∧ site.Follows after ∧
      after.Converged manager plan owner last ∧
      (after.status = some told.collected ∨
        told.hasChanges = false ∧ after.status = site.status) := by
  obtain ⟨after, hstored, follows, hlabels, hheld, hwritten⟩ :=
    steps.site_kept segment alive storedIn sorted
  refine ⟨after, hstored, follows, ?_, hwritten⟩
  exact {
    planned := steps.planned.of_follows follows (steps.template_kept segment)
    labelled := hlabels
    valid := steps.valid
    held := hheld
    surrounded := steps.surroundings_kept segment }

end Steps

/-- The reconcile of such a site reads until its pass, and is over with the pass if that says
nothing new. -/
theorem Converged.plays_reconcile (converged : site.Converged manager plan owner cluster)
    (alive : site.isTerminating = false) {told : StatusDraft} {made : List AnsweredEffect}
    (passes : (owner.runPass (Pass.maintain plan site.spec.isSuspended now
      (.ofCurrent site.status))).Plays collects cluster made (.ok (progress, told)) last)
    (unchanged : told.hasChanges = false) :
    ∃ reads, OnlySends (·.isRead = true) reads ∧
      (site.reconcile manager now).Plays collects cluster (reads ++ made) (.ok progress) last := by
  have chains := OnlySends.chains (·.isRead = true)
  have hdependents : (site.maintainDependents plan owner now).Plays collects cluster made
      (.ok progress) last := by
    refine Task.plays_bind_iff.mpr ⟨made, _, last, [], (List.append_nil _).symm, passes, ?_⟩
    simp only [writeStatus_eq, unchanged]
    exact Task.plays_pure_iff.mpr ⟨rfl, rfl, rfl⟩
  have hfinalizer : Task.Rests collects (Task.requestIf
      (!site.metadata.hasFinalizer operatorFinalizer) site.finalizerAddition decode) cluster () :=
    .requestIf (by rw [converged.held]; rfl)
  obtain ⟨seen, reads, hobjects⟩ := Task.Rests.plays_bind
    (f := fun _ => site.maintainDependents plan owner now)
    (rests_reconcileNamespace converged.surrounded) hdependents
  obtain ⟨added, reads', hadds⟩ := Task.Rests.plays_bind
    (f := fun _ => site.maintainObjects plan owner now) hfinalizer hobjects
  have hproceeds : (site.proceed plan owner now).Plays collects cluster (added ++ (seen ++ made))
      (.ok progress) last := by
    simp only [proceed, alive, Bool.false_eq_true, if_false, maintain_eq]
    exact Task.plays_ofExcept_bind_iff.mpr ⟨(), converged.valid, hadds⟩
  obtain ⟨prep, hprep, reads''⟩ := converged.planned.rests_prepare converged.labelled
  refine ⟨prep ++ added ++ seen, chains.append (chains.append reads'' reads') reads, ?_⟩
  rw [reconcile_eq, List.append_assoc, List.append_assoc]
  exact Task.plays_bind_iff.mpr ⟨prep, (plan, owner), cluster, _, rfl, hprep, hproceeds⟩

/-- A reconcile converges. If one of a site that is not being deleted succeeds, then one of the site
as it is stored afterwards, at whatever time, comes to the same result, only reads and applies, and
applies exactly what the first one has applied. Of the status of the site no more is asked than that
it has one condition of a type, and of the template that its labels are in order. -/
theorem reconcile_converges (segment : IsSegment site.name) (alive : site.isTerminating = false)
    (distinct : (site.status.getD .empty).conditions.types.Nodup)
    (storedIn : site.StoredIn cluster)
    (sorted : ∀ value template,
      cluster.stored? (Template.locator site.spec.templateName) = some value →
        Template.decode value = some template →
          Entries.Sorted (template.metadata.labels.getD []))
    (succeeds : Dialogue.run (Cluster.serve collects) (site.reconcile manager now).run cluster =
      (.ok progress, last)) :
    ∃ after : Site, after.name = site.name ∧ after.StoredIn last ∧ ∀ collects' later,
      (Dialogue.run (Cluster.serve collects') (after.reconcile manager later).run last).1 =
          .ok progress ∧
        OnlySends (fun request => request.isRead = true ∨
            ∃ object manager body, request = .apply object manager body)
          (Dialogue.transcript (Cluster.serve collects') (after.reconcile manager later).run last) ∧
        applications (Dialogue.transcript (Cluster.serve collects')
            (after.reconcile manager later).run last) =
          applications (Dialogue.transcript (Cluster.serve collects)
            (site.reconcile manager now).run cluster) := by
  have plays := Task.plays_transcript collects (site.reconcile manager now) cluster
  rw [succeeds] at plays
  obtain ⟨plan, owner, told, labelled, held, surrounded, passed, made, steps, happlied⟩ :=
    steps_of_plays alive plays
  have wellFormed := steps.planned.wellFormed.1
  obtain ⟨after, hstored, follows, converged, hwritten⟩ :=
    steps.converged segment alive storedIn (steps.planned.sorted_labels alive sorted)
  refine ⟨after, follows.name_eq, hstored, fun collects' later => ?_⟩
  obtain ⟨again, told', final, hpass, happlies, sends, done⟩ := SiteOwner.pass_again wellFormed _
    steps.passes (steps.dependents_kept segment) collects' later (.ofCurrent after.status)
  rw [← follows.spec] at hpass
  obtain ⟨reads, hreads, hagain⟩ := converged.plays_reconcile
    (follows.isTerminating_eq.trans alive) hpass (done.settles distinct hwritten)
  obtain ⟨htrace, hrun⟩ := hagain.eq_transcript
  have hnone : applications reads = [] := applications_eq_nil hreads fun request hread => by
    cases request <;> first | rfl | cases hread
  rw [htrace, hrun]
  refine ⟨rfl, (OnlySends.chains _).append (hreads.mono fun _ => Or.inl) sends, ?_⟩
  rw [applications_append, hnone, List.nil_append, happlies, happlied]

open Lifetime (newSite newCluster) in
/-- A new site with a database that is not ready yet. The second reconcile waits for it as the first
one does. -/
theorem reconcile_converges_of_new_site :
    ∃ after : Site, after.StoredIn (newCluster.afterPlay newSite "manager" "now") ∧
      (Dialogue.run (Cluster.serve false) (after.reconcile "manager" "later").run
        (newCluster.afterPlay newSite "manager" "now")).1 = .ok .requeue := by
  have storedIn : newSite.StoredIn newCluster :=
    ⟨⟨_, rfl, by decide +kernel⟩, by decide +kernel⟩
  have unlabelled : ((newCluster.stored? (Template.locator newSite.spec.templateName)).bind
      Template.decode).all (fun template => template.metadata.labels.isNone) = true := by
    decide +kernel
  have waits : (Dialogue.run (Cluster.serve false) (newSite.reconcile "manager" "now").run
      newCluster).1 = .ok .requeue := by
    decide +kernel
  have sorted (value : Json) (template : Template)
      (hvalue : newCluster.stored? (Template.locator newSite.spec.templateName) = some value)
      (hread : Template.decode value = some template) :
      Entries.Sorted (template.metadata.labels.getD []) := by
    rw [hvalue, Option.bind_some, hread] at unlabelled
    have hnone : template.metadata.labels = none := by simpa using unlabelled
    rw [hnone]
    exact Entries.Sorted.nil
  obtain ⟨after, -, hstored, again⟩ := reconcile_converges (by decide) (by decide) (by decide)
    storedIn sorted (Cluster.run_eq_afterPlay waits)
  exact ⟨after, hstored, (again false "later").1⟩

end Site

end SiteOperator
