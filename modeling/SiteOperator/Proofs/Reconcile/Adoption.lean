import SiteOperator.Proofs.Cluster.Segments
import SiteOperator.Proofs.Reconcile.Failures
import SiteOperator.Proofs.Resource.Written

/-!
# Dependents that belong to someone else

Applying a dependent asks no one whom the object at its place belongs to. Whatever was there, the
object afterwards has the spec of the plan, the labels of the site and the site as its only owner
(`Site.TakenOver`). So an object of another owner stays as it is exactly if no request that applies
it is carried out (`Site.keeps_foreign_iff`).
-/

namespace SiteOperator

structure Json.Agrees (object other : Json) : Prop where
  spec : object.field "spec" = other.field "spec"
  labels : (object.field "metadata").field "labels" = (other.field "metadata").field "labels"
  ownerReferences : (object.field "metadata").field "ownerReferences" =
    (other.field "metadata").field "ownerReferences"

theorem Cluster.field_applied_of_ne {key : String} (h : key ≠ "status") (earlier : Option Json)
    (body : Json) : (applied earlier body).field key = body.field key := by
  simp only [applied]
  split
  · simp [Json.field, Json.fields?, Entries.at?_put, h]
  · rfl

theorem Cluster.agrees_applied (earlier : Option Json) (body : Json) :
    (applied earlier body).Agrees body := by
  have hspec := field_applied_of_ne (show "spec" ≠ "status" by decide) earlier body
  have hmeta := field_applied_of_ne (show "metadata" ≠ "status" by decide) earlier body
  exact ⟨hspec, by rw [hmeta], by rw [hmeta]⟩

/-- A dependent as it is written belongs to the owner it is written for. -/
theorem DependentSpec.ownedBy_object (d : DependentSpec) {owner : OwnerReference}
    (labels : Entries String) (controls : owner.controller = some true) :
    (d.object owner labels).ownedBy owner.uid = true := by
  rw [ObjectMeta.ownedBy_of_anyMeta owner.uid (d.anyMeta_object owner labels), ObjectMeta.ownedBy,
    ObjectMeta.controller?_ownedMeta _ _ labels controls]
  exact decide_eq_true rfl

/-- The dependents of a plan have different places. -/
theorem Plan.WellFormed.eq_of_locator_eq {plan : Plan} (wellFormed : plan.WellFormed)
    {kind other : DependentKind} {d e : DependentSpec} (hd : plan.dependent? kind = some d)
    (he : plan.dependent? other = some e) (h : d.locator = e.locator) : e = d := by
  have htype : kind.resourceType = other.resourceType := by
    rw [← wellFormed.kind_eq hd, ← wellFormed.kind_eq he]
    exact congrArg Locator.type h
  obtain rfl := DependentKind.resourceType_inj htype
  exact Option.some.inj (he.symm.trans hd)

namespace Site

variable {site : Site} {manager now uid : String} {plan : Plan} {owner : SiteOwner}
  {trace prep : List AnsweredEffect} {result : Except Raised Progress} {request : Request}
  {kind : DependentKind} {d : DependentSpec} {cluster last : Cluster} {value left : Json}

/-- The object has the spec of the dependent, as it runs or as it is suspended, the labels of the
plan, and the site as its only owner. -/
def TakenOver (site : Site) (plan : Plan) (d : DependentSpec) (object : Json) : Prop :=
  ∃ reference made, site.ownerReference? = some reference ∧ (made = d ∨ made = d.suspended) ∧
    object.Agrees (made.object reference plan.composition.labels)

theorem TakenOver.ownedBy (h : site.TakenOver plan d left) (huid : site.metadata.uid = some uid) :
    left.ownedBy uid = true := by
  obtain ⟨reference, made, hreference, -, agrees⟩ := h
  obtain ⟨huid', controls⟩ := of_ownerReference?_eq_some hreference
  obtain rfl : uid = reference.uid := Option.some.inj (huid.symm.trans huid')
  rw [Json.ownedBy_congr _ agrees.ownerReferences]
  exact made.ownedBy_object _ controls

/-- What belongs to another owner is not taken over as long as it keeps its owner references. -/
theorem TakenOver.not_agrees (h : site.TakenOver plan d left)
    (huid : site.metadata.uid = some uid) (foreign : value.ownedBy uid = false) :
    ¬ left.Agrees value := by
  intro agrees
  have howned := h.ownedBy huid
  rw [Json.ownedBy_congr uid agrees.ownerReferences, foreign] at howned
  cases howned

def AppliesTo (site : Site) (plan : Plan) (d : DependentSpec) (request : Request) : Prop :=
  ∃ reference manager made, site.ownerReference? = some reference ∧
    (made = d ∨ made = d.suspended) ∧
    request = .apply d.locator manager (made.object reference plan.composition.labels)

/-- What is sent about the objects of a site that is not being deleted leaves a dependent alone or
applies it. -/
theorem leaves_or_appliesTo_of_maintains {reference : OwnerReference}
    (wellFormed : plan.WellFormed) (hd : plan.dependent? kind = some d)
    (hreference : site.ownerReference? = some reference)
    (h : plan.Maintains ⟨reference, plan.composition.labels, manager⟩ request) :
    request.Leaves d.locator ∨ site.AppliesTo plan d request := by
  have hlocator := wellFormed.locator_eq hd
  have apart {other : DependentKind} {e : DependentSpec} {body : Json}
      (he : plan.dependent? other = some e) :
      (Request.apply e.locator manager body).Leaves d.locator ∨ e = d := by
    rcases Request.leaves_or_eq wellFormed he (fun _ => Request.target_apply) kind with
      leaves | ⟨-, heq⟩
    · exact Or.inl (hlocator ▸ leaves)
    · exact Or.inr (wellFormed.eq_of_locator_eq hd he (hlocator.trans heq.symm))
  rw [hlocator] at apart ⊢
  cases h with
  | surroundings hsurrounds => exact Or.inl (hsurrounds.leaves plan.names kind)
  | dependents happlies =>
      cases happlies with
      | observe => exact Or.inl (Request.leaves_get _ _)
      | apply he =>
          refine (apart he).imp_right fun heq => ?_
          exact ⟨reference, manager, d, hreference, Or.inl rfl, by rw [heq]⟩
      | suspend he =>
          refine (apart he).imp_right fun heq => ?_
          exact ⟨reference, manager, d.suspended, hreference, Or.inr rfl, by rw [heq]⟩

/-- A site that is not being deleted touches a dependent of its plan only by applying it. -/
theorem leaves_or_appliesTo (alive : site.isTerminating = false)
    (run : (site.reconcile manager now).Runs trace result) (composed : site.Composed trace plan)
    (hd : plan.dependent? kind = some d) :
    OnlySends (fun request => request.Leaves d.locator ∨ site.AppliesTo plan d request) trace := by
  obtain ⟨wellFormed, -⟩ := composed.wellFormed
  have hlocator := wellFormed.locator_eq hd
  obtain ⟨prep, rest, rfl, prepares, hrest⟩ := runs_reconcile run
  refine (OnlySends.chains _).append ?_ ?_
  · rw [hlocator]
    exact prepares.mono fun _ h => Or.inl (h.avoids _).leaves
  rcases hrest with ⟨rfl, -⟩ | ⟨made, owner, prepared, hproceed⟩
  · exact (OnlySends.chains _).nil
  obtain rfl := composed.unique (prepared.composed.append rest)
  obtain ⟨reference, hreference, rfl⟩ := prepared.owner
  refine (proceed_onlySends prepared _ _ hproceed).mono fun request hsends => ?_
  cases hsends with
  | writeStatus => exact Or.inl (hlocator ▸ (avoids_patchStatus _).leaves)
  | addFinalizer | removeFinalizer => exact Or.inl (hlocator ▸ (avoids_patch _).leaves)
  | maintain _ hmaintains =>
      exact leaves_or_appliesTo_of_maintains wellFormed hd hreference hmaintains
  | finalize terminating =>
      rw [alive] at terminating
      cases terminating

/-- Applying a dependent takes it over, if the request is carried out. -/
theorem AppliesTo.serves (h : site.AppliesTo plan d request) {reply : Reply}
    (serves : Serves cluster (sent request reply) last) :
    (last = cluster ∧ request.Fails reply) ∨
      ∃ left, last.stored? d.locator = some left ∧ site.TakenOver plan d left := by
  obtain ⟨reference, manager, made, hreference, hmade, rfl⟩ := h
  rcases serves.of_sent with hrefused | ⟨collects, wire, hwire, rfl, -⟩
  · exact Or.inl hrefused
  · obtain ⟨hverb, hbody, htarget⟩ := Request.wire_apply hwire
    refine Or.inr ⟨_, ?_, reference, made, hreference, hmade, Cluster.agrees_applied
      (cluster.object? d.locator.wirePath) _⟩
    rw [Cluster.stored?, Cluster.answer_apply hverb hbody, Cluster.object?_store, htarget,
      if_pos rfl]

/-- A dependent that has been taken over stays so. -/
theorem takenOver_of_served (sends : OnlySends (fun request => request.Leaves d.locator ∨
      site.AppliesTo plan d request) trace) (served : Served cluster trace last)
    (taken : ∃ left, cluster.stored? d.locator = some left ∧ site.TakenOver plan d left) :
    ∃ left, last.stored? d.locator = some left ∧ site.TakenOver plan d left := by
  refine served.of_onlySends (P := fun now => ∃ left, now.stored? d.locator = some left ∧
    site.TakenOver plan d left) (sends.mono ?_) taken
  intro request h now reply after serves htaken
  rcases h with leaves | applies
  · rwa [leaves now reply after serves]
  · rcases applies.serves serves with ⟨rfl, -⟩ | htaken
    · exact htaken
    · exact htaken

/-- The dependents that a successful reconcile applies whatever the others report: the supporting
ones if the site should run, and the workload if it should be suspended. -/
def AppliesAlways (site : Site) (kind : DependentKind) : Prop :=
  (site.spec.isSuspended = false ∧ kind ∈ DependentKind.supporting) ∨
    (site.spec.isSuspended = true ∧ kind = .moodle)

theorem exists_apply_mem_calls {made : List Pass.AnsweredCall} {ended : PassResult}
    (alive : site.isTerminating = false) (wellFormed : plan.WellFormed)
    (run : (site.pass plan now).Runs made ended) (hnone : ∀ e ∈ made, Pass.failure? e = none)
    (hd : plan.dependent? kind = some d) (always : site.AppliesAlways kind) :
    ∃ applied, (applied = d ∨ applied = d.suspended) ∧ .apply applied ∈ Pass.calls made := by
  simp only [pass, alive, Bool.false_eq_true, if_false] at run
  rcases always with ⟨running, hkind⟩ | ⟨suspended, rfl⟩
  · rw [running] at run
    have hmem : .apply d ∈ Pass.supportingSchedule plan := Pass.apply_mem_schedule_iff.mpr
      ⟨d, Pass.mem_configured.mpr ⟨kind, hkind, hd⟩, rfl⟩
    refine ⟨d, Or.inl rfl, ?_⟩
    rcases (Pass.runs_present wellFormed run).cut with
      ⟨error, ⟨before, final, rfl, hfinal, -⟩, -⟩ | ⟨-, -, ⟨-, hcalls⟩ | ⟨-, hcalls⟩⟩
    · rw [hnone final (by simp)] at hfinal
      cases hfinal
    · rw [hcalls]
      exact (Pass.supportingSchedule_prefix_present plan).subset hmem
    · rwa [hcalls]
  · rw [if_pos suspended] at run
    obtain ⟨ending, walk, -⟩ := Pass.runs_suspend run
    have first : kindsBefore suspendOrder .moodle = [] := by decide
    refine ⟨d.suspended, Or.inr rfl, (Pass.suspends_iff wellFormed walk hd).mpr ⟨?_, ?_⟩⟩
    · exact fun e he _ => hnone e he
    · simp [first]

/-- A successful reconcile of a site that is not being deleted has applied these dependents. -/
theorem exists_appliesTo {progress : Progress} (alive : site.isTerminating = false)
    (run : (site.reconcile manager now).Runs trace (.ok progress))
    (composed : site.Composed trace plan) (hd : plan.dependent? kind = some d)
    (always : site.AppliesAlways kind) :
    ∃ request reply, sent request reply ∈ trace ∧ site.AppliesTo plan d request := by
  obtain ⟨prep, rest, rfl, -, ⟨-, error, heq⟩ | ⟨other, owner, prepared, hproceed⟩⟩ :=
    runs_reconcile run
  · cases heq
  obtain rfl := composed.unique (prepared.composed.append rest)
  obtain ⟨reference, hreference, rfl⟩ := prepared.owner
  rcases runs_proceed_pass hproceed with
    ⟨-, terminating | ⟨error, heq⟩⟩ | ⟨before, events, after, made, ended, rfl, makes, hfails⟩
  · rw [alive] at terminating
    cases terminating
  · cases heq
  have hnone : ∀ e ∈ made, Pass.failure? e = none := by
    rcases site.pass_outcome composed makes.runs with ⟨error, -, houtcome⟩ | ⟨hnone, -⟩
    · cases (hfails error houtcome).2
    · exact hnone
  obtain ⟨applied, happlied, hmem⟩ :=
    exists_apply_mem_calls alive composed.wellFormed.1 makes.runs hnone hd always
  obtain ⟨⟨call, answer⟩, he, rfl⟩ := Pass.mem_calls_iff.mp hmem
  obtain ⟨part, hpart, hsub⟩ := makes.performed.exists_runs he
  have hlocator : applied.locator = d.locator := by rcases happlied with rfl | rfl <;> rfl
  cases answer with
  | error cause => cases hnone _ he
  | ok status =>
      obtain ⟨reply, rfl, -⟩ := SiteOwner.runs_apply_ok hpart
      refine ⟨_, reply, ?_, reference, manager, applied, hreference, happlied, by rw [← hlocator]⟩
      have hevents := hsub List.mem_cons_self
      exact List.mem_append_right prep
        (List.mem_append_right before (List.mem_append_left after hevents))

/-- What becomes of a dependent of another owner at a place of the plan. Its spec, its labels and
its owner references are what they were exactly if it has not been touched at all; else the site has
taken it over. It is not touched if it is not applied, and taken over if a request that applies it
succeeds. A reconcile that succeeds has applied the supporting dependents if the site should run,
and the workload if the site should be suspended, whomever they belong to. -/
theorem keeps_foreign_iff (alive : site.isTerminating = false)
    (run : (site.reconcile manager now).Runs trace result) (served : Served cluster trace last)
    (composed : site.Composed trace plan) (huid : site.metadata.uid = some uid)
    (hd : plan.dependent? kind = some d) (stored : cluster.stored? d.locator = some value)
    (foreign : value.ownedBy uid = false) :
    ((∃ left, last.stored? d.locator = some left ∧ left.Agrees value) ↔
        last.stored? d.locator = some value) ∧
      (last.stored? d.locator ≠ some value →
        ∃ left, last.stored? d.locator = some left ∧ site.TakenOver plan d left) ∧
      ((∀ request reply, sent request reply ∈ trace → ¬ site.AppliesTo plan d request) →
        last.stored? d.locator = some value) ∧
      (∀ request reply, sent request reply ∈ trace → site.AppliesTo plan d request →
        ¬ request.Fails reply → last.stored? d.locator ≠ some value) ∧
      (∀ progress, result = .ok progress → site.AppliesAlways kind →
        last.stored? d.locator ≠ some value) := by
  have sends := leaves_or_appliesTo alive run composed hd
  have dichotomy : last.stored? d.locator = some value ∨
      ∃ left, last.stored? d.locator = some left ∧ site.TakenOver plan d left := by
    refine served.of_onlySends (P := fun now => now.stored? d.locator = some value ∨
      ∃ left, now.stored? d.locator = some left ∧ site.TakenOver plan d left) (sends.mono ?_)
      (Or.inl stored)
    intro request h now reply after serves hnow
    rcases h with leaves | applies
    · rwa [leaves now reply after serves]
    · rcases applies.serves serves with ⟨rfl, -⟩ | htaken
      · exact hnow
      · exact Or.inr htaken
  have untaken : ¬ site.TakenOver plan d value := by
    intro taken
    have howned := taken.ownedBy huid
    rw [foreign] at howned
    cases howned
  have takes (request : Request) (reply : Reply) (hmem : sent request reply ∈ trace)
      (applies : site.AppliesTo plan d request) (succeeds : ¬ request.Fails reply) :
      last.stored? d.locator ≠ some value := by
    obtain ⟨before, after, rfl⟩ := List.append_of_mem hmem
    obtain ⟨middle, -, hrest⟩ := served.of_append
    cases hrest with
    | cons serves hafter =>
        have hmiddle := (applies.serves serves).resolve_left fun h => succeeds h.2
        obtain ⟨left, hleft, taken⟩ := takenOver_of_served (fun request reply hmem =>
          sends request reply (List.mem_append_right before (List.mem_cons_of_mem _ hmem)))
          hafter hmiddle
        intro heq
        rw [hleft] at heq
        cases heq
        exact untaken taken
  refine ⟨⟨?_, fun h => ⟨value, h, rfl, rfl, rfl⟩⟩, fun hne => dichotomy.resolve_left hne,
    ?_, takes, ?_⟩
  · rintro ⟨left, hleft, agrees⟩
    rcases dichotomy with hkept | ⟨other, hother, taken⟩
    · exact hkept
    · rw [hleft] at hother
      cases hother
      exact absurd agrees (taken.not_agrees huid foreign)
  · intro unapplied
    rw [← stored]
    refine served.stored?_eq fun request reply hmem => ?_
    exact (sends request reply hmem).resolve_right (unapplied request reply hmem)
  · rintro progress rfl always
    obtain ⟨request, reply, hmem, applies⟩ := exists_appliesTo alive run composed hd always
    exact takes request reply hmem applies (site.strict_reconcile manager now _ _ run request reply
      hmem)

/-- A workload at the place of that of the site `a` which belongs to an earlier site of that
name. -/
def stranger : Json :=
  objectJson DependentKind.moodle.resourceType
    (ownedMeta "lms-a" (some "lms-a")
      ⟨resourceType.apiVersion, resourceType.kind, "a", "old", some true, none⟩ [])
    [("spec", .ofFields [("moodleSize", .string "5Gi")])]

def strangerLocator : Locator := (SiteNames.derive "a").dependent .moodle

def strangerCluster : Cluster :=
  (Cluster.empty.store (Template.locator "t").wirePath
    (.ofFields [("metadata", .object []), ("spec", .object [])])).store
    strangerLocator.wirePath stranger

/-- The site `a` with its labels and its finalizer. -/
def heir : Site where
  metadata := { ObjectMeta.empty with
    name := some "a"
    uid := some "u"
    labels := some (siteLabels "a" none)
    finalizers := some [operatorFinalizer] }
  spec := ⟨"t", none, ⟨.const none, some true⟩⟩
  status := none

set_option maxRecDepth 100000 in
theorem spec_after_play :
    ((strangerCluster.afterPlay heir "manager" "now").stored? strangerLocator).map
        (·.field "spec") ≠ some (stranger.field "spec") := by
  decide +kernel

theorem stored?_stranger : strangerCluster.stored? strangerLocator = some stranger := by
  rw [strangerCluster, Cluster.stored?, Cluster.object?_store, if_pos rfl]

theorem takes_heir : (Episode.play heir "manager" "now" strangerCluster).Takes heir.name "u"
    strangerCluster (strangerCluster.afterPlay heir "manager" "now") :=
  Episode.takes_play rfl "manager" "now" strangerCluster

/-- That reconcile composes a plan, in which the workload stands where the other one is. -/
theorem composed_heir :
    ∃ plan d, heir.Composed (Episode.play heir "manager" "now" strangerCluster).trace plan ∧
      plan.dependent? .moodle = some d ∧ d.locator = strangerLocator := by
  obtain ⟨prep, rest, htrace, prepares, ⟨rfl, -⟩ | ⟨plan, owner, prepared, -⟩⟩ :=
    runs_reconcile takes_heir.runs
  · rw [List.append_nil] at htrace
    have leaves : OnlySends (·.Leaves strangerLocator)
        (Episode.play heir "manager" "now" strangerCluster).trace :=
      htrace ▸ prepares.mono fun _ h => (h.avoids _).leaves
    refine absurd ?_ spec_after_play
    rw [takes_heir.served.stored?_eq leaves, stored?_stranger, Option.map_some]
  · have composed := prepared.composed.append rest
    rw [← htrace] at composed
    obtain ⟨_, _, _, _, _, -, -, -, hcompose⟩ := prepared.composed
    obtain ⟨d, hd⟩ := Plan.compose_workload hcompose
    refine ⟨plan, d, composed, hd, ?_⟩
    rw [composed.wellFormed.1.locator_eq hd, composed.wellFormed.2]
    rfl

/-- The site `a` takes over the workload of the earlier site of that name. -/
theorem keeps_foreign_iff_of_stranger :
    ∃ trace result last plan d left, heir.isTerminating = false ∧
      (heir.reconcile "manager" "now").Runs trace result ∧ Served strangerCluster trace last ∧
      heir.Composed trace plan ∧ heir.metadata.uid = some "u" ∧
      plan.dependent? .moodle = some d ∧ strangerCluster.stored? d.locator = some stranger ∧
      stranger.ownedBy "u" = false ∧
      last.stored? d.locator = some left ∧ heir.TakenOver plan d left := by
  have alive : heir.isTerminating = false := by decide
  have foreign : stranger.ownedBy "u" = false := by decide
  obtain ⟨plan, d, composed, hd, hlocator⟩ := composed_heir
  have stored : strangerCluster.stored? d.locator = some stranger := hlocator ▸ stored?_stranger
  obtain ⟨-, taken, -⟩ := keeps_foreign_iff alive takes_heir.runs takes_heir.served composed
    takes_heir.identified hd stored foreign
  have changed : (strangerCluster.afterPlay heir "manager" "now").stored? d.locator ≠
      some stranger := by
    intro heq
    refine spec_after_play ?_
    rw [← hlocator, heq, Option.map_some]
  obtain ⟨left, hleft, htaken⟩ := taken changed
  exact ⟨_, _, _, plan, d, left, alive, takes_heir.runs, takes_heir.served, composed,
    takes_heir.identified, hd, stored, foreign, hleft, htaken⟩

/-- A reconcile of a site with the UID `u` that is not being deleted changes the spec of a workload
whose controller has the UID `old`. -/
theorem adopts_stranger :
    ∃ trace result last plan d, heir.isTerminating = false ∧ heir.metadata.uid = some "u" ∧
      (heir.reconcile "manager" "now").Runs trace result ∧ Served strangerCluster trace last ∧
      heir.Composed trace plan ∧ plan.dependent? .moodle = some d ∧
      strangerCluster.stored? d.locator = some stranger ∧ stranger.ownedBy "old" = true ∧
      ¬ ∃ left, last.stored? d.locator = some left ∧ left.Agrees stranger := by
  obtain ⟨plan, d, composed, hd, hlocator⟩ := composed_heir
  refine ⟨_, _, _, plan, d, by decide, takes_heir.identified, takes_heir.runs, takes_heir.served,
    composed, hd, hlocator ▸ stored?_stranger, by decide, ?_⟩
  rintro ⟨left, hleft, agrees⟩
  refine spec_after_play ?_
  rw [← hlocator, hleft, Option.map_some, agrees.spec]

end Site

end SiteOperator
