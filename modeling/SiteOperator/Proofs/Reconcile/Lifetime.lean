import SiteOperator.Proofs.Reconcile.Finalizer
import SiteOperator.Proofs.Reconcile.Serving

/-!
# The dependents of a site over its lifetime

A site is reconciled again and again, and between the reconciles it and its template are edited
(`Lifetime`). Whatever dependent it comes to own was applied by a reconcile whose plan had the kind
(`Lifetime.applied_of_owns`). The reconcile that takes the finalizer away looks at the kinds of its
own plan only: of these nothing is left, and all else that the site owns is left as it is.
-/

namespace SiteOperator

def SiteNames.dependent (names : SiteNames) (kind : DependentKind) : Locator :=
  ⟨kind.resourceType, some names.namespaceName, names.baseName⟩

def SiteNames.IsPlace (names : SiteNames) (path : String) : Prop :=
  ∃ kind, path = (names.dependent kind).wirePath

theorem SiteNames.starts_dependent (names : SiteNames) (kind : DependentKind) :
    kind.resourceType.Starts (names.dependent kind).wirePath :=
  (names.dependent kind).starts_wirePath kind.resourceType_mem_known

namespace Plan

variable {plan : Plan} {kind : DependentKind} {d : DependentSpec}

theorem WellFormed.locator_eq (h : plan.WellFormed) (hd : plan.dependent? kind = some d) :
    d.locator = plan.names.dependent kind := by
  obtain ⟨rfl, hname, hnamespace⟩ := h kind d hd
  rw [DependentSpec.locator, hname, hnamespace, SiteNames.dependent]

end Plan

namespace Request

variable {request : Request} {names : SiteNames} {kind : DependentKind}

/-- A request about an object of another type leads to the place of no dependent. -/
theorem avoids_of_surroundings {type : ResourceType} (htype : type ∈ ResourceType.surroundings)
    (h : ∀ wire, request.wire? = some wire → type.Starts (Cluster.target wire)) :
    request.Avoids names.IsPlace := by
  rintro wire hwire ⟨kind, heq⟩
  have hstarts := h wire hwire
  rw [heq] at hstarts
  exact kind.not_starts htype hstarts (names.starts_dependent kind)

theorem Avoids.leaves (h : request.Avoids names.IsPlace) :
    request.Leaves (names.dependent kind) :=
  leaves_of_target_ne fun wire hwire heq => h wire hwire ⟨kind, heq⟩

theorem avoids_of_wirePath {object : Locator}
    (hobject : object.type ∈ ResourceType.surroundings)
    (h : ∀ wire, request.wire? = some wire → Cluster.target wire = object.wirePath) :
    request.Avoids names.IsPlace :=
  avoids_of_surroundings hobject fun wire hwire => by
    rw [h wire hwire]
    exact Locator.starts_wirePath (ResourceType.mem_known_of_surroundings hobject)

theorem leaves_create {object : Locator} (hobject : object.type ∈ ResourceType.surroundings)
    (body : Json) : (create object body).Leaves (names.dependent kind) :=
  (avoids_of_surroundings hobject fun _ hwire =>
    starts_target_create (ResourceType.mem_known_of_surroundings hobject) hwire).leaves

theorem leaves_delete {object : Locator} (hobject : object.type ∈ ResourceType.surroundings) :
    (delete object).Leaves (names.dependent kind) :=
  (avoids_of_wirePath hobject fun _ hwire => (wire_delete hwire).2).leaves

/-- A request about a dependent of the plan leaves those of other kinds alone. -/
theorem leaves_or_eq {plan : Plan} {other : DependentKind} {d : DependentSpec}
    (wellFormed : plan.WellFormed) (hd : plan.dependent? other = some d)
    (h : ∀ wire, request.wire? = some wire → Cluster.target wire = d.locator.wirePath)
    (kind : DependentKind) :
    request.Leaves (plan.names.dependent kind) ∨
      plan.has kind = true ∧ d.locator = plan.names.dependent kind := by
  by_cases hkind : other = kind
  · subst hkind
    exact Or.inr ⟨Plan.has_iff.mpr ⟨d, hd⟩, wellFormed.locator_eq hd⟩
  · refine Or.inl (leaves_of_target_ne fun wire hwire heq => hkind ?_)
    have hstarts := plan.names.starts_dependent other
    rw [← wellFormed.locator_eq hd, ← h wire hwire, heq] at hstarts
    exact DependentKind.eq_of_starts hstarts (plan.names.starts_dependent kind)

end Request

/-- What is sent about the namespace and the policies of a site leaves all dependents alone. -/
theorem Plan.Surrounds.leaves {plan : Plan} {owner : SiteOwner} {request : Request}
    (h : plan.Surrounds owner request) (names : SiteNames) (kind : DependentKind) :
    request.Leaves (names.dependent kind) := by
  cases h with
  | readNamespace | readPolicy => exact Request.leaves_get _ _
  | createNamespace => exact Request.leaves_create (show ResourceType.namespaces ∈ _ by decide) _
  | createNamespacePolicy | createNginxPolicy =>
      exact Request.leaves_create (show ResourceType.networkPolicies ∈ _ by decide) _
  | deletePolicy => exact Request.leaves_delete (show ResourceType.networkPolicies ∈ _ by decide)

namespace Site

variable {site : Site} {manager now uid : String} {plan : Plan} {owner : SiteOwner}
  {trace : List AnsweredEffect} {result : Except Raised Progress} {request : Request}
  {names : SiteNames} {kind : DependentKind} {cluster last : Cluster}

theorem avoids_patch (body : Json) :
    (Request.patch site.ownLocator body).Avoids names.IsPlace :=
  Request.avoids_of_surroundings (by decide) fun _ hwire => Request.starts_target_patch hwire

theorem avoids_patchStatus (body : Json) :
    (Request.patchStatus site.ownLocator body).Avoids names.IsPlace :=
  Request.avoids_of_surroundings (by decide) fun _ hwire => Request.starts_target_patchStatus hwire

theorem Prepares.avoids (h : site.Prepares request) (names : SiteNames) :
    request.Avoids names.IsPlace := by
  cases h with
  | readTemplate =>
      exact Request.avoids_of_wirePath (show Template.resourceType ∈ _ by decide)
        fun _ hwire => (Request.wire_get hwire).2
  | patchLabels => exact avoids_patch _

theorem Composed.wellFormed (composed : site.Composed trace plan) :
    plan.WellFormed ∧ plan.names = .derive site.name := by
  obtain ⟨_, _, _, _, _, -, -, -, hcompose⟩ := composed
  exact ⟨Plan.compose_wellFormed hcompose, Plan.compose_names hcompose⟩

/-- Of what a reconcile may send, the dependent of some kind is only concerned by a request that
applies or deletes it, and only if the plan has the kind. -/
theorem MaySend.leaves_or (h : site.MaySend plan owner request) (wellFormed : plan.WellFormed)
    (kind : DependentKind) :
    request.Leaves (plan.names.dependent kind) ∨ plan.has kind = true ∧
      ((∃ manager body, request = .apply (plan.names.dependent kind) manager body) ∨
        request = .delete (plan.names.dependent kind)) := by
  cases h with
  | writeStatus => exact Or.inl (avoids_patchStatus _).leaves
  | addFinalizer | removeFinalizer => exact Or.inl (avoids_patch _).leaves
  | finalize _ _ hfinalizes =>
      cases hfinalizes with
      | check => exact Or.inl (Request.leaves_get _ _)
      | delete hd =>
          refine (Request.leaves_or_eq wellFormed hd (fun _ hwire =>
            (Request.wire_delete hwire).2) kind).imp_right fun ⟨hkind, heq⟩ => ?_
          exact ⟨hkind, Or.inr (by rw [heq])⟩
  | maintain _ hmaintains =>
      cases hmaintains with
      | surroundings hsurrounds => exact Or.inl (hsurrounds.leaves plan.names kind)
      | dependents happlies =>
          cases happlies with
          | observe => exact Or.inl (Request.leaves_get _ _)
          | apply hd | suspend hd =>
              refine (Request.leaves_or_eq wellFormed hd (fun _ hwire =>
                Request.target_apply hwire) kind).imp_right fun ⟨hkind, heq⟩ => ?_
              exact ⟨hkind, Or.inl ⟨_, _, by rw [heq]⟩⟩

/-- What a reconcile sends, it sends before there is a plan, or as the plan allows. -/
theorem reconcile_onlySends (run : (site.reconcile manager now).Runs trace result) :
    OnlySends (fun request => site.Prepares request ∨
      ∃ plan owner, site.Composed trace plan ∧ site.MaySend plan owner request) trace := by
  obtain ⟨prep, rest, rfl, prepares, hrest⟩ := runs_reconcile run
  refine (OnlySends.chains _).append (prepares.mono fun _ => Or.inl) ?_
  rcases hrest with ⟨rfl, -⟩ | ⟨plan, owner, prepared, hproceed⟩
  · exact (OnlySends.chains _).nil
  · exact (proceed_onlySends prepared _ _ hproceed).mono fun request h =>
      Or.inr ⟨plan, owner, prepared.composed.append rest, h⟩

def AppliesKind (site : Site) (trace : List AnsweredEffect) (kind : DependentKind) : Prop :=
  ∃ plan manager body reply, site.Composed trace plan ∧ plan.has kind = true ∧
    sent (.apply (plan.names.dependent kind) manager body) reply ∈ trace

/-- A site comes to own a dependent only by applying it. -/
theorem reconcile_gains (run : (site.reconcile manager now).Runs trace result)
    (served : Served cluster trace last)
    (before : cluster.owns ((SiteNames.derive site.name).dependent kind) uid = false)
    (after : last.owns ((SiteNames.derive site.name).dependent kind) uid = true) :
    site.AppliesKind trace kind := by
  refine Classical.byContradiction fun hnone => ?_
  have withholds : OnlySends
      (·.Withholds ((SiteNames.derive site.name).dependent kind) uid) trace := by
    intro request reply hmem
    rcases reconcile_onlySends run request reply hmem with
      prepares | ⟨plan, owner, composed, hsends⟩
    · exact (prepares.avoids _).leaves.withholds
    · obtain ⟨wellFormed, hnames⟩ := composed.wellFormed
      rw [← hnames]
      rcases hsends.leaves_or wellFormed kind with
        leaves | ⟨hkind, ⟨manager, body, rfl⟩ | rfl⟩
      · exact leaves.withholds
      · exact absurd ⟨plan, manager, body, reply, composed, hkind, hmem⟩ hnone
      · exact Request.withholds_delete _ _ _
  rw [served.owns_of_owns withholds after] at before
  cases before

/-- The reconcile that takes the finalizer away leaves nothing of the kinds of its plan, and all
that the site owns of other kinds. -/
theorem reconcile_leaves (run : (site.reconcile manager now).Runs trace result)
    (served : Served cluster trace last) (huid : site.metadata.uid = some uid) {reply : Reply}
    (hmem : sent request reply ∈ trace) (removes : request.RemovesFinalizer) :
    ∃ plan, site.Composed trace plan ∧ ∀ kind,
      last.owns ((SiteNames.derive site.name).dependent kind) uid = true ↔
        cluster.owns ((SiteNames.derive site.name).dependent kind) uid = true ∧
          plan.has kind = false := by
  rcases reconcile_removes run with ⟨quiet, -⟩ | ⟨before, answer, rfl, -, takes, -⟩
  · exact absurd removes (quiet request reply hmem)
  obtain ⟨plan, uid', prep, checks, status, stored, rfl, prepares, composed, huid', gone, -,
    hstatus⟩ := takes.gone
  obtain rfl : uid = uid' := Option.some.inj (huid.symm.trans huid')
  obtain ⟨wellFormed, hnames⟩ := composed.wellFormed
  rw [← hnames]
  refine ⟨plan, ((composed.append checks).append status).append _, fun kind => ?_⟩
  have ending : OnlySends (·.Leaves (plan.names.dependent kind))
      (status ++ [sent site.finalizerRemoval answer]) := by
    refine (OnlySends.chains _).append ?_ (OnlySends.sent (avoids_patch _).leaves answer)
    rcases hstatus with ⟨reply, rfl⟩ | ⟨rfl, -⟩
    · exact OnlySends.sent (avoids_patchStatus _).leaves reply
    · exact (OnlySends.chains _).nil
  rw [List.append_assoc] at served
  obtain ⟨settled, hsettled, hended⟩ := served.of_append
  obtain ⟨prepared, hprepared, hchecked⟩ := hsettled.of_append
  have hlast : last.stored? (plan.names.dependent kind) =
      settled.stored? (plan.names.dependent kind) := hended.stored?_eq ending
  cases hkind : plan.has kind with
  | true =>
      obtain ⟨d, hd⟩ := Plan.has_iff.mp hkind
      have hmem : d ∈ Pass.configured plan [.moodle, .keydb, .postgres, .nfs] :=
        Pass.mem_configured.mpr ⟨kind, by cases kind <;> simp, hd⟩
      have hgone := gone.owns_eq_false hchecked hmem
      rw [wellFormed.locator_eq hd, Cluster.owns, ← hlast] at hgone
      simp [Cluster.owns, hgone]
  | false =>
      have quiet : OnlySends (·.Leaves (plan.names.dependent kind)) checks := by
        refine gone.onlySends.mono fun request h => ?_
        obtain ⟨d, hd, rfl | rfl⟩ := h
        · exact Request.leaves_get _ _
        · obtain ⟨other, -, hother⟩ := Pass.mem_configured.mp hd
          refine (Request.leaves_or_eq wellFormed hother (fun _ hwire =>
            (Request.wire_delete hwire).2) kind).resolve_right fun h => ?_
          rw [h.1] at hkind
          cases hkind
      have hstored : last.stored? (plan.names.dependent kind) =
          cluster.stored? (plan.names.dependent kind) := by
        rw [hlast, hchecked.stored?_eq quiet,
          hprepared.stored?_eq (prepares.mono fun _ h => (h.avoids _).leaves)]
      simp [Cluster.owns, hstored]

end Site

def Cluster.ownsKind (cluster : Cluster) (name uid : String) (kind : DependentKind) : Bool :=
  cluster.owns ((SiteNames.derive name).dependent kind) uid

/-- One reconcile of a site, with what it sent, what it was answered and how it ended. -/
structure Episode where
  site : Site
  manager : String
  now : String
  trace : List AnsweredEffect
  result : Except Raised Progress

/-- The episode is a reconcile of the site with this name and UID, during which the cluster goes
from one state to another. -/
structure Episode.Takes (e : Episode) (name uid : String) (cluster last : Cluster) : Prop where
  named : e.site.name = name
  identified : e.site.metadata.uid = some uid
  runs : (e.site.reconcile e.manager e.now).Runs e.trace e.result
  served : Served cluster e.trace last

/-- A reconcile that settles takes the finalizer away from a site that is being deleted. -/
theorem Episode.Takes.removes {e : Episode} {name uid : String} {cluster last : Cluster}
    (takes : e.Takes name uid cluster last) (terminating : e.site.isTerminating = true)
    (carries : e.site.metadata.hasFinalizer operatorFinalizer = true)
    (settled : e.result.toOption = some .settled) :
    ∃ reply, sent e.site.finalizerRemoval reply ∈ e.trace ∧
      ¬ e.site.finalizerRemoval.Fails reply := by
  have hresult : e.result = .ok .settled := by
    cases hresult : e.result with
    | error _ =>
        rw [hresult] at settled
        cases settled
    | ok progress =>
        rw [hresult] at settled
        exact congrArg Except.ok (Option.some.inj settled)
  rcases Site.reconcile_removes takes.runs with ⟨-, hlacks⟩ | ⟨before, reply, htrace, -, -, hok⟩
  · rw [hlacks terminating hresult] at carries
    cases carries
  · refine ⟨reply, ?_, hok hresult⟩
    rw [htrace]
    exact List.mem_append_right before List.mem_cons_self

/-- The reconcile of a site in a cluster that answers every request by its rules. -/
def Episode.play (site : Site) (manager now : String) (cluster : Cluster) : Episode where
  site := site
  manager := manager
  now := now
  trace := Dialogue.transcript (Cluster.serve false) (site.reconcile manager now).run cluster
  result := (Dialogue.run (Cluster.serve false) (site.reconcile manager now).run cluster).1

theorem Episode.site_play (site : Site) (manager now : String) (cluster : Cluster) :
    (play site manager now cluster).site = site := rfl

def Cluster.afterPlay (site : Site) (manager now : String) (cluster : Cluster) : Cluster :=
  (Dialogue.run (Cluster.serve false) (site.reconcile manager now).run cluster).2

theorem Cluster.run_eq_afterPlay {site : Site} {manager now : String} {cluster : Cluster}
    {result : Except Raised Progress}
    (h : (Dialogue.run (Cluster.serve false) (site.reconcile manager now).run cluster).1 = result) :
    Dialogue.run (Cluster.serve false) (site.reconcile manager now).run cluster =
      (result, cluster.afterPlay site manager now) := by
  rw [afterPlay, ← h]

theorem Episode.takes_play {site : Site} {uid : String} (huid : site.metadata.uid = some uid)
    (manager now : String) (cluster : Cluster) :
    (play site manager now cluster).Takes site.name uid cluster
      (cluster.afterPlay site manager now) where
  named := rfl
  identified := huid
  runs := Dialogue.runs_transcript _ _ _
  served := cluster.served_transcript _ _

/-- Others change the cluster in whatever way, except that they make no dependent the site's, and
that one which is the site's stays so unless it is being deleted. -/
structure Edits (name uid : String) (cluster edited : Cluster) : Prop where
  gains : ∀ kind, edited.ownsKind name uid kind = true → cluster.ownsKind name uid kind = true
  losses : ∀ kind, cluster.ownsKind name uid kind = true → edited.ownsKind name uid kind = false →
    ∃ object, cluster.stored? ((SiteNames.derive name).dependent kind) = some object ∧
      Cluster.isTerminating object = true

/-- Storing an object that is no dependent changes nothing about the dependents. -/
theorem Cluster.ownsKind_store {object : Locator} (h : object.type ∈ ResourceType.surroundings)
    (cluster : Cluster) (value : Json) (name uid : String) (kind : DependentKind) :
    (cluster.store object.wirePath value).ownsKind name uid kind =
      cluster.ownsKind name uid kind := by
  have hne : object.wirePath ≠ ((SiteNames.derive name).dependent kind).wirePath := by
    intro heq
    have hstarts := Locator.starts_wirePath (ResourceType.mem_known_of_surroundings h)
    rw [heq] at hstarts
    exact kind.not_starts h hstarts ((SiteNames.derive name).starts_dependent kind)
  rw [ownsKind, owns, stored?, object?_store_of_ne _ hne, ownsKind, owns, stored?]

theorem Cluster.ownsKind_empty (name uid : String) (kind : DependentKind) :
    empty.ownsKind name uid kind = false := rfl

theorem Edits.of_ownsKind_eq {name uid : String} {cluster edited : Cluster}
    (h : ∀ kind, edited.ownsKind name uid kind = cluster.ownsKind name uid kind) :
    Edits name uid cluster edited where
  gains := fun kind howns => h kind ▸ howns
  losses := fun kind howns hlost => by
    rw [h kind, howns] at hlost
    cases hlost

/-- The reconciles that a site has been through, the latest first, and the cluster after all of them
and after the edits between them. A site owns nothing in the beginning. -/
inductive Lifetime (name uid : String) : List Episode → Cluster → Prop where
  | start {cluster : Cluster} (nothing : ∀ kind, cluster.ownsKind name uid kind = false) :
      Lifetime name uid [] cluster
  | edit {history : List Episode} {cluster edited : Cluster}
      (life : Lifetime name uid history cluster) (edits : Edits name uid cluster edited) :
      Lifetime name uid history edited
  | reconcile {history : List Episode} {cluster last : Cluster} {e : Episode}
      (life : Lifetime name uid history cluster) (takes : e.Takes name uid cluster last) :
      Lifetime name uid (e :: history) last

namespace Lifetime

variable {name uid : String} {history : List Episode} {cluster left : Cluster}

/-- Whatever dependent a site owns was applied by one of its reconciles, whose plan had the kind. -/
theorem applied_of_ownsKind {kind : DependentKind} (life : Lifetime name uid history cluster)
    (howns : cluster.ownsKind name uid kind = true) :
    ∃ e ∈ history, e.site.AppliesKind e.trace kind := by
  induction life with
  | start nothing =>
      rw [nothing kind] at howns
      cases howns
  | edit _ edits ih => exact ih (edits.gains kind howns)
  | @reconcile history cluster last e _ takes ih =>
      cases hbefore : cluster.ownsKind name uid kind with
      | true =>
          obtain ⟨earlier, hmem, happlies⟩ := ih hbefore
          exact ⟨earlier, List.mem_cons_of_mem _ hmem, happlies⟩
      | false =>
          obtain rfl := takes.named
          exact ⟨e, List.mem_cons_self,
            Site.reconcile_gains takes.runs takes.served hbefore howns⟩

/-- The reconcile that takes the finalizer away leaves behind exactly those dependents of the site
whose kinds its plan does not have, all of which an earlier reconcile has applied. So nothing is
left behind exactly if the plan has the kind of every dependent that the site still owns, and this
is so if the plan has every kind that the plan of an earlier reconcile had. -/
theorem left_behind_iff {last : Episode} {request : Request} {reply : Reply}
    (life : Lifetime name uid history cluster) (takes : last.Takes name uid cluster left)
    (hmem : sent request reply ∈ last.trace) (removes : request.RemovesFinalizer) :
    ∃ plan, last.site.Composed last.trace plan ∧
      (∀ kind, left.ownsKind name uid kind = true ↔
        cluster.ownsKind name uid kind = true ∧ plan.has kind = false) ∧
      (∀ kind, left.ownsKind name uid kind = true →
        ∃ e ∈ history, e.site.AppliesKind e.trace kind) ∧
      ((∀ kind, left.ownsKind name uid kind = false) ↔
        ∀ kind, cluster.ownsKind name uid kind = true → plan.has kind = true) ∧
      ((∀ e ∈ history, ∀ other, e.site.Composed e.trace other →
          ∀ kind, other.has kind = true → plan.has kind = true) →
        ∀ kind, left.ownsKind name uid kind = false) := by
  obtain ⟨plan, composed, hleft⟩ :=
    Site.reconcile_leaves takes.runs takes.served takes.identified hmem removes
  rw [takes.named] at hleft
  have hkept (kind : DependentKind) : left.ownsKind name uid kind = true ↔
      cluster.ownsKind name uid kind = true ∧ plan.has kind = false := hleft kind
  have hnone : (∀ kind, left.ownsKind name uid kind = false) ↔
      ∀ kind, cluster.ownsKind name uid kind = true → plan.has kind = true := by
    constructor
    · intro nothing kind howns
      refine Bool.of_not_eq_false fun hlacks => ?_
      exact Bool.eq_false_iff.mp (nothing kind) ((hkept kind).mpr ⟨howns, hlacks⟩)
    · intro covered kind
      refine Bool.eq_false_iff.mpr fun howns => ?_
      obtain ⟨howned, hlacks⟩ := (hkept kind).mp howns
      rw [covered kind howned] at hlacks
      cases hlacks
  refine ⟨plan, composed, hkept, ?_, hnone, ?_⟩
  · intro kind howns
    exact life.applied_of_ownsKind ((hkept kind).mp howns).1
  · intro grows
    refine hnone.mpr fun kind howns => ?_
    obtain ⟨e, he, other, _, _, _, hcomposed, hkind, -⟩ := life.applied_of_ownsKind howns
    exact grows e he other hcomposed kind hkind

def newSite : Site where
  metadata := { ObjectMeta.empty with name := some "a", uid := some "u" }
  spec := ⟨"t", none, .empty⟩
  status := none

/-- A cluster that holds a new site and its template, which gives it a database. -/
def newCluster : Cluster :=
  let blocks := .ofFields [("postgresSpec", .object []), ("lmsMoodleNetpolOmit", .bool true)]
  (Cluster.empty.store (Template.locator "t").wirePath
    (.ofFields [("metadata", .ofFields [("name", .string "t")]), ("spec", blocks)])).store
    (Site.locator "a").wirePath
    (.ofFields [("metadata", newSite.metadata.encode), ("spec", newSite.spec.encode)])

def siteIn (cluster : Cluster) : Site :=
  ((cluster.object? (Site.locator "a").wirePath).bind Site.decode).getD newSite

/-- The cluster after the site has been reconciled and is being deleted. -/
def markedCluster : Cluster :=
  (newCluster.afterPlay newSite "manager" "now").merge (Site.locator "a").wirePath
    (.ofFields [("metadata", .ofFields [("deletionTimestamp", .string Cluster.deletionTime)])])

def sweptCluster : Cluster := markedCluster.afterPlay (siteIn markedCluster) "manager" "now"

theorem nothing_newCluster (kind : DependentKind) :
    newCluster.ownsKind "a" "u" kind = false := by
  rw [newCluster, Cluster.ownsKind_store (by decide), Cluster.ownsKind_store (by decide),
    Cluster.ownsKind_empty]

theorem edits_markedCluster :
    Edits "a" "u" (newCluster.afterPlay newSite "manager" "now") markedCluster :=
  .of_ownsKind_eq fun kind => by
    rw [markedCluster, Cluster.merge, Cluster.ownsKind_store (by decide)]

set_option maxRecDepth 100000 in
/-- Nothing is left behind of a site whose first reconcile applies a database. The second one, when
the site is being deleted, deletes it, and the third one takes the finalizer away. -/
theorem left_behind_iff_of_kept_block :
    ∃ (first second last : Episode) (left : Cluster) (reply : Reply),
      Lifetime "a" "u" [first] markedCluster ∧
      markedCluster.ownsKind "a" "u" .postgres = true ∧
      second.Takes "a" "u" markedCluster sweptCluster ∧
      second.result.toOption = some .requeue ∧
      Lifetime "a" "u" [second, first] sweptCluster ∧
      last.Takes "a" "u" sweptCluster left ∧
      sent last.site.finalizerRemoval reply ∈ last.trace ∧
      ∀ kind, left.ownsKind "a" "u" kind = false := by
  have ends : markedCluster.ownsKind "a" "u" .postgres = true ∧
      (siteIn markedCluster).name = "a" ∧ (siteIn markedCluster).metadata.uid = some "u" ∧
      (Episode.play (siteIn markedCluster) "manager" "now" markedCluster).result.toOption =
        some .requeue ∧
      (∀ kind ∈ DependentKind.all, sweptCluster.ownsKind "a" "u" kind = false) ∧
      (siteIn sweptCluster).name = "a" ∧ (siteIn sweptCluster).metadata.uid = some "u" ∧
      (siteIn sweptCluster).isTerminating = true ∧
      (siteIn sweptCluster).metadata.hasFinalizer operatorFinalizer = true ∧
      (Episode.play (siteIn sweptCluster) "manager" "now" sweptCluster).result.toOption =
        some .settled := by
    decide +kernel
  obtain ⟨howns, hname, huid, hwaits, hnone, hname', huid', terminating, carries, settled⟩ := ends
  have life : Lifetime "a" "u" [Episode.play newSite "manager" "now" newCluster] markedCluster :=
    .edit (.reconcile (.start nothing_newCluster)
      (Episode.takes_play rfl "manager" "now" newCluster)) edits_markedCluster
  have sweeps := Episode.takes_play huid "manager" "now" markedCluster
  rw [hname] at sweeps
  have takes := Episode.takes_play huid' "manager" "now" sweptCluster
  rw [hname'] at takes
  have hsite := Episode.site_play (siteIn sweptCluster) "manager" "now" sweptCluster
  rw [← hsite] at terminating carries
  obtain ⟨reply, hmem, -⟩ := takes.removes terminating carries settled
  have swept := life.reconcile sweeps
  obtain ⟨plan, -, -, -, hleft, -⟩ :=
    left_behind_iff swept takes hmem Site.removesFinalizer_finalizerRemoval
  refine ⟨_, _, _, _, reply, life, howns, sweeps, hwaits, swept, takes, hmem, ?_⟩
  refine hleft.mpr fun kind howns => ?_
  cases (hnone kind kind.mem_all).symm.trans howns

/-- The cluster after the site has been reconciled, the template has lost its block and the site is
being deleted. -/
def editedCluster : Cluster :=
  ((newCluster.afterPlay newSite "manager" "now").merge (Template.locator "t").wirePath
    (.ofFields [("spec", .ofFields [("postgresSpec", .null)])])).merge (Site.locator "a").wirePath
    (.ofFields [("metadata", .ofFields [("deletionTimestamp", .string Cluster.deletionTime)])])

def editedSite : Site :=
  ((editedCluster.object? (Site.locator "a").wirePath).bind Site.decode).getD newSite

set_option maxRecDepth 100000 in
/-- A database is left behind if its block is dropped from the template before the site is deleted.
Of the edits, none touches anything but the template and the site. -/
theorem left_behind_of_dropped_block :
    ∃ (history : List Episode) (last : Episode) (left : Cluster) (reply : Reply),
      Lifetime "a" "u" history editedCluster ∧
      last.Takes "a" "u" editedCluster left ∧
      sent last.site.finalizerRemoval reply ∈ last.trace ∧
      ¬ last.site.finalizerRemoval.Fails reply ∧ left.ownsKind "a" "u" .postgres = true := by
  have unchanged : ∀ kind, editedCluster.ownsKind "a" "u" kind =
      (newCluster.afterPlay newSite "manager" "now").ownsKind "a" "u" kind := by
    intro kind
    rw [editedCluster, Cluster.merge, Cluster.ownsKind_store (by decide), Cluster.merge,
      Cluster.ownsKind_store (by decide)]
  have life : Lifetime "a" "u" [Episode.play newSite "manager" "now" newCluster] editedCluster :=
    .edit (.reconcile (.start nothing_newCluster)
      (Episode.takes_play rfl "manager" "now" newCluster)) (.of_ownsKind_eq unchanged)
  have ends : editedSite.name = "a" ∧ editedSite.metadata.uid = some "u" ∧
      editedSite.isTerminating = true ∧
      editedSite.metadata.hasFinalizer operatorFinalizer = true ∧
      (Episode.play editedSite "manager" "now" editedCluster).result.toOption = some .settled ∧
      (editedCluster.afterPlay editedSite "manager" "now").ownsKind "a" "u" .postgres = true := by
    decide +kernel
  obtain ⟨hname, huid, terminating, carries, settled, howns⟩ := ends
  have takes := Episode.takes_play huid "manager" "now" editedCluster
  rw [hname] at takes
  have hsite := Episode.site_play editedSite "manager" "now" editedCluster
  rw [← hsite] at terminating carries
  obtain ⟨reply, hmem, hok⟩ := takes.removes terminating carries settled
  exact ⟨_, _, _, reply, life, takes, hmem, hok, howns⟩

end Lifetime

end SiteOperator
