import SiteOperator.Proofs.Plan.Names
import SiteOperator.Proofs.Reconcile.Lifetime
import SiteOperator.Proofs.Resource.Written

/-!
# Sites among each other

Besides the site itself a reconcile writes the objects of its plan only (`Site.reconcile_writes`),
and all of these are, or lie in, the namespace of the site. So two sites have an object in common
exactly if they have one namespace (`Plan.disjoint_objects_iff`), and as long as they do not, no
reconcile of the one touches anything of the other (`Site.reconcile_leaves_others`).
-/

namespace SiteOperator

/-- The objects of a site besides the site itself. -/
def Plan.objects (plan : Plan) : List Locator :=
  plan.names.namespaceLocator :: plan.names.policies.map plan.names.policyLocator ++
    (DependentKind.all.filter plan.has).map plan.names.dependent

/-- The namespace that an object is or lies in. -/
def Locator.scope (object : Locator) : String := object.namespaceName.getD object.name

namespace Plan

variable {plan other : Plan} {object : Locator}

theorem mem_objects_iff : object ∈ plan.objects ↔
    object = plan.names.namespaceLocator ∨
      (∃ name ∈ plan.names.policies, plan.names.policyLocator name = object) ∨
        ∃ kind, plan.has kind = true ∧ plan.names.dependent kind = object := by
  simp [objects, DependentKind.mem_all]

theorem namespaceLocator_mem_objects (plan : Plan) : plan.names.namespaceLocator ∈ plan.objects :=
  mem_objects_iff.mpr (Or.inl rfl)

theorem policyLocator_mem_objects {name : String} (h : name ∈ plan.names.policies) :
    plan.names.policyLocator name ∈ plan.objects :=
  mem_objects_iff.mpr (Or.inr (Or.inl ⟨name, h, rfl⟩))

theorem WellFormed.locator_mem_objects (wellFormed : plan.WellFormed) {kind : DependentKind}
    {d : DependentSpec} (h : plan.dependent? kind = some d) : d.locator ∈ plan.objects :=
  mem_objects_iff.mpr
    (Or.inr (Or.inr ⟨kind, has_iff.mpr ⟨d, h⟩, (wellFormed.locator_eq h).symm⟩))

theorem scope_of_mem_objects (h : object ∈ plan.objects) :
    object.scope = plan.names.namespaceName := by
  rcases mem_objects_iff.mp h with rfl | ⟨name, -, rfl⟩ | ⟨kind, -, rfl⟩ <;> rfl

theorem type_mem_written (h : object ∈ plan.objects) : object.type ∈ ResourceType.written := by
  rcases mem_objects_iff.mp h with rfl | ⟨name, -, rfl⟩ | ⟨kind, -, rfl⟩
  · exact List.mem_cons_self
  · exact List.mem_cons_of_mem _ List.mem_cons_self
  · exact List.mem_append_right _ (List.mem_map_of_mem kind.mem_all)

/-- Two plans have no object in common exactly if they are plans for different namespaces. -/
theorem disjoint_objects_iff_namespaceName_ne :
    (∀ object ∈ plan.objects, object ∉ other.objects) ↔
      plan.names.namespaceName ≠ other.names.namespaceName := by
  constructor
  · intro disjoint heq
    refine disjoint _ plan.namespaceLocator_mem_objects ?_
    rw [SiteNames.namespaceLocator, heq]
    exact other.namespaceLocator_mem_objects
  · intro hne object hmem hother
    exact hne ((scope_of_mem_objects hmem).symm.trans (scope_of_mem_objects hother))

/-- If the name of a site is a segment of a path, so are the names of all of its objects. -/
theorem segmented_of_mem_objects {site : String} (hnames : plan.names = .derive site)
    (segment : IsSegment site) (h : object ∈ plan.objects) : object.Segmented := by
  have hnamespace : IsSegment plan.names.namespaceName := hnames ▸ segment.namespaceName
  have hbase : IsSegment plan.names.baseName := hnames ▸ segment.baseName
  refine ⟨ResourceType.known_of_written (type_mem_written h), ?_, ?_⟩
  · rcases mem_objects_iff.mp h with rfl | ⟨name, -, rfl⟩ | ⟨kind, -, rfl⟩
    · exact nofun
    all_goals
      intro ns heq
      obtain rfl := Option.some.inj heq
      exact hnamespace
  · rcases mem_objects_iff.mp h with rfl | ⟨name, hname, rfl⟩ | ⟨kind, -, rfl⟩
    · exact hnamespace
    · rw [SiteNames.policies, List.mem_cons, List.mem_singleton] at hname
      rcases hname with rfl | rfl
      · exact hbase.append (show IsSegment "-ns" by decide)
      · exact hbase.append (show IsSegment "-nginx" by decide)
    · exact hbase

end Plan

def Request.LeadsTo (request : Request) (object : Locator) : Prop :=
  ∀ wire, request.wire? = some wire → Cluster.target wire = object.wirePath

/-- A request about the site itself leads to the paths of sites. -/
def Request.Stays (request : Request) : Prop :=
  ∀ wire, request.wire? = some wire → Site.resourceType.Starts (Cluster.target wire)

/-- A request about the site itself leaves its objects alone. -/
theorem Request.Stays.leaves {request : Request} {object : Locator} (stays : request.Stays)
    (hobject : object.type ∈ ResourceType.written) : request.Leaves object := by
  refine leaves_of_target_ne fun wire hwire heq => ?_
  have hstarts := stays wire hwire
  rw [heq] at hstarts
  have htype := ResourceType.eq_of_starts hobject (by decide)
    (Locator.starts_wirePath (ResourceType.known_of_written hobject)) hstarts
  rw [htype] at hobject
  exact absurd hobject (by decide)

namespace Site

variable {site : Site} {manager now : String} {plan : Plan} {owner : SiteOwner}
  {trace : List AnsweredEffect} {result : Except Raised Progress} {request : Request}
  {object : Locator} {cluster last : Cluster}

/-- A request reads, or it is about the site itself, or it is about an object of the plan. -/
inductive Concerns (site : Site) (plan : Plan) (request : Request) : Prop where
  | read {object : Locator} (h : request = .get object)
  | itself (h : request.object = site.ownLocator) (stays : request.Stays)
  | owned (h : request.object ∈ plan.objects)
      (leads : request.object.Segmented → request.LeadsTo request.object)

theorem Prepares.concerns (h : site.Prepares request) (plan : Plan) :
    site.Concerns plan request := by
  cases h with
  | readTemplate => exact .read rfl
  | patchLabels => exact .itself rfl fun _ hwire => Request.starts_target_patch hwire

theorem concerns_of_surrounds (h : plan.Surrounds owner request) : site.Concerns plan request := by
  have hnamespace : plan.names.namespacePolicy ∈ plan.names.policies := by
    simp [SiteNames.policies]
  have hnginx : plan.names.nginxPolicy ∈ plan.names.policies := by simp [SiteNames.policies]
  cases h with
  | readNamespace | readPolicy => exact .read rfl
  | createNamespace =>
      exact .owned plan.namespaceLocator_mem_objects fun segmented _ hwire =>
        (Request.wire_create hwire segmented (plan.names.field_name_namespaceObject _ _)).2.2
  | createNamespacePolicy =>
      exact .owned (Plan.policyLocator_mem_objects hnamespace) fun segmented _ hwire =>
        (Request.wire_create hwire segmented (plan.names.field_name_policyObject _ _ _ _ _)).2.2
  | createNginxPolicy =>
      exact .owned (Plan.policyLocator_mem_objects hnginx) fun segmented _ hwire =>
        (Request.wire_create hwire segmented (plan.names.field_name_policyObject _ _ _ _ _)).2.2
  | deletePolicy _ hname =>
      exact .owned (Plan.policyLocator_mem_objects hname) fun _ _ hwire =>
        (Request.wire_delete hwire).2

theorem MaySend.concerns (h : site.MaySend plan owner request) (wellFormed : plan.WellFormed) :
    site.Concerns plan request := by
  cases h with
  | writeStatus => exact .itself rfl fun _ hwire => Request.starts_target_patchStatus hwire
  | addFinalizer | removeFinalizer =>
      exact .itself rfl fun _ hwire => Request.starts_target_patch hwire
  | finalize _ _ hfinalizes =>
      cases hfinalizes with
      | check => exact .read rfl
      | delete hd => exact .owned (wellFormed.locator_mem_objects hd) fun _ _ hwire =>
          (Request.wire_delete hwire).2
  | maintain _ hmaintains =>
      cases hmaintains with
      | surroundings hsurrounds => exact concerns_of_surrounds hsurrounds
      | dependents happlies =>
          cases happlies with
          | observe => exact .read rfl
          | apply hd | suspend hd =>
              exact .owned (wellFormed.locator_mem_objects hd) fun _ _ hwire =>
                Request.target_apply hwire

/-- Everything that a reconcile with this plan sends reads, or is about the site itself, or is about
an object of the plan. -/
theorem reconcile_concerns (run : (site.reconcile manager now).Runs trace result)
    (composed : site.Composed trace plan) : OnlySends (site.Concerns plan) trace := by
  refine (reconcile_onlySends run).mono fun request h => ?_
  rcases h with prepares | ⟨made, owner, hmade, hsends⟩
  · exact prepares.concerns plan
  · obtain rfl := composed.unique hmade
    exact hsends.concerns composed.wellFormed.1

/-- A request that is no business of the object leaves it alone. -/
theorem Concerns.leaves (h : site.Concerns plan request) (hnames : plan.names = .derive site.name)
    (segment : IsSegment site.name) (segmented : object.Segmented)
    (hobject : object.type ∈ ResourceType.written) (hother : object ∉ plan.objects) :
    request.Leaves object := by
  cases h with
  | read h => exact h ▸ Request.leaves_get _ _
  | itself _ stays => exact stays.leaves hobject
  | owned hmem leads =>
      have hsegmented := Plan.segmented_of_mem_objects hnames segment hmem
      refine Request.leaves_of_target_ne fun wire hwire heq => hother ?_
      rw [leads hsegmented wire hwire] at heq
      rwa [segmented.eq_of_wirePath_eq hsegmented hobject heq.symm]

/-- Two sites of different names, whatever their templates and overrides are. Besides itself a site
writes only objects of its plan. The two plans have no object in common exactly if neither site is
called as the other one with the start of the namespaces in front of it, and then a reconcile of the
one leaves every object of the other as it is. If one is called so, the two have one namespace and
one base name, of which all names of objects are made. -/
theorem reconciles_apart_iff {other : Site} {manager' now' : String}
    {trace' : List AnsweredEffect} {result' : Except Raised Progress} {plan' : Plan}
    (distinct : site.name ≠ other.name) (run : (site.reconcile manager now).Runs trace result)
    (run' : (other.reconcile manager' now').Runs trace' result')
    (composed : site.Composed trace plan) (composed' : other.Composed trace' plan') :
    OnlySends (fun request => request.isRead = true ∨ request.object = site.ownLocator ∨
        request.object ∈ plan.objects) trace ∧
      OnlySends (fun request => request.isRead = true ∨ request.object = other.ownLocator ∨
        request.object ∈ plan'.objects) trace' ∧
      ((∀ object ∈ plan.objects, object ∉ plan'.objects) ↔
        ¬ SharesNamespace site.name other.name) ∧
      (SharesNamespace site.name other.name →
        plan.names.namespaceName = plan'.names.namespaceName ∧
          plan.names.baseName = plan'.names.baseName) ∧
      (¬ SharesNamespace site.name other.name → IsSegment site.name → IsSegment other.name →
        ∀ cluster last, Served cluster trace last → ∀ object ∈ plan'.objects,
          last.stored? object = cluster.stored? object) := by
  obtain ⟨-, hnames⟩ := composed.wellFormed
  obtain ⟨-, hnames'⟩ := composed'.wellFormed
  have concerns {site : Site} {plan : Plan} {request : Request} (h : site.Concerns plan request) :
      request.isRead = true ∨ request.object = site.ownLocator ∨ request.object ∈ plan.objects := by
    cases h with
    | read h => exact Or.inl (h ▸ rfl)
    | itself h => exact Or.inr (Or.inl h)
    | owned h => exact Or.inr (Or.inr h)
  have hshares : plan.names.namespaceName = plan'.names.namespaceName ↔
      SharesNamespace site.name other.name := by
    rw [hnames, hnames']
    exact SiteNames.namespaceName_eq_iff distinct
  refine ⟨(reconcile_concerns run composed).mono fun _ => concerns,
    (reconcile_concerns run' composed').mono fun _ => concerns,
    Plan.disjoint_objects_iff_namespaceName_ne.trans (not_congr hshares), ?_, ?_⟩
  · intro shares
    have hnamespace := hshares.mpr shares
    rw [hnames, hnames'] at hnamespace ⊢
    exact ⟨hnamespace, SiteNames.baseName_eq_of_namespaceName_eq hnamespace⟩
  · intro apart segment segment' cluster last served object hobject
    have hdisjoint := Plan.disjoint_objects_iff_namespaceName_ne.mpr (mt hshares.mp apart)
    exact served.stored?_eq ((reconcile_concerns run composed).mono fun request h =>
      h.leaves hnames segment (Plan.segmented_of_mem_objects hnames' segment' hobject)
        (Plan.type_mem_written hobject) fun hmem => hdisjoint object hmem hobject)

def labelledMeta (name : String) : ObjectMeta :=
  { ObjectMeta.empty with
    name := some name
    uid := some name
    labels := some (siteLabels name none) }

/-- A site that carries the finalizer. -/
def kept (name : String) : Site :=
  ⟨{ labelledMeta name with finalizers := some [operatorFinalizer] }, ⟨"t", none, .empty⟩, none⟩

/-- A site that is being deleted and that nothing holds on to. -/
def released (name : String) : Site :=
  ⟨{ labelledMeta name with deletionTimestamp := some "2025-01-01T00:00:00Z" },
    ⟨"t", none, .empty⟩, none⟩

def answerTemplate : (effect : Effect) → Unit → effect.Answer × Unit :=
  answerKnown (fun object => if object.name = "t" then
    some (.ofFields [("metadata", .object []), ("spec", .object [])]) else none) .null

theorem exists_composed_released (name : String)
    (h : (Dialogue.run answerLeaving ((released name).reconcile "manager" "now").run ()).1.isOk =
      true) :
    ∃ plan, (released name).Composed
      (Dialogue.transcript answerLeaving ((released name).reconcile "manager" "now").run ())
        plan := by
  obtain ⟨prep, rest, htrace, -, ⟨-, error, hresult⟩ | ⟨plan, owner, prepared, -⟩⟩ :=
    runs_reconcile (Dialogue.runs_transcript answerLeaving
      ((released name).reconcile "manager" "now").run ())
  · rw [hresult] at h
    cases h
  · exact ⟨plan, htrace ▸ prepared.composed.append rest⟩

set_option maxRecDepth 10000 in
/-- Two sites with unlike names. -/
theorem reconciles_apart_of_unlike_names :
    ∃ trace trace' plan plan', (released "a").Composed trace plan ∧
      (released "b").Composed trace' plan' ∧ ∀ object ∈ plan.objects, object ∉ plan'.objects := by
  obtain ⟨plan, composed⟩ := exists_composed_released "a" (by decide +kernel)
  obtain ⟨plan', composed'⟩ := exists_composed_released "b" (by decide +kernel)
  have apart := reconciles_apart_iff (show (released "a").name ≠ (released "b").name by decide)
    (Dialogue.runs_transcript answerLeaving _ ()) (Dialogue.runs_transcript answerLeaving _ ())
    composed composed'
  exact ⟨_, _, plan, plan', composed, composed', apart.2.2.1.mpr (by decide)⟩

set_option maxRecDepth 10000 in
/-- Two sites of different names, both of them short enough, whose reconciles create one
namespace. -/
theorem common_namespace_of_names_that_differ_in_start :
    (kept "a").name ≠ (kept "lms-a").name ∧
      (SiteNames.derive (kept "a").name).validate = .ok () ∧
      (SiteNames.derive (kept "lms-a").name).validate = .ok () ∧
      ∃ trace result trace' result' body body' reply reply',
        ((kept "a").reconcile "manager" "now").Runs trace result ∧
        ((kept "lms-a").reconcile "manager" "now").Runs trace' result' ∧
        sent (.create ⟨.namespaces, none, "lms-a"⟩ body) reply ∈ trace ∧
        sent (.create ⟨.namespaces, none, "lms-a"⟩ body') reply' ∈ trace' := by
  have creates : ∀ name ∈ ["a", "lms-a"], ∃ answered ∈ Dialogue.transcript answerTemplate
      ((kept name).reconcile "manager" "now").run (), ∃ reference ∈ (kept name).ownerReference?,
      answered.1 = .send (.create ⟨.namespaces, none, "lms-a"⟩
        ((SiteNames.derive name).namespaceObject reference (siteLabels name none))) := by
    decide +kernel
  obtain ⟨⟨effect, reply⟩, hmem, reference, -, rfl⟩ := creates "a" (by simp)
  obtain ⟨⟨effect, reply'⟩, hmem', reference', -, rfl⟩ := creates "lms-a" (by simp)
  exact ⟨by decide, by decide, by decide, _, _, _, _, _, _, reply, reply',
    Dialogue.runs_transcript answerTemplate _ (), Dialogue.runs_transcript answerTemplate _ (),
    hmem, hmem'⟩

end Site

end SiteOperator
