import SiteOperator.Proofs.Reconcile.Isolation
import SiteOperator.Proofs.Reconcile.Played

/-!
# The surroundings of a site

After the namespace and the network policies of a site have been seen to, they are as they should be
(`Site.surrounded_of_plays`), and as long as they are, seeing to them once more only reads
(`Site.rests_reconcileNamespace`).
-/

namespace SiteOperator

variable {collects : Bool} {cluster middle last : Cluster} {trace : List AnsweredEffect}
  {object other : Locator} {request : Request}

theorem Request.LeadsTo.leavesPath {path : String} (h : request.LeadsTo object)
    (apart : object.wirePath ≠ path) : request.LeavesPath path :=
  Request.leavesPath_of_target_ne fun wire hwire heq => apart ((h wire hwire).symm.trans heq)

theorem Request.leadsTo_delete (object : Locator) : (delete object).LeadsTo object :=
  fun _ hwire => (wire_delete hwire).2

theorem Request.leadsTo_create {body : Json} (segmented : object.Segmented)
    (hname : (body.field "metadata").field "name" = .string object.name) :
    (create object body).LeadsTo object :=
  fun _ hwire => (wire_create hwire segmented hname).2.2

namespace Task

variable {α : Type} {task : Task α} {result : Except Raised α}

/-- Two tasks whose results do not matter are run one after the other. -/
theorem runs_both {β γ : Type} {task : Task β} {next : Task γ}
    (run : ((do let _ ← task) >>= fun _ => do let _ ← next).Runs trace (.ok ())) :
    ∃ first x rest y, trace = first ++ rest ∧ task.Runs first (.ok x) ∧ next.Runs rest (.ok y) := by
  rcases runs_bind_iff.mp run with ⟨_, -, heq⟩ | ⟨_, _, _, rfl, hfirst, hrest⟩
  · cases heq
  rcases runs_bind_iff.mp hfirst with ⟨_, -, heq⟩ | ⟨first, x, _, rfl, htask, hpure⟩
  · cases heq
  obtain ⟨rfl, -⟩ := runs_pure_iff.mp hpure
  rcases runs_bind_iff.mp hrest with ⟨_, -, heq⟩ | ⟨rest, y, _, rfl, hnext, hpure⟩
  · cases heq
  obtain ⟨rfl, -⟩ := runs_pure_iff.mp hpure
  exact ⟨first, x, rest, y, by simp, htask, hnext⟩

theorem Plays.of_both {β γ : Type} {task : Task β} {next : Task γ}
    (plays : ((do let _ ← task) >>= fun _ => do let _ ← next).Plays collects cluster trace (.ok ())
      last) :
    ∃ first x middle rest y, task.Plays collects cluster first (.ok x) middle ∧
      next.Plays collects middle rest (.ok y) last := by
  obtain ⟨first, x, rest, y, htrace, htask, hnext⟩ := runs_both plays.runs
  have answered := plays.answered
  rw [htrace] at answered
  obtain ⟨middle, hbefore, hafter⟩ := answered.of_append
  exact ⟨first, x, middle, rest, y, ⟨htask, hbefore⟩, ⟨hnext, hafter⟩⟩

/-- Creating an object leaves what is elsewhere alone. -/
theorem Plays.stored?_of_createMissing {shapes : List (String × Shape)} {body : Json}
    {created : Bool}
    (plays : (createMissing object shapes body).Plays collects cluster trace (.ok created) last)
    (segmented : object.Segmented)
    (hname : (body.field "metadata").field "name" = .string object.name)
    (apart : object.wirePath ≠ other.wirePath) : last.stored? other = cluster.stored? other :=
  plays.object?_eq (.createMissing (OnlySends.chains _)
    (fun reply => OnlySends.sent (Request.leavesPath_get _ _) reply)
    (fun reply => OnlySends.sent ((Request.leadsTo_create segmented hname).leavesPath apart) reply))

/-- Deleting an object leaves what is elsewhere alone. -/
theorem Plays.stored?_of_deleteOwned {kind uid : String} {read : Decoder ObjectMeta}
    {outcome : DeleteOutcome}
    (plays : (deleteOwned object kind uid read).Plays collects cluster trace (.ok outcome) last)
    (apart : object.wirePath ≠ other.wirePath) : last.stored? other = cluster.stored? other := by
  refine plays.object?_eq fun trace result run => ?_
  refine (runs_deleteOwned run).onlySends.mono ?_
  rintro request (rfl | rfl)
  · exact Request.leavesPath_get _ _
  · exact (Request.leadsTo_delete object).leavesPath apart

end Task

namespace Plan

variable {plan : Plan} {owner : SiteOwner} {uid : String}

/-- Different objects of a plan have different paths. -/
theorem wirePath_ne (segmented : ∀ object ∈ plan.objects, object.Segmented)
    (h : object ∈ plan.objects) (h' : other ∈ plan.objects) (hne : object ≠ other) :
    object.wirePath ≠ other.wirePath :=
  fun heq => hne ((segmented object h).eq_of_wirePath_eq (segmented other h') (type_mem_written h)
    heq)

/-- The namespace of the plan is there. So are its network policies, or if they are omitted, none of
them may be deleted any more. -/
structure Surrounded (plan : Plan) (uid : String) (cluster : Cluster) : Prop where
  namespace_ : cluster.Holds plan.names.namespaceLocator Shape.namespaces
  kept : plan.omitPolicies = false → ∀ name ∈ plan.names.policies,
    cluster.Holds (plan.names.policyLocator name) Shape.networkPolicy
  omitted : plan.omitPolicies = true → ∀ name ∈ plan.names.policies,
    cluster.Spares (plan.names.policyLocator name) Shape.networkPolicy uid

theorem Surrounded.of_stored?_eq (h : plan.Surrounded uid cluster)
    (stored : ∀ object ∈ plan.objects, object.type ∈ ResourceType.surroundings →
      last.stored? object = cluster.stored? object) : plan.Surrounded uid last where
  namespace_ := h.namespace_.of_stored?_eq
    (stored _ plan.namespaceLocator_mem_objects (show ResourceType.namespaces ∈ _ by decide))
  kept := fun homit name hname => (h.kept homit name hname).of_stored?_eq
    (stored _ (policyLocator_mem_objects hname) (show ResourceType.networkPolicies ∈ _ by decide))
  omitted := fun homit name hname => (h.omitted homit name hname).of_stored?_eq
    (stored _ (policyLocator_mem_objects hname) (show ResourceType.networkPolicies ∈ _ by decide))

end Plan

theorem SiteNames.policies_ne (names : SiteNames) : names.namespacePolicy ≠ names.nginxPolicy := by
  intro heq
  rw [namespacePolicy, nginxPolicy, ← String.toList_inj, String.toList_append,
    String.toList_append, List.append_cancel_left_eq] at heq
  exact absurd heq (by decide)

namespace Plan

variable {plan : Plan}

/-- The two network policies are apart. -/
theorem wirePath_policies_ne (segmented : ∀ object ∈ plan.objects, object.Segmented) :
    (plan.names.policyLocator plan.names.nginxPolicy).wirePath ≠
      (plan.names.policyLocator plan.names.namespacePolicy).wirePath :=
  wirePath_ne segmented (policyLocator_mem_objects (by simp [SiteNames.policies]))
    (policyLocator_mem_objects (by simp [SiteNames.policies])) fun heq =>
      plan.names.policies_ne (congrArg Locator.name heq).symm

/-- The network policies are apart from the namespace. -/
theorem wirePath_policy_ne (segmented : ∀ object ∈ plan.objects, object.Segmented) {name : String}
    (hname : name ∈ plan.names.policies) :
    (plan.names.policyLocator name).wirePath ≠ plan.names.namespaceLocator.wirePath :=
  wirePath_ne segmented (policyLocator_mem_objects hname) plan.namespaceLocator_mem_objects
    fun heq => absurd (congrArg Locator.type heq)
      (show ResourceType.networkPolicies ≠ ResourceType.namespaces by decide)

end Plan

namespace Site

variable {plan : Plan} {owner : SiteOwner}

theorem forall_mem_policies_iff {names : SiteNames} {P : String → Prop} :
    (∀ name ∈ names.policies, P name) ↔ P names.namespacePolicy ∧ P names.nginxPolicy := by
  simp [SiteNames.policies]

/-- Once the namespace and the policies of a site have been seen to, they are as they should be. -/
theorem surrounded_of_plays (segmented : ∀ object ∈ plan.objects, object.Segmented)
    (plays : (reconcileNamespace plan owner).Plays collects cluster trace (.ok ()) last) :
    plan.Surrounded owner.reference.uid last := by
  have hns := plan.namespaceLocator_mem_objects
  obtain ⟨hnamespace, hnginx⟩ := forall_mem_policies_iff.mp
    fun _ (hname : _ ∈ plan.names.policies) => Plan.policyLocator_mem_objects hname
  obtain ⟨hfirst, hsecond⟩ := forall_mem_policies_iff.mp
    fun _ (hname : _ ∈ plan.names.policies) => Plan.wirePath_policy_ne segmented hname
  have apart := Plan.wirePath_policies_ne segmented
  have names {name : String} (pods ingress : Json) :=
    plan.names.field_name_policyObject owner.reference plan.composition.labels name pods ingress
  obtain ⟨first, created, start, rest, rfl, hcreate, hrest⟩ := Task.plays_bind_iff.mp plays
  have holds := hcreate.of_createMissing (segmented _ hns)
    (plan.names.field_name_namespaceObject _ _)
  unfold reconcilePolicies at hrest
  cases homit : plan.omitPolicies with
  | true =>
      simp only [homit, if_true] at hrest
      obtain ⟨_, _, between, _, _, hdrop, hdrop'⟩ := hrest.of_both
      have spares := hdrop.of_deleteOwned (by decide)
      have spares' := hdrop'.of_deleteOwned (by decide)
      refine ⟨holds.of_stored?_eq ?_, fun hkept => ?_, fun _ => forall_mem_policies_iff.mpr
        ⟨spares.of_stored?_eq (hdrop'.stored?_of_deleteOwned apart), spares'⟩⟩
      · rw [hdrop'.stored?_of_deleteOwned hsecond, hdrop.stored?_of_deleteOwned hfirst]
      · rw [homit] at hkept
        cases hkept
  | false =>
      simp only [homit, Bool.false_eq_true, if_false] at hrest
      obtain ⟨_, _, between, _, _, hput, hput'⟩ := hrest.of_both
      have holds₁ := hput.of_createMissing (segmented _ hnamespace) (names _ _)
      have holds₂ := hput'.of_createMissing (segmented _ hnginx) (names _ _)
      refine ⟨holds.of_stored?_eq ?_, fun _ => forall_mem_policies_iff.mpr
        ⟨holds₁.of_stored?_eq (hput'.stored?_of_createMissing (segmented _ hnginx) (names _ _)
          apart), holds₂⟩, fun homitted => ?_⟩
      · rw [hput'.stored?_of_createMissing (segmented _ hnginx) (names _ _) hsecond,
          hput.stored?_of_createMissing (segmented _ hnamespace) (names _ _) hfirst]
      · rw [homit] at homitted
        cases homitted

/-- Seeing to the namespace and the policies of a site leaves alone what is no object of the
plan. -/
theorem object?_of_reconcileNamespace (segmented : ∀ object ∈ plan.objects, object.Segmented)
    (plays : (reconcileNamespace plan owner).Plays collects cluster trace (.ok ()) last)
    {path : String} (apart : ∀ object ∈ plan.objects, object.wirePath ≠ path) :
    last.object? path = cluster.object? path := by
  have creates {object : Locator} {body : Json} (h : object ∈ plan.objects)
      (hname : (body.field "metadata").field "name" = .string object.name) :
      (Request.create object body).LeavesPath path :=
    (Request.leadsTo_create (segmented object h) hname).leavesPath (apart object h)
  obtain ⟨hnamespace, hnginx⟩ := forall_mem_policies_iff.mp
    fun _ (hname : _ ∈ plan.names.policies) => Plan.policyLocator_mem_objects hname
  refine plays.object?_eq fun part result run => ?_
  refine (reconcileNamespace_onlySends plan owner _ _ run).mono fun request surrounds => ?_
  cases surrounds with
  | readNamespace | readPolicy => exact Request.leavesPath_get _ _
  | createNamespace =>
      exact creates plan.namespaceLocator_mem_objects (plan.names.field_name_namespaceObject _ _)
  | createNamespacePolicy =>
      exact creates hnamespace (plan.names.field_name_policyObject _ _ _ _ _)
  | createNginxPolicy => exact creates hnginx (plan.names.field_name_policyObject _ _ _ _ _)
  | deletePolicy _ hname =>
      exact (Request.leadsTo_delete _).leavesPath (apart _ (Plan.policyLocator_mem_objects hname))

/-- If the namespace and the policies of a site are as they should be, seeing to them only reads. -/
theorem rests_reconcileNamespace (surrounded : plan.Surrounded owner.reference.uid cluster) :
    Task.Rests collects (reconcileNamespace plan owner) cluster () := by
  refine .bind (.createMissing surrounded.namespace_) ?_
  unfold reconcilePolicies
  cases homit : plan.omitPolicies with
  | true =>
      obtain ⟨spares, spares'⟩ := forall_mem_policies_iff.mp (surrounded.omitted homit)
      obtain ⟨_, hrests⟩ := Task.Rests.deleteOwned collects ResourceType.networkPolicies.kind spares
      obtain ⟨_, hrests'⟩ :=
        Task.Rests.deleteOwned collects ResourceType.networkPolicies.kind spares'
      simp only [if_true]
      exact .bind (.bind hrests (.pure ())) (.bind hrests' (.pure ()))
  | false =>
      obtain ⟨holds, holds'⟩ := forall_mem_policies_iff.mp (surrounded.kept homit)
      simp only [Bool.false_eq_true, if_false]
      exact .bind (.bind (.createMissing holds) (.pure ()))
        (.bind (.createMissing holds') (.pure ()))

end Site

end SiteOperator
