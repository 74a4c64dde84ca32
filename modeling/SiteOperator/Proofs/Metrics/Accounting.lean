import Mathlib.Algebra.GroupWithZero.Nat
import SiteOperator.Proofs.Dialogue.Answers
import SiteOperator.Reconcile.Attempt

/-!
# What the metrics say about reconciles

`Attempted history registry` says that the reconciles of `history` were made one after the other,
each in whatever environment the metrics were found in, and left `registry`. A reconcile itself only
records dependents and references (`Environment.run_kept`), so all that is counted of it is what is
counted when it ends. From that follows, step by step, what all series of a resource come to
(`Registry.Accounts`): each reconcile has one duration and one outcome, but one that waits for
something has two, `requeue` and `success`.
-/

namespace SiteOperator

theorem countP_cons_toNat {α : Type} (picks : α → Bool) (x : α) (rest : List α) :
    (x :: rest).countP picks = rest.countP picks + (picks x).toNat := by
  cases h : picks x <;> simp [h]

namespace Counter

def ofReconciles (resource : String) : Counter → Bool
  | reconciliations r _ => r = resource
  | _ => false

def ofOutcome (resource : String) (outcome : Outcome) : Counter → Bool
  | reconciliations r o => r = resource ∧ o = outcome
  | _ => false

/-- The series of what the reconciles of a resource wait for. -/
def ofRequeues (resource : String) : Counter → Bool
  | requeues r _ => r = resource
  | _ => false

def ofErrors (resource : String) : Counter → Bool
  | errors r _ => r = resource
  | _ => false

end Counter

namespace Registry

variable {registry : Registry} {picks : Counter → Bool} {resource other : String}

def sum (registry : Registry) (picks : Counter → Bool) : Nat :=
  ((registry.counters.filter fun entry => picks entry.1).map (·.2)).sum

def observations (registry : Registry) (resource : String) : Nat :=
  ((registry.durations.at? resource).getD .empty).count

theorem sum_bump (picks : Counter → Bool) (counter : Counter) (counters : List (Counter × Nat)) :
    (((bump counter counters).filter fun entry => picks entry.1).map (·.2)).sum =
      ((counters.filter fun entry => picks entry.1).map (·.2)).sum + (picks counter).toNat := by
  induction counters with
  | nil => cases h : picks counter <;> simp [bump, h]
  | cons entry rest ih =>
      obtain ⟨c, n⟩ := entry
      rw [bump]
      split
      next heq =>
        subst heq
        cases h : picks c <;> simp [h]
        omega
      next =>
        cases h : picks c <;> simp [h, ih]
        omega

@[simp] theorem sum_count (counter : Counter) :
    (registry.count counter).sum picks = registry.sum picks + (picks counter).toNat :=
  sum_bump picks counter registry.counters

@[simp] theorem sum_observe (duration : Binary64) :
    (registry.observe other duration).sum picks = registry.sum picks := rfl

@[simp] theorem observations_count (counter : Counter) :
    (registry.count counter).observations resource = registry.observations resource := rfl

@[simp] theorem observations_observe (duration : Binary64) :
    (registry.observe other duration).observations resource =
      registry.observations resource + (decide (other = resource)).toNat := by
  rw [observations, observe, Entries.at?_put]
  by_cases h : resource = other
  · subst h
    simp [Histogram.observe, observations]
  · simp [h, Ne.symm h, observations]

/-- What the series of a resource say about its reconciles, of which some have waited for something
and some have failed. -/
structure Accounts (registry : Registry) (resource : String)
    (reconciles requeued failed : Nat) : Prop where
  durations : registry.observations resource = reconciles
  outcomes : registry.sum (Counter.ofReconciles resource) = reconciles + requeued
  successes : registry.sum (Counter.ofOutcome resource .success) + failed = reconciles
  requeues : registry.sum (Counter.ofOutcome resource .requeue) = requeued
  awaited : registry.sum (Counter.ofRequeues resource) = requeued
  errors : registry.sum (Counter.ofOutcome resource .error) = failed
  faults : registry.sum (Counter.ofErrors resource) = failed

theorem accounts_empty (resource : String) : Registry.empty.Accounts resource 0 0 0 :=
  ⟨rfl, rfl, rfl, rfl, rfl, rfl, rfl⟩

end Registry

section Run

variable {σ τ Q α : Type} {A : Q → Type}

theorem Dialogue.run_kept {environment : (q : Q) → σ → A q × σ} (view : σ → τ)
    (kept : ∀ q state, view (environment q state).2 = view state) (d : Dialogue Q A α)
    (state : σ) : view (d.run environment state).2 = view state := by
  induction d generalizing state with
  | done => rfl
  | ask q next ih => exact (ih _ _).trans (kept q state)

end Run

namespace Environment

variable {picks : Counter → Bool}

theorem registry_exchange (request : WireRequest) (env : Environment) :
    (env.exchange request).2.registry = env.registry := by
  unfold exchange disrupt
  cases Disruption.take? request.verb request.path env.time env.disruptions <;> rfl

/-- Reconciles do not count themselves: while a program runs, no series changes but those of
dependents and references. -/
theorem run_kept {α : Type} (env : Environment) (task : Task α)
    (applied : ∀ kind, picks (.applied kind) = false)
    (deleted : ∀ kind, picks (.deleted kind) = false) :
    (env.run task).2.registry.sum picks = env.registry.sum picks ∧
      (env.run task).2.registry.durations = env.registry.durations := by
  have kept (effect : Effect) (env : Environment) :
      ((answer effect env).2.registry.sum picks, (answer effect env).2.registry.durations) =
        (env.registry.sum picks, env.registry.durations) := by
    rcases effect with request | measurement
    · rw [answer]
      split
      · rw [registry_exchange]
      · rfl
    · cases measurement with
      | applied kind =>
          have hsum : (env.registry.count (.applied kind)).sum picks = env.registry.sum picks := by
            rw [Registry.sum_count, applied kind, Bool.toNat_false, Nat.add_zero]
          exact Prod.ext hsum rfl
      | deleted kind =>
          have hsum : (env.registry.count (.deleted kind)).sum picks = env.registry.sum picks := by
            rw [Registry.sum_count, deleted kind, Bool.toNat_false, Nat.add_zero]
          exact Prod.ext hsum rfl
      | references template sites => rfl
  exact Prod.mk.inj (Dialogue.run_kept
    (fun env : Environment => (env.registry.sum picks, env.registry.durations)) kept task.run env)

end Environment

/-- A reconcile that has ended: what was reconciled, what it waits for if it is not settled, and how
it came out. -/
structure Ended where
  resource : String
  awaited : String
  result : Except Raised Progress

namespace Ended

def isOf (resource : String) (ended : Ended) : Bool := ended.resource = resource

def isRequeueOf (resource : String) (ended : Ended) : Bool :=
  ended.isOf resource && ended.result matches .ok .requeue

def isFailureOf (resource : String) (ended : Ended) : Bool :=
  ended.isOf resource && ended.result matches .error _

/-- The series in which the end of a reconcile is counted. -/
def counted (ended : Ended) : List Counter :=
  match ended.result with
  | .ok .settled => [.reconciliations ended.resource .success]
  | .ok .requeue =>
      [.reconciliations ended.resource .requeue, .requeues ended.resource ended.awaited,
        .reconciliations ended.resource .success]
  | .error error =>
      [.reconciliations ended.resource .error, .errors ended.resource error.classify.reason]

variable (resource : String) (ended : Ended)

theorem countP_counted_ofReconciles :
    ended.counted.countP (Counter.ofReconciles resource) =
      (ended.isOf resource).toNat + (ended.isRequeueOf resource).toNat := by
  obtain ⟨other, awaited, (error | _ | _)⟩ := ended <;> by_cases h : other = resource <;>
    simp [counted, Counter.ofReconciles, isOf, isRequeueOf, h]

theorem countP_counted_success :
    ended.counted.countP (Counter.ofOutcome resource .success) +
      (ended.isFailureOf resource).toNat = (ended.isOf resource).toNat := by
  obtain ⟨other, awaited, (error | _ | _)⟩ := ended <;> by_cases h : other = resource <;>
    simp [counted, Counter.ofOutcome, isOf, isFailureOf, h]

theorem countP_counted_requeue :
    ended.counted.countP (Counter.ofOutcome resource .requeue) =
      (ended.isRequeueOf resource).toNat := by
  obtain ⟨other, awaited, (error | _ | _)⟩ := ended <;> by_cases h : other = resource <;>
    simp [counted, Counter.ofOutcome, isOf, isRequeueOf, h]

theorem countP_counted_ofRequeues :
    ended.counted.countP (Counter.ofRequeues resource) = (ended.isRequeueOf resource).toNat := by
  obtain ⟨other, awaited, (error | _ | _)⟩ := ended <;> by_cases h : other = resource <;>
    simp [counted, Counter.ofRequeues, isOf, isRequeueOf, h]

theorem countP_counted_error :
    ended.counted.countP (Counter.ofOutcome resource .error) =
      (ended.isFailureOf resource).toNat := by
  obtain ⟨other, awaited, (error | _ | _)⟩ := ended <;> by_cases h : other = resource <;>
    simp [counted, Counter.ofOutcome, isOf, isFailureOf, h]

theorem countP_counted_ofErrors :
    ended.counted.countP (Counter.ofErrors resource) = (ended.isFailureOf resource).toNat := by
  obtain ⟨other, awaited, (error | _ | _)⟩ := ended <;> by_cases h : other = resource <;>
    simp [counted, Counter.ofErrors, isOf, isFailureOf, h]

def conclude (intervals : Intervals) (ended : Ended) (registry : Registry) : Registry :=
  (Attempt.conclude intervals ended.resource ended.awaited ended.result registry).2

variable (intervals : Intervals) (registry : Registry)

theorem sum_conclude (picks : Counter → Bool) :
    (ended.conclude intervals registry).sum picks =
      registry.sum picks + ended.counted.countP picks := by
  obtain ⟨other, awaited, (error | _ | _)⟩ := ended <;>
    simp [conclude, Attempt.conclude, counted, Registry.recordSuccess, Registry.recordError,
      Registry.recordRequeue, Registry.recordFailure, countP_cons_toNat, Nat.add_assoc,
      Nat.add_comm, Nat.add_left_comm]

theorem observations_conclude :
    (ended.conclude intervals registry).observations resource =
      registry.observations resource + (ended.isOf resource).toNat := by
  obtain ⟨other, awaited, (error | _ | _)⟩ := ended <;>
    simp [conclude, Attempt.conclude, isOf, Registry.recordSuccess, Registry.recordError,
      Registry.recordRequeue, Registry.recordFailure]

end Ended

/-- What the end of a reconcile adds to the account of a resource. -/
theorem Registry.Accounts.conclude {registry : Registry} {resource : String}
    {reconciles requeued failed : Nat}
    (accounts : registry.Accounts resource reconciles requeued failed) (intervals : Intervals)
    (ended : Ended) :
    (ended.conclude intervals registry).Accounts resource
      (reconciles + (ended.isOf resource).toNat)
      (requeued + (ended.isRequeueOf resource).toNat)
      (failed + (ended.isFailureOf resource).toNat) := by
  constructor
  case durations => rw [ended.observations_conclude, accounts.durations]
  case outcomes =>
    rw [ended.sum_conclude, ended.countP_counted_ofReconciles, accounts.outcomes]
    omega
  case successes =>
    have hsum := ended.countP_counted_success resource
    have hbefore := accounts.successes
    rw [ended.sum_conclude]
    omega
  case requeues => rw [ended.sum_conclude, ended.countP_counted_requeue, accounts.requeues]
  case awaited => rw [ended.sum_conclude, ended.countP_counted_ofRequeues, accounts.awaited]
  case errors => rw [ended.sum_conclude, ended.countP_counted_error, accounts.errors]
  case faults => rw [ended.sum_conclude, ended.countP_counted_ofErrors, accounts.faults]

/-- The account of a resource lives in the series of its reconciles and durations alone. -/
theorem Registry.Accounts.run {env : Environment} {resource : String}
    {reconciles requeued failed : Nat}
    (accounts : env.registry.Accounts resource reconciles requeued failed) {α : Type}
    (task : Task α) :
    (env.run task).2.registry.Accounts resource reconciles requeued failed := by
  have kept (picks : Counter → Bool) (applied : ∀ kind, picks (.applied kind) = false)
      (deleted : ∀ kind, picks (.deleted kind) = false) :
      (env.run task).2.registry.sum picks = env.registry.sum picks :=
    (env.run_kept task applied deleted).1
  have durations : (env.run task).2.registry.durations = env.registry.durations :=
    (@Environment.run_kept (fun _ => false) _ env task (fun _ => rfl) fun _ => rfl).2
  constructor
  case durations => rw [observations, durations, ← accounts.durations, observations]
  case outcomes => rw [kept _ (fun _ => rfl) fun _ => rfl, accounts.outcomes]
  case successes => rw [kept _ (fun _ => rfl) fun _ => rfl, accounts.successes]
  case requeues => rw [kept _ (fun _ => rfl) fun _ => rfl, accounts.requeues]
  case awaited => rw [kept _ (fun _ => rfl) fun _ => rfl, accounts.awaited]
  case errors => rw [kept _ (fun _ => rfl) fun _ => rfl, accounts.errors]
  case faults => rw [kept _ (fun _ => rfl) fun _ => rfl, accounts.faults]

theorem Registry.Accounts.attempt {env : Environment} {resource : String}
    {reconciles requeued failed : Nat}
    (accounts : env.registry.Accounts resource reconciles requeued failed) (intervals : Intervals)
    (other awaited : String) (task : Task Progress) :
    let ended : Ended := ⟨other, awaited, (env.run task).1⟩
    (Attempt.run intervals other awaited task env).2.registry.Accounts resource
      (reconciles + (ended.isOf resource).toNat)
      (requeued + (ended.isRequeueOf resource).toNat)
      (failed + (ended.isFailureOf resource).toNat) :=
  (accounts.run task).conclude intervals ⟨other, awaited, (env.run task).1⟩

/-- The reconciles of sites and templates that were made since the metrics were empty, and the
metrics that they have left. Between two of them everything else may change. -/
inductive Attempted : List Ended → Registry → Prop where
  | start : Attempted [] .empty
  | site {history : List Ended} {env : Environment} (site : Site) (intervals : Intervals)
      (manager now : String) (earlier : Attempted history env.registry) :
      Attempted
        (history ++ [⟨Site.resourceType.kind, "dependant_wait",
          (env.run (site.reconcile manager now)).1⟩])
        (site.attempt intervals manager now env).2.registry
  | template {history : List Ended} {env : Environment} (template : Template)
      (intervals : Intervals) (cache : SiteCache) (earlier : Attempted history env.registry) :
      Attempted
        (history ++ [⟨Template.resourceType.kind, "store_sync",
          (env.run (template.reconcile cache)).1⟩])
        (template.attempt intervals cache env).2.registry

theorem Attempted.accounts {history : List Ended} {registry : Registry}
    (h : Attempted history registry) (resource : String) :
    registry.Accounts resource (history.countP (·.isOf resource))
      (history.countP (·.isRequeueOf resource)) (history.countP (·.isFailureOf resource)) := by
  have countP_snoc (picks : Ended → Bool) (history : List Ended) (ended : Ended) :
      (history ++ [ended]).countP picks = history.countP picks + (picks ended).toNat := by
    rw [List.countP_append, countP_cons_toNat, List.countP_nil, Nat.zero_add]
  induction h with
  | start => exact Registry.accounts_empty resource
  | site site intervals manager now _ ih =>
      simp only [countP_snoc]
      exact ih.attempt intervals _ _ (site.reconcile manager now)
  | template template intervals cache _ ih =>
      simp only [countP_snoc]
      exact ih.attempt intervals _ _ (template.reconcile cache)

/-- What the metrics come to for any resource. The reconciles and the requeues together are what the
series of its reconciles add up to, so these count each reconcile once exactly if none of them was a
requeue. Each reconcile has one duration, each requeue is counted once by what is waited for, and
each failure once as an outcome and once by its reason. -/
theorem reconciles_accounted_for {history : List Ended} {registry : Registry}
    (h : Attempted history registry) (resource : String) :
    registry.sum (Counter.ofReconciles resource) =
        history.countP (·.isOf resource) + history.countP (·.isRequeueOf resource) ∧
      (registry.sum (Counter.ofReconciles resource) = history.countP (·.isOf resource) ↔
        ∀ ended ∈ history, ended.isRequeueOf resource = false) ∧
      registry.observations resource = history.countP (·.isOf resource) ∧
      registry.sum (Counter.ofRequeues resource) = history.countP (·.isRequeueOf resource) ∧
      registry.sum (Counter.ofOutcome resource .requeue) =
        history.countP (·.isRequeueOf resource) ∧
      registry.sum (Counter.ofOutcome resource .error) = history.countP (·.isFailureOf resource) ∧
      registry.sum (Counter.ofErrors resource) = history.countP (·.isFailureOf resource) := by
  have accounts := h.accounts resource
  refine ⟨accounts.outcomes, ?_, accounts.durations, accounts.awaited, accounts.requeues,
    accounts.errors, accounts.faults⟩
  rw [accounts.outcomes, Nat.add_eq_left, List.countP_eq_zero]
  simp only [Bool.not_eq_true]

namespace Attempted

def bare : Environment := ⟨.empty, [], .empty, [], 0, true⟩

/-- A template that has been reconciled before and is referenced by no site. -/
def idleTemplate : Template where
  metadata := { ObjectMeta.empty with name := some "t", finalizers := some [operatorFinalizer] }
  spec := .empty
  status := some (.desired [] false)

/-- A site whose template does not exist. -/
def stuckSite : Site where
  metadata := { ObjectMeta.empty with name := some "a", uid := some "u" }
  spec := ⟨"t", none, .empty⟩
  status := none

theorem start_bare : Attempted [] bare.registry := .start

/-- After one reconcile that settles and one that fails each series counts what it should. -/
theorem reconciles_accounted_for_of_no_requeue :
    ∃ (history : List Ended) (registry : Registry), Attempted history registry ∧
      history.countP (·.isOf "LMSMoodle") = 1 ∧
      registry.sum (Counter.ofReconciles "LMSMoodle") = 1 ∧
      registry.sum (Counter.ofOutcome "LMSMoodle" .error) = 1 ∧
      history.countP (·.isOf "LMSMoodleTemplate") = 1 ∧
      registry.sum (Counter.ofReconciles "LMSMoodleTemplate") = 1 := by
  have idle := Attempted.template idleTemplate .standard (.ofSites []) start_bare
  have attempted := Attempted.site stuckSite .standard "manager" "now" idle
  obtain ⟨-, hsite, -, -, -, herror, -⟩ := reconciles_accounted_for attempted "LMSMoodle"
  obtain ⟨-, htemplate, -⟩ := reconciles_accounted_for attempted "LMSMoodleTemplate"
  refine ⟨_, _, attempted, rfl, hsite.mpr ?_, herror.trans ?_, rfl, htemplate.mpr ?_⟩
  · decide +kernel
  · decide +kernel
  · decide +kernel

/-- A template that waits for the cache is counted under two outcomes. -/
theorem requeue_counted_twice :
    ∃ (history : List Ended) (registry : Registry), Attempted history registry ∧
      history.countP (·.isOf "LMSMoodleTemplate") = 1 ∧
      registry.sum (Counter.ofOutcome "LMSMoodleTemplate" .requeue) = 1 ∧
      registry.sum (Counter.ofOutcome "LMSMoodleTemplate" .success) = 1 ∧
      registry.sum (Counter.ofReconciles "LMSMoodleTemplate") = 2 :=
  ⟨_, _, .template idleTemplate .standard .empty start_bare, rfl, by decide +kernel,
    by decide +kernel, by decide +kernel⟩

end Attempted

end SiteOperator
