import SiteOperator.Proofs.Plan.Composed
import SiteOperator.Status.State

/-!
# When a site is in which state

The state of a site that runs or is being suspended either names one configured kind with its
reason, or says that the site has settled. A state of the first form can be read back, whatever
text the reason is (`waitingState_inj`), and is never one of a site that has settled
(`isSettledState_waitingState`), so each value of the state stands for an exact condition on the
reasons of the dependents. The state looks at nothing but these reasons.
-/

namespace SiteOperator

def kindsBefore (order : List DependentKind) (kind : DependentKind) : List DependentKind :=
  order.takeWhile (· ≠ kind)

theorem exists_eq_kindsBefore_append {order : List DependentKind} {kind : DependentKind}
    (hmem : kind ∈ order) : ∃ later, order = kindsBefore order kind ++ kind :: later := by
  induction order with
  | nil => cases hmem
  | cons head rest ih =>
      by_cases hhead : head = kind
      · exact ⟨rest, by simp [kindsBefore, hhead]⟩
      · obtain ⟨later, hlater⟩ := ih ((List.mem_cons.mp hmem).resolve_left (Ne.symm hhead))
        refine ⟨later, ?_⟩
        simpa [kindsBefore, hhead] using hlater

theorem mem_kindsBefore_or {order : List DependentKind} {kind other : DependentKind}
    (hkind : kind ∈ order) (hother : other ∈ order) (hne : kind ≠ other) :
    kind ∈ kindsBefore order other ∨ other ∈ kindsBefore order kind := by
  induction order with
  | nil => cases hkind
  | cons head rest ih =>
      by_cases hheadKind : head = kind
      · subst hheadKind
        exact Or.inl (by simp [kindsBefore, hne])
      · by_cases hheadOther : head = other
        · subst hheadOther
          exact Or.inr (by simp [kindsBefore, Ne.symm hne])
        · have hrest := ih ((List.mem_cons.mp hkind).resolve_left (Ne.symm hheadKind))
            ((List.mem_cons.mp hother).resolve_left (Ne.symm hheadOther))
          simpa [kindsBefore, hheadKind, hheadOther] using
            hrest.imp (List.mem_cons_of_mem head) (List.mem_cons_of_mem head)

theorem ne_of_mem_kindsBefore {order : List DependentKind} {kind earlier : DependentKind}
    (h : earlier ∈ kindsBefore order kind) : earlier ≠ kind := by
  have hall := List.all_takeWhile (p := (· ≠ kind)) (l := order)
  simpa using List.all_eq_true.mp hall earlier h

theorem find?_eq_some_iff_kindsBefore {order : List DependentKind} {kind : DependentKind}
    (hmem : kind ∈ order) (p : DependentKind → Bool) :
    order.find? p = some kind ↔
      p kind ∧ ∀ earlier ∈ kindsBefore order kind, p earlier = false := by
  induction order with
  | nil => simp at hmem
  | cons head rest ih =>
      by_cases hhead : head = kind
      · subst hhead
        cases hp : p head with
        | true => simp [kindsBefore, hp]
        | false =>
            have hlater : rest.find? p ≠ some head := by
              intro h
              simp [List.find?_some h] at hp
            simp [kindsBefore, hp, hlater]
      · have hrest : kind ∈ rest := (List.mem_cons.mp hmem).resolve_left (Ne.symm hhead)
        have hbefore : kindsBefore (head :: rest) kind = head :: kindsBefore rest kind := by
          simp [kindsBefore, hhead]
        rw [hbefore, List.forall_mem_cons, List.find?_cons]
        cases hp : p head with
        | true => simp [hhead]
        | false => simpa using ih hrest

theorem mem_suspendOrder (kind : DependentKind) : kind ∈ suspendOrder := by
  cases kind <;> simp [suspendOrder]

theorem mem_runningOrder (kind : DependentKind) : kind ∈ runningOrder := by
  cases kind <;> simp [runningOrder]

def expectedReason : (suspending : Bool) → String
  | true => suspendedState
  | false => successfulReason

/-- The order in which the kinds decide the state of a site. -/
def stateOrder : (suspending : Bool) → List DependentKind
  | true => suspendOrder
  | false => runningOrder

def settledState : (suspending : Bool) → String
  | true => suspendedState
  | false => "Ready"

def waitingState (suspending : Bool) (kind : DependentKind) (reason : String) : String :=
  match suspending with
  | true => "Suspending" ++ (kind.name ++ reason)
  | false => kind.name ++ reason

theorem mem_stateOrder (suspending : Bool) (kind : DependentKind) :
    kind ∈ stateOrder suspending := by
  cases suspending with
  | true => exact mem_suspendOrder kind
  | false => exact mem_runningOrder kind

theorem isSettledState_settledState (suspending : Bool) :
    isSettledState (settledState suspending) = true := by
  cases suspending <;> decide

/-- The names of the kinds begin with different letters. -/
theorem kind_eq_of_append_eq {kind other : DependentKind} {r s : String}
    (h : kind.name ++ r = other.name ++ s) : kind = other := by
  have hhead := congrArg (fun text => text.toList.head?) h
  cases kind <;> cases other <;> simp [DependentKind.name] at hhead ⊢

theorem kind_append_ne_suspending (kind : DependentKind) (r s : String) :
    kind.name ++ r ≠ "Suspending" ++ s := by
  intro h
  have hhead := congrArg (fun text => text.toList.head?) h
  cases kind <;> simp [DependentKind.name] at hhead

/-- No state of a site that waits is that of another one, even if reasons look like kinds, like
states or like the beginnings of them. -/
theorem waitingState_inj {suspending suspending' : Bool} {kind kind' : DependentKind}
    {reason reason' : String} :
    waitingState suspending kind reason = waitingState suspending' kind' reason' ↔
      suspending = suspending' ∧ kind = kind' ∧ reason = reason' := by
  refine ⟨fun h => ?_, fun ⟨hsuspending, hkind, hreason⟩ => by rw [hsuspending, hkind, hreason]⟩
  have hnames : kind.name ++ reason = kind'.name ++ reason' →
      kind = kind' ∧ reason = reason' := by
    intro happend
    obtain rfl := kind_eq_of_append_eq happend
    exact ⟨rfl, (String.append_right_inj _).mp happend⟩
  match suspending, suspending' with
  | false, false => exact ⟨rfl, hnames h⟩
  | true, true => exact ⟨rfl, hnames ((String.append_right_inj "Suspending").mp h)⟩
  | false, true => exact absurd h (kind_append_ne_suspending _ _ _)
  | true, false => exact absurd h.symm (kind_append_ne_suspending _ _ _)

theorem suspendedState_ne_suspending (r : String) : suspendedState ≠ "Suspending" ++ r := by
  intro h
  have hchar := congrArg (fun text => text.toList[7]?) h
  simp [suspendedState] at hchar

theorem isSettledState_waitingState (suspending : Bool) (kind : DependentKind) (reason : String) :
    isSettledState (waitingState suspending kind reason) = false := by
  have hne : ∀ state ∈ ["Ready", "Terminating", suspendedState],
      state ≠ waitingState suspending kind reason := by
    intro state hstate heq
    have hhead := congrArg (fun text => text.toList.head?) heq
    simp only [List.mem_cons, List.not_mem_nil, or_false] at hstate
    cases suspending with
    | false =>
        rcases hstate with rfl | rfl | rfl <;>
          cases kind <;> simp [waitingState, DependentKind.name, suspendedState] at hhead
    | true =>
        rcases hstate with rfl | rfl | rfl
        · simp [waitingState] at hhead
        · simp [waitingState] at hhead
        · exact suspendedState_ne_suspending _ heq
  refine Bool.eq_false_iff.mpr fun h => ?_
  unfold isSettledState at h
  exact hne _ (List.contains_iff_mem.mp h) rfl

theorem settledState_ne_waitingState (suspending suspending' : Bool) (kind : DependentKind)
    (reason : String) : settledState suspending ≠ waitingState suspending' kind reason := by
  intro h
  have hsettled := isSettledState_settledState suspending
  rw [h, isSettledState_waitingState] at hsettled
  cases hsettled

namespace Plan

variable {plan : Plan} {observed : Observed} {order : List DependentKind} {expected : String}
  {suspending : Bool} {kind : DependentKind} {reason : String}

theorem firstUnexpected?_eq_none_iff :
    plan.firstUnexpected? observed order expected = none ↔
      ∀ kind ∈ order, plan.has kind → readyReason (observed.get kind) = expected := by
  simp [firstUnexpected?]

/-- The kind that the state names is the first of its order: those before it give the reason that
is expected of them. -/
theorem firstUnexpected?_eq_some_iff (hmem : kind ∈ order) :
    plan.firstUnexpected? observed order expected = some kind ↔
      (plan.has kind ∧ readyReason (observed.get kind) ≠ expected) ∧
        ∀ earlier ∈ kindsBefore order kind,
          plan.has earlier → readyReason (observed.get earlier) = expected := by
  rw [firstUnexpected?, find?_eq_some_iff_kindsBefore hmem]
  simp

/-- A site waits for the first configured kind of its order that does not give the reason which is
expected of it. -/
def AwaitsFirst (plan : Plan) (observed : Observed) (suspending : Bool)
    (kind : DependentKind) : Prop :=
  (plan.has kind ∧ readyReason (observed.get kind) ≠ expectedReason suspending) ∧
    ∀ earlier ∈ kindsBefore (stateOrder suspending) kind,
      plan.has earlier → readyReason (observed.get earlier) = expectedReason suspending

/-- Either all configured kinds give the expected reason, or a first one does not. -/
theorem siteState_cases (plan : Plan) (observed : Observed) (suspending : Bool) :
    (plan.siteState observed false suspending = settledState suspending ∧
      ∀ kind, plan.has kind → readyReason (observed.get kind) = expectedReason suspending) ∨
    ∃ kind, plan.AwaitsFirst observed suspending kind ∧
      plan.siteState observed false suspending =
        waitingState suspending kind (readyReason (observed.get kind)) := by
  cases h : plan.firstUnexpected? observed (stateOrder suspending) (expectedReason suspending) with
  | none =>
      have hall := firstUnexpected?_eq_none_iff.mp h
      refine Or.inl ⟨?_, fun kind => hall kind (mem_stateOrder suspending kind)⟩
      cases suspending with
      | true | false =>
          simp only [stateOrder, expectedReason] at h
          simp [siteState, h, settledState]
  | some kind =>
      have hfirst := (firstUnexpected?_eq_some_iff (mem_stateOrder suspending kind)).mp h
      refine Or.inr ⟨kind, hfirst, ?_⟩
      cases suspending with
      | true | false =>
          simp only [stateOrder, expectedReason] at h
          simp [siteState, h, waitingState, kindReadyReason]

theorem siteState_eq_settledState_iff :
    plan.siteState observed false suspending = settledState suspending ↔
      ∀ kind, plan.has kind → readyReason (observed.get kind) = expectedReason suspending := by
  obtain ⟨hstate, hall⟩ | ⟨kind, ⟨⟨hhas, hreason⟩, -⟩, hstate⟩ :=
    siteState_cases plan observed suspending
  · exact iff_of_true hstate hall
  · refine iff_of_false (fun h => ?_) fun hall => hreason (hall kind hhas)
    exact settledState_ne_waitingState _ _ _ _ (h.symm.trans hstate)

theorem isSettledState_siteState_iff :
    isSettledState (plan.siteState observed false suspending) = true ↔
      plan.siteState observed false suspending = settledState suspending := by
  obtain ⟨hstate, -⟩ | ⟨kind, -, hstate⟩ := siteState_cases plan observed suspending
  · simp [hstate, isSettledState_settledState]
  · rw [hstate, isSettledState_waitingState]
    exact iff_of_false Bool.false_ne_true (settledState_ne_waitingState _ _ _ _).symm

theorem AwaitsFirst.unique {other : DependentKind}
    (first : plan.AwaitsFirst observed suspending kind)
    (second : plan.AwaitsFirst observed suspending other) : kind = other :=
  Option.some.inj <|
    ((firstUnexpected?_eq_some_iff (mem_stateOrder suspending kind)).mpr first).symm.trans
      ((firstUnexpected?_eq_some_iff (mem_stateOrder suspending other)).mpr second)

/-- A site is in the state that names a kind with its reason exactly if it waits for this kind
first. -/
theorem siteState_eq_waitingState_iff {suspending' : Bool} :
    plan.siteState observed false suspending' = waitingState suspending kind reason ↔
      suspending' = suspending ∧ plan.AwaitsFirst observed suspending kind ∧
        readyReason (observed.get kind) = reason := by
  obtain ⟨hstate, hall⟩ | ⟨first, hfirst, hstate⟩ := siteState_cases plan observed suspending'
  · refine iff_of_false (fun h => ?_) ?_
    · exact settledState_ne_waitingState _ _ _ _ (hstate.symm.trans h)
    · rintro ⟨rfl, ⟨⟨hhas, hreason⟩, -⟩, -⟩
      exact hreason (hall kind hhas)
  · rw [hstate, waitingState_inj]
    constructor
    · rintro ⟨rfl, rfl, rfl⟩
      exact ⟨rfl, hfirst, rfl⟩
    · rintro ⟨rfl, hkind, rfl⟩
      obtain rfl := hfirst.unique hkind
      exact ⟨rfl, rfl, rfl⟩

/-- A site that should run is in the state of a ready one exactly if every configured dependent
gives the reason of a dependent that runs. -/
theorem siteState_running_eq_ready_iff :
    plan.siteState observed false false = "Ready" ↔
      ∀ kind, plan.has kind → readyReason (observed.get kind) = successfulReason :=
  siteState_eq_settledState_iff

theorem isSettledState_siteState_running :
    isSettledState (plan.siteState observed false false) = true ↔
      plan.siteState observed false false = "Ready" :=
  isSettledState_siteState_iff

theorem isSettledState_siteState_suspending :
    isSettledState (plan.siteState observed false true) = true ↔
      plan.siteState observed false true = suspendedState :=
  isSettledState_siteState_iff

/-- The state of a site that is being suspended names a kind with its reason exactly if this is the
first kind of the suspend order whose reason is another one than that of a suspended dependent. -/
theorem siteState_suspending_eq_kind_iff :
    plan.siteState observed false true = "Suspending" ++ (kind.name ++ reason) ↔
      (plan.has kind ∧ readyReason (observed.get kind) ≠ suspendedState) ∧
        readyReason (observed.get kind) = reason ∧
        ∀ earlier ∈ kindsBefore suspendOrder kind,
          plan.has earlier → readyReason (observed.get earlier) = suspendedState := by
  have hnames : plan.siteState observed false true = waitingState true kind reason ↔ _ :=
    siteState_eq_waitingState_iff
  refine hnames.trans ⟨?_, ?_⟩
  · rintro ⟨-, ⟨hkind, hbefore⟩, hreason⟩
    exact ⟨hkind, hreason, hbefore⟩
  · rintro ⟨hkind, hreason, hbefore⟩
    exact ⟨rfl, ⟨hkind, hbefore⟩, hreason⟩

end Plan

end SiteOperator
