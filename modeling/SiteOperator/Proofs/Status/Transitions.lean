import SiteOperator.Proofs.Status.Fixpoint

/-!
# When a condition keeps its time

A condition that is set takes the place of the first one of its type only if it says something else
(`Conditions.renewed`), so a type that is set once keeps its condition whenever it says the same
before and after (`Conditions.SetOnce.keepsTime`). A type that is set to something else and then set
back has the last condition that was set, with the time of that setting
(`Conditions.keepsTime_renewed_renewed_iff`).

What each step of a draft does to the condition of a type follows: publishing a dependent sets the
type of its kind, and the site's own ready condition if the dependent is not ready; concluding a
pass sets the ready condition in the states that have one.
-/

namespace SiteOperator

def Condition.timed (c : Condition) (now : String) : Condition :=
  { c with lastTransitionTime := some (c.lastTransitionTime.getD now) }

@[simp] theorem Condition.content_timed (c : Condition) (now : String) :
    (c.timed now).content = c.content := rfl

namespace Conditions

/-- The condition of a type after another one of this type has been set: the old one if the new one
says the same. -/
def renewed (old : Option Condition) (new : Condition) : Condition :=
  match old with
  | some c => if c.differs new then new else c
  | none => new

@[simp] theorem renewed_none (new : Condition) : renewed none new = new := rfl

theorem renewed_of_same {c new : Condition} (h : c.content = new.content) :
    renewed (some c) new = c := by
  simp [renewed, Condition.differs_eq_false_iff.mpr h]

/-- A condition that says something else takes the place of the old one, with its time. -/
theorem renewed_of_differs {c new : Condition} (h : c.content ≠ new.content) :
    renewed (some c) new = new := by
  have hdiffers : c.differs new = true :=
    Bool.not_eq_false _ ▸ mt Condition.differs_eq_false_iff.mp h
  simp [renewed, hdiffers]

@[simp] theorem content_renewed (old : Option Condition) (new : Condition) :
    (renewed old new).content = new.content := by
  cases old with
  | none => rfl
  | some c =>
      by_cases h : c.content = new.content
      · rw [renewed_of_same h, h]
      · rw [renewed_of_differs h]

/-- Setting a condition once more changes nothing. -/
@[simp] theorem renewed_renewed (old : Option Condition) (new : Condition) :
    renewed (some (renewed old new)) new = renewed old new :=
  renewed_of_same (content_renewed old new)

theorem ofType?_place (conditions : Conditions) (c : Condition) (type : String) :
    (conditions.place c).1.ofType? type =
      if c.type = type then some (renewed (conditions.ofType? type) c)
      else conditions.ofType? type := by
  induction conditions with
  | nil => simp [place, ofType?]
  | cons head rest ih =>
      rw [place]
      by_cases htype : head.type = c.type
      · by_cases hdiffers : head.differs c = true
        · by_cases h : c.type = type <;> simp [ofType?_cons, renewed, htype, hdiffers, h]
        · by_cases h : c.type = type <;> simp [ofType?_cons, renewed, htype, hdiffers, h]
      · by_cases h : c.type = type
        · subst h
          simp [ofType?_cons, htype, ih]
        · simp [ofType?_cons, htype, ih, h]

theorem ofType?_set (conditions : Conditions) (now : String) (c : Condition) (type : String) :
    (conditions.set now c).1.ofType? type =
      if c.type = type then some (renewed (conditions.ofType? type) (c.timed now))
      else conditions.ofType? type :=
  ofType?_place conditions (c.timed now) type

def SetOnce (old new : Option Condition) : Prop := new = old ∨ ∃ c, new = some (renewed old c)

/-- If a condition says the same before and after, it has kept its time. -/
def KeepsTime (old new : Option Condition) : Prop :=
  ∀ c c', old = some c → new = some c' → c'.content = c.content →
    c'.lastTransitionTime = c.lastTransitionTime

def KeepsTimes (before after : Conditions) : Prop :=
  ∀ type, KeepsTime (before.ofType? type) (after.ofType? type)

theorem SetOnce.keepsTime {old new : Option Condition} (once : SetOnce old new) :
    KeepsTime old new := by
  rintro c c' rfl rfl hcontent
  rcases once with hkept | ⟨x, hset⟩
  · rw [Option.some.inj hkept]
  · obtain rfl := Option.some.inj hset
    rw [content_renewed] at hcontent
    rw [renewed_of_same hcontent.symm]

/-- If every type but one has been set at most once, all depends on this one. -/
theorem keepsTimes_iff_keepsTime {before after : Conditions} {type : String}
    (once : ∀ other, other ≠ type → SetOnce (before.ofType? other) (after.ofType? other)) :
    KeepsTimes before after ↔ KeepsTime (before.ofType? type) (after.ofType? type) := by
  constructor
  · intro keeps
    exact keeps type
  · intro keeps other
    by_cases h : other = type
    · rw [h]
      exact keeps
    · exact (once other h).keepsTime

/-- A condition that is set to one thing and then to another is the one that was set last, with its
time. -/
theorem keepsTime_renewed_renewed_iff {old : Option Condition} {x y : Condition}
    (h : x.content ≠ y.content) :
    KeepsTime old (some (renewed (some (renewed old x)) y)) ↔
      ∀ c, old = some c → c.content = y.content →
        c.lastTransitionTime = y.lastTransitionTime := by
  rw [renewed_of_differs (by rwa [content_renewed])]
  constructor
  · intro keeps c hc hcontent
    exact (keeps c y hc rfl hcontent.symm).symm
  · rintro htime c c' hc hc' hcontent
    obtain rfl := Option.some.inj hc'
    exact (htime c hc hcontent.symm).symm

end Conditions

theorem DependentKind.conditionType_injective {kind other : DependentKind}
    (h : kind.conditionType = other.conditionType) : kind = other := by
  cases kind <;> cases other <;> simp [conditionType] at h ⊢

namespace StatusDraft

open Conditions (renewed SetOnce)

variable (draft : StatusDraft) (now : String)

def ofType? (type : String) : Option Condition := draft.collected.conditions.ofType? type

/-- The ready condition of a site that waits for a dependent, with the time it is set at. -/
def unready : Condition :=
  ⟨Condition.ready, Condition.fails, some "DependantNotReady", some "Dependant is not ready",
    some now⟩

variable {type : String}

theorem ofType?_setCondition (c : Condition) (type : String) :
    (draft.setCondition now c).1.ofType? type =
      if c.type = type then some (renewed (draft.ofType? type) (c.timed now))
      else draft.ofType? type :=
  Conditions.ofType?_set _ now c type

theorem ofType?_setReady (status reason message : String) :
    (draft.setReady now status reason message).1.ofType? type =
      if Condition.ready = type then
        some (renewed (draft.ofType? type)
          ⟨Condition.ready, status, some reason, some message, some now⟩)
      else draft.ofType? type :=
  draft.ofType?_setCondition now _ type

section Publish

variable (kind : DependentKind) {status : Option DependentStatus} {source : Condition}

theorem publish_of_none (h : readyCondition? status = none) :
    (draft.publish now kind status).1 = draft := by
  rw [publish, h]

/-- Publishing a dependent sets the condition of its kind, the site's own ready condition if the
dependent is not ready, and no other one. -/
theorem ofType?_publish (h : readyCondition? status = some source) :
    (draft.publish now kind status).1.ofType? type =
      if kind.conditionType = type then
        some (renewed (draft.ofType? type) ({ source with type := kind.conditionType }.timed now))
      else if Condition.ready = type ∧ source.status ≠ Condition.holds then
        some (renewed (draft.ofType? type) (unready now))
      else draft.ofType? type := by
  have hmirror := draft.ofType?_setCondition now { source with type := kind.conditionType } type
  unfold publish
  simp only [h]
  by_cases hholds : source.status = Condition.holds
  · simpa [hholds] using hmirror
  · simp only [if_neg hholds, ofType?_setReady, hmirror]
    by_cases hready : Condition.ready = type
    · simp [← hready, hholds, kind.conditionType_ne_ready, unready]
    · simp [hready]

theorem ofType?_publish_of_ne (status : Option DependentStatus) (hready : type ≠ Condition.ready)
    (hkind : kind.conditionType ≠ type) :
    (draft.publish now kind status).1.ofType? type = draft.ofType? type := by
  cases h : readyCondition? status with
  | none => rw [draft.publish_of_none now kind h]
  | some source =>
      rw [draft.ofType?_publish now kind h, if_neg hkind, if_neg fun h => hready h.1.symm]

/-- The condition of the kind is set at most once. -/
theorem setOnce_publish : SetOnce (draft.ofType? kind.conditionType)
    ((draft.publish now kind status).1.ofType? kind.conditionType) := by
  cases h : readyCondition? status with
  | none => exact Or.inl (by rw [draft.publish_of_none now kind h])
  | some source => exact Or.inr ⟨_, by rw [draft.ofType?_publish now kind h, if_pos rfl]⟩

theorem ofType?_publish_ready_of_holds (status : Option DependentStatus)
    (hholds : ∀ c, readyCondition? status = some c → c.status = Condition.holds) :
    (draft.publish now kind status).1.ofType? Condition.ready =
      draft.ofType? Condition.ready := by
  cases h : readyCondition? status with
  | none => rw [draft.publish_of_none now kind h]
  | some source =>
      rw [draft.ofType?_publish now kind h, if_neg kind.conditionType_ne_ready,
        if_neg fun hfails => hfails.2 (hholds source h)]

/-- A dependent that is not ready sets the site's own ready condition. -/
theorem ofType?_publish_ready_of_fails (h : readyCondition? status = some source)
    (hfails : source.status ≠ Condition.holds) :
    (draft.publish now kind status).1.ofType? Condition.ready =
      some (renewed (draft.ofType? Condition.ready) (unready now)) := by
  rw [draft.ofType?_publish now kind h, if_neg kind.conditionType_ne_ready, if_pos ⟨rfl, hfails⟩]

end Publish

/-- A settled state sets the site's own ready condition, the other states set none. -/
theorem ofType?_setReadyForState (state : String) :
    (draft.setReadyForState now state).1.ofType? type =
      match (readySettings state).head? with
      | some c =>
          if c.type = type then some (renewed (draft.ofType? type) (c.timed now))
          else draft.ofType? type
      | none => draft.ofType? type := by
  unfold setReadyForState readySettings
  split
  · exact ofType?_setReady draft now _ _ _
  · split
    · exact ofType?_setReady draft now _ _ _
    · split
      · exact ofType?_setReady draft now _ _ _
      · rfl

/-- What a state sets is the site's own ready condition, from now on, and to something else than a
dependent that is not ready does. -/
theorem of_mem_readySettings {state : String} {c : Condition} (h : c ∈ readySettings state) :
    c.type = Condition.ready ∧ c.lastTransitionTime = none ∧
      c.content ≠ (unready now).content := by
  unfold readySettings at h
  split at h
  · obtain rfl := List.mem_singleton.mp h
    simp [Condition.content, unready]
  · split at h
    · obtain rfl := List.mem_singleton.mp h
      simp [Condition.content, unready]
    · split at h
      · obtain rfl := List.mem_singleton.mp h
        simp [Condition.content, unready]
      · cases h

theorem ofType?_setReadyForState_of_ne (hready : type ≠ Condition.ready) (state : String) :
    (draft.setReadyForState now state).1.ofType? type = draft.ofType? type := by
  rw [ofType?_setReadyForState]
  cases hset : (readySettings state).head? with
  | none => rfl
  | some c =>
      have hc := (of_mem_readySettings now (List.mem_of_mem_head? hset)).1
      exact if_neg fun htype => hready (htype.symm.trans hc)

theorem ofType?_setTerminated :
    (draft.setTerminated now).1.ofType? type =
      if Condition.ready = type then
        some (renewed (draft.ofType? type) ⟨Condition.ready, Condition.fails, some "Terminated",
          some "Finalizer ended", some now⟩)
      else draft.ofType? type :=
  draft.ofType?_setReady now _ _ _

theorem readySettings_eq_nil {state : String} (h : isSettledState state = false) :
    readySettings state = [] := by
  have hne : state ≠ "Ready" ∧ state ≠ "Terminating" ∧ state ≠ suspendedState := by
    simpa [isSettledState] using h
  obtain ⟨hready, hterminating, hsuspended⟩ := hne
  rw [readySettings, if_neg hready, if_neg hterminating, if_neg hsuspended]

end StatusDraft

namespace Plan

variable (plan : Plan) (observed : Observed) (deleting suspending : Bool) (now : String)
  (draft : StatusDraft)

/-- Of all that is written when a pass is concluded, only the matching ready condition is one of
the conditions. -/
theorem ofType?_conclude (type : String) :
    (plan.conclude observed deleting suspending now draft).1.ofType? type =
      (draft.setReadyForState now
        (plan.siteState observed deleting suspending)).1.ofType? type := by
  rw [conclude, StatusDraft.ofType?_setReadyForState, StatusDraft.ofType?_setReadyForState]
  have hkept : ∀ other, (((draft.setState (plan.siteState observed deleting suspending)).1
      ).setFromWorkload observed.moodle).1.ofType? other = draft.ofType? other := by
    intro other
    rw [StatusDraft.ofType?, (StatusDraft.setFromWorkload_keeps _ _).1]
    rfl
  rw [hkept]

end Plan

end SiteOperator
