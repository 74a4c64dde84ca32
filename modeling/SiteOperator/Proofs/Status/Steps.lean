import SiteOperator.Proofs.Status.ConditionHistory

/-!
# Drafts step by step

A draft is changed by six kinds of steps (`StatusDraft.Step`). Whatever they are and in whatever
order they are taken, each of them sets conditions one after the other (`StatusDraft.Step.settings`)
and touches the list in no other way. So the types of the stored status stay in front, in their
order, and a comparison that only looks up the types of one list in the other sees every difference:
a draft has nothing new to say exactly if it is equal to the stored status up to times
(`StatusDraft.hasChanges_takeAll_eq_false_iff`).
-/

namespace SiteOperator

namespace Conditions

variable {current new : Conditions}

theorem same_self (distinct : current.types.Nodup) : same current current = true :=
  same_of_content? distinct rfl fun _ => rfl

/-- The comparison by types is exact if the types of the first list are distinct and the second list
begins with them. It is not exact on other lists. -/
theorem same_iff_map_untimed_eq (distinct : current.types.Nodup)
    (kept : current.types <+: new.types) :
    same current new = true ↔ new.map Condition.untimed = current.map Condition.untimed := by
  constructor
  · intro hsame
    obtain ⟨hlength, hcontent⟩ := same_iff.mp hsame
    -- The lists have the same types in the same places, so looking up a type finds the condition
    -- in the same place.
    have htypes : current.types = new.types := kept.eq_of_length (by simpa [types] using hlength)
    refine List.ext_getElem (by simpa using hlength.symm) fun i hnew hcurrent => ?_
    rw [List.getElem_map, List.getElem_map]
    rw [List.length_map] at hnew hcurrent
    have htype : current[i].type = new[i].type := by
      have heq := List.getElem_of_eq htypes (by simpa [types] using hcurrent)
      simpa [types] using heq
    have hstored := ofType?_of_mem distinct (List.getElem_mem hcurrent)
    have hsaid := hcontent new[i] (List.getElem_mem hnew)
    rw [content?, ← htype, hstored, Option.map_some, Option.some.injEq] at hsaid
    simp_all [Condition.untimed, Condition.content]
  · intro heq
    have hdistinct : types (current.map Condition.untimed) |>.Nodup :=
      (types_map_untimed current).symm ▸ distinct
    rw [← same_map_untimed, heq]
    exact same_self hdistinct

example :
    same [⟨"A", "True", none, none, none⟩, ⟨"B", "True", none, none, none⟩]
      [⟨"A", "True", none, none, none⟩, ⟨"A", "True", none, none, none⟩] = true := by
  decide

end Conditions

namespace StatusDraft

inductive Step where
  | ready (status reason message : String)
  | publish (kind : DependentKind) (status : Option DependentStatus)
  | workload (status : Option DependentStatus)
  | state (name : String)
  | readyForState (name : String)
  | terminated

namespace Step

def take (now : String) : Step → StatusDraft → StatusDraft
  | ready status reason message, draft => (draft.setReady now status reason message).1
  | publish kind status, draft => (draft.publish now kind status).1
  | workload status, draft => (draft.setFromWorkload status).1
  | state name, draft => (draft.setState name).1
  | readyForState name, draft => (draft.setReadyForState now name).1
  | terminated, draft => (draft.setTerminated now).1

def settings (now : String) : Step → List Conditions.Setting
  | ready status reason message =>
      [⟨now, ⟨Condition.ready, status, some reason, some message, some now⟩⟩]
  | publish kind status =>
      match readyCondition? status with
      | none => []
      | some source =>
          ⟨now, { source with type := kind.conditionType }⟩ ::
            if source.status = Condition.holds then [] else [⟨now, unready now⟩]
  | workload _ | state _ => []
  | readyForState name => (readySettings name).map fun c => ⟨now, c⟩
  | terminated =>
      [⟨now, ⟨Condition.ready, Condition.fails, some "Terminated", some "Finalizer ended",
        some now⟩⟩]

theorem current_take (now : String) (step : Step) (draft : StatusDraft) :
    (step.take now draft).current = draft.current := by
  cases step with
  | ready | state | terminated => rfl
  | publish kind status => rw [take, (tells_publish draft now kind status).rest]
  | workload status => cases status <;> rfl
  | readyForState name => rw [take, (tells_setReadyForState draft now name).rest]

/-- All that a step does to the list of conditions is to set some. -/
theorem conditions_take (now : String) (step : Step) (draft : StatusDraft) :
    (step.take now draft).collected.conditions =
      Conditions.setAll (step.settings now) draft.collected.conditions := by
  cases step with
  | ready | state | terminated => rfl
  | publish kind status =>
      simp only [take, settings, StatusDraft.publish]
      cases readyCondition? status with
      | none => rfl
      | some source =>
          by_cases hholds : source.status = Condition.holds
          · simp only [if_pos hholds]
            rfl
          · simp only [if_neg hholds]
            rfl
  | workload status => exact (draft.setFromWorkload_keeps status).1
  | readyForState name =>
      simp only [take, settings, setReadyForState, readySettings]
      split
      · rfl
      · split
        · rfl
        · split <;> rfl

section Settings

variable {now : String} {s : Conditions.Setting} {kind : DependentKind}
  {status : Option DependentStatus}

/-- Publishing a dependent with a ready condition sets the condition of its kind, and after it at
most the site's own ready condition. -/
theorem exists_settings_publish_eq (now : String) (kind : DependentKind) {source : Condition}
    (h : readyCondition? status = some source) :
    ∃ rest, (publish kind status).settings now =
        ⟨now, { source with type := kind.conditionType }⟩ :: rest ∧
      ∀ s ∈ rest, s.type = Condition.ready := by
  simp only [settings, h]
  refine ⟨_, rfl, fun s hs => ?_⟩
  split at hs
  · cases hs
  · obtain rfl := List.mem_singleton.mp hs
    rfl

theorem type_of_mem_settings_publish (h : s ∈ (publish kind status).settings now) :
    (∃ source, readyCondition? status = some source) ∧
      (s.type = Condition.ready ∨ s.type = kind.conditionType) := by
  cases hready : readyCondition? status with
  | none => simp [settings, hready] at h
  | some source =>
      obtain ⟨rest, hsettings, hrest⟩ := exists_settings_publish_eq now kind hready
      rw [hsettings] at h
      refine ⟨⟨source, rfl⟩, ?_⟩
      rcases List.mem_cons.mp h with rfl | h
      · exact Or.inr rfl
      · exact Or.inl (hrest s h)

theorem type_of_mem_settings_readyForState {name : String}
    (h : s ∈ (readyForState name).settings now) : s.type = Condition.ready := by
  obtain ⟨c, hc, rfl⟩ := List.mem_map.mp h
  exact (of_mem_readySettings now hc).1

end Settings

end Step

def takeAll (steps : List (String × Step)) (draft : StatusDraft) : StatusDraft :=
  steps.foldl (fun draft s => s.2.take s.1 draft) draft

theorem takeAll_append (first rest : List (String × Step)) (draft : StatusDraft) :
    draft.takeAll (first ++ rest) = (draft.takeAll first).takeAll rest :=
  List.foldl_append

theorem current_takeAll (steps : List (String × Step)) (draft : StatusDraft) :
    (draft.takeAll steps).current = draft.current := by
  induction steps generalizing draft with
  | nil => rfl
  | cons s steps ih => exact (ih _).trans (s.2.current_take s.1 draft)

theorem conditions_takeAll (steps : List (String × Step)) (draft : StatusDraft) :
    (draft.takeAll steps).collected.conditions =
      Conditions.setAll (steps.flatMap fun s => s.2.settings s.1) draft.collected.conditions := by
  induction steps generalizing draft with
  | nil => rfl
  | cons s steps ih =>
      rw [List.flatMap_cons, Conditions.setAll_append, ← s.2.conditions_take s.1 draft]
      exact ih _

theorem types_takeAll_prefix (steps : List (String × Step)) (draft : StatusDraft) :
    draft.collected.conditions.types <+: (draft.takeAll steps).collected.conditions.types := by
  rw [conditions_takeAll, Conditions.types_setAll]
  exact List.prefix_append _ _

theorem hasChanges_mk_none_eq_false_iff {new : SiteStatus} :
    (mk none new).hasChanges = false ↔ new.untimed = SiteStatus.empty.untimed := by
  have hnil : new.conditions.map Condition.untimed = [] ↔ new.conditions = [] := List.map_eq_nil_iff
  cases new
  simp_all [hasChanges, SiteStatus.untimed, SiteStatus.empty]

theorem hasChanges_mk_some_eq_false_iff {current new : SiteStatus}
    (distinct : current.conditions.types.Nodup)
    (kept : current.conditions.types <+: new.conditions.types) :
    (mk (some current) new).hasChanges = false ↔ new.untimed = current.untimed := by
  have hfields : (mk (some current) new).hasChanges = false ↔
      current.state = new.state ∧ current.url = new.url ∧ current.release = new.release ∧
        current.storageGb = new.storageGb ∧ current.registeredUsers = new.registeredUsers ∧
        Conditions.same current.conditions new.conditions = true := by
    simp [hasChanges, and_assoc]
  rw [hfields, Conditions.same_iff_map_untimed_eq distinct kept, SiteStatus.untimed,
    SiteStatus.untimed, SiteStatus.mk.injEq]
  constructor
  · rintro ⟨hstate, hurl, hrelease, hstorage, husers, hconditions⟩
    exact ⟨hconditions, hstate.symm, hurl.symm, hstorage.symm, husers.symm, hrelease.symm⟩
  · rintro ⟨hconditions, hstate, hurl, hstorage, husers, hrelease⟩
    exact ⟨hstate.symm, hurl.symm, hrelease.symm, hstorage.symm, husers.symm, hconditions⟩

/-- A draft of a status that is not stored, or whose conditions have distinct types, has nothing new
to say exactly if what it has collected in some steps is equal, up to times, to what it started
from: the other fields are the same, and the conditions have the same type, status, reason and
message one by one. -/
theorem hasChanges_takeAll_eq_false_iff {current : Option SiteStatus}
    (distinct : ∀ status, current = some status → status.conditions.types.Nodup)
    (steps : List (String × Step)) :
    ((ofCurrent current).takeAll steps).hasChanges = false ↔
      ((ofCurrent current).takeAll steps).collected.untimed = (current.getD .empty).untimed := by
  have hcurrent := current_takeAll steps (ofCurrent current)
  have hkept := types_takeAll_prefix steps (ofCurrent current)
  generalize (ofCurrent current).takeAll steps = draft at hcurrent hkept ⊢
  obtain ⟨stored, new⟩ := draft
  obtain rfl : stored = current := hcurrent
  cases stored with
  | none => exact hasChanges_mk_none_eq_false_iff
  | some status => exact hasChanges_mk_some_eq_false_iff (distinct status rfl) hkept

/-- A site that stops being ready and then is ready again has something new to say in between, and
nothing at the end, although its condition has another time then. -/
theorem hasChanges_takeAll_of_ready_again :
    ∃ (status : SiteStatus) (lost regained : String × Step), status.conditions.types.Nodup ∧
      ((ofCurrent (some status)).takeAll [lost]).hasChanges = true ∧
      ((ofCurrent (some status)).takeAll [lost, regained]).collected ≠ status ∧
      ((ofCurrent (some status)).takeAll [lost, regained]).hasChanges = false := by
  let status : SiteStatus := ⟨[⟨"Ready", "True", some "Successful", some "LMSMoodle is ready",
    some "0"⟩], some "Ready", none, none, none, none⟩
  let lost : String × Step := ("1", .ready "False" "Pending" "Not yet")
  let regained : String × Step := ("2", .readyForState "Ready")
  have distinct : ∀ stored, some status = some stored → stored.conditions.types.Nodup := by
    rintro stored ⟨⟩
    exact List.pairwise_singleton _ _
  refine ⟨status, lost, regained, distinct status rfl, ?_, by decide, ?_⟩
  · rw [← Bool.not_eq_false, hasChanges_takeAll_eq_false_iff distinct]
    decide
  · exact (hasChanges_takeAll_eq_false_iff distinct [lost, regained]).mpr (by decide)

end StatusDraft

end SiteOperator
