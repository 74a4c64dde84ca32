import SiteOperator.Proofs.Status.Draft

/-!
# Statuses that settle

A pass sets conditions one after the other, some of them more than once. What comes of it, up to
times, is a function of the conditions that are set (`Conditions.overwriteAll`), and setting them
all once more says nothing new if every type occurs once (`Conditions.same_overwriteAll`). The rest
of a status is replaced by what is reported. So a status to which the same has been done twice has
no changes the second time, whether or not it was written after the first time
(`SiteStatus.UpdatedBy.settles`, `SiteStatus.UpdatedBy.stays`).
-/

namespace SiteOperator

namespace Conditions

def types (conditions : Conditions) : List String := conditions.map Condition.type

def overwriteAll (settings conditions : Conditions) : Conditions :=
  settings.foldl overwrite conditions

variable {conditions settings current new : Conditions} {c : Condition} {type : String}

theorem content?_append (first rest : Conditions) (type : String) :
    content? (first ++ rest) type = (first.content? type).or (rest.content? type) := by
  induction first with
  | nil => rfl
  | cons c first ih =>
      rw [List.cons_append, content?_cons, content?_cons, ih]
      split <;> rfl

theorem content?_overwrite (conditions : Conditions) (c : Condition) (type : String) :
    (overwrite conditions c).content? type =
      if c.type = type then some c.content else conditions.content? type := by
  induction conditions with
  | nil => exact content?_cons c [] type
  | cons head rest ih =>
      by_cases htype : head.type = c.type
      · by_cases h : c.type = type <;> simp [overwrite, content?_cons, htype, h]
      · by_cases h : c.type = type
        · have hne : ¬ head.type = type := fun heq => htype (heq.trans h.symm)
          simp [overwrite, content?_cons, ih, h, hne]
        · simp [overwrite, content?_cons, htype, ih, h]

/-- Of several conditions of a type the last one counts. -/
theorem content?_overwriteAll (settings conditions : Conditions) (type : String) :
    (overwriteAll settings conditions).content? type =
      (content? settings.reverse type).or (conditions.content? type) := by
  induction settings generalizing conditions with
  | nil => rfl
  | cons c settings ih =>
      have hrest := ih (overwrite conditions c)
      rw [content?_overwrite] at hrest
      rw [List.reverse_cons, content?_append, content?_cons, Option.or_assoc]
      refine hrest.trans (congrArg _ ?_)
      split <;> rfl

theorem types_overwrite (conditions : Conditions) (c : Condition) :
    (overwrite conditions c).types =
      if c.type ∈ conditions.types then conditions.types else conditions.types ++ [c.type] := by
  induction conditions with
  | nil => rfl
  | cons head rest ih =>
      by_cases htype : head.type = c.type
      · simp [overwrite, types, htype]
      · have hne : ¬ c.type = head.type := fun h => htype h.symm
        have hrest :
            (overwrite (head :: rest) c).types = head.type :: types (overwrite rest c) := by
          simp [overwrite, types, htype]
        have htypes : types (head :: rest) = head.type :: types rest := rfl
        rw [hrest, ih, htypes]
        by_cases hmem : c.type ∈ types rest
        · rw [if_pos hmem, if_pos (List.mem_cons_of_mem _ hmem)]
        · rw [if_neg hmem, if_neg (List.not_mem_cons_of_ne_of_not_mem hne hmem)]
          rfl

theorem overwriteAll_cons (c : Condition) (settings conditions : Conditions) :
    overwriteAll (c :: settings) conditions = overwriteAll settings (overwrite conditions c) := rfl

theorem overwriteAll_append (first rest conditions : Conditions) :
    overwriteAll (first ++ rest) conditions = overwriteAll rest (overwriteAll first conditions) :=
  List.foldl_append

theorem types_subset_overwrite (conditions : Conditions) (c : Condition) :
    conditions.types ⊆ (overwrite conditions c).types ∧
      c.type ∈ (overwrite conditions c).types := by
  rw [types_overwrite]
  split
  · exact ⟨List.Subset.refl _, by assumption⟩
  · exact ⟨List.subset_append_left _ _, List.mem_append_right _ List.mem_cons_self⟩

theorem types_subset_overwriteAll (settings conditions : Conditions) :
    conditions.types ⊆ (overwriteAll settings conditions).types ∧
      types settings ⊆ (overwriteAll settings conditions).types := by
  induction settings generalizing conditions with
  | nil => exact ⟨List.Subset.refl _, List.nil_subset _⟩
  | cons c settings ih =>
      obtain ⟨hbefore, hsettings⟩ := ih (overwrite conditions c)
      obtain ⟨hsub, hmem⟩ := types_subset_overwrite conditions c
      exact ⟨List.Subset.trans hsub hbefore, List.cons_subset.mpr ⟨hbefore hmem, hsettings⟩⟩

/-- Setting conditions of types that are there adds nothing. -/
theorem types_overwriteAll_of_subset (h : types settings ⊆ conditions.types) :
    (overwriteAll settings conditions).types = conditions.types := by
  induction settings generalizing conditions with
  | nil => rfl
  | cons c settings ih =>
      obtain ⟨hmem, hrest⟩ := List.cons_subset.mp h
      have hkept : (overwrite conditions c).types = conditions.types := by
        rw [types_overwrite, if_pos hmem]
      rw [overwriteAll_cons, ih (hkept ▸ hrest), hkept]

theorem nodup_types_overwriteAll (settings : Conditions) (distinct : conditions.types.Nodup) :
    (overwriteAll settings conditions).types.Nodup := by
  induction settings generalizing conditions with
  | nil => exact distinct
  | cons c settings ih =>
      refine ih ?_
      rw [types_overwrite]
      split
      · exact distinct
      · rename_i hnew
        refine List.nodup_append.mpr ⟨distinct, List.pairwise_singleton _ _, ?_⟩
        intro type htype other hother heq
        obtain rfl := List.mem_singleton.mp hother
        exact hnew (heq ▸ htype)

theorem ofType?_of_mem (distinct : conditions.types.Nodup) (h : c ∈ conditions) :
    conditions.ofType? c.type = some c := by
  induction conditions with
  | nil => cases h
  | cons head rest ih =>
      obtain ⟨hhead, hrest⟩ := List.nodup_cons.mp distinct
      rw [ofType?_cons]
      rcases List.mem_cons.mp h with rfl | h
      · exact if_pos rfl
      · rw [if_neg, ih hrest h]
        intro heq
        exact hhead (heq ▸ List.mem_map_of_mem h)

theorem same_iff {current new : Conditions} : same current new = true ↔
    current.length = new.length ∧ ∀ n ∈ new, current.content? n.type = some n.content := by
  rw [same, Bool.and_eq_true, decide_eq_true_iff, List.all_eq_true]
  refine and_congr_right fun _ => forall₂_congr fun n _ => ?_
  rw [content?]
  cases current.ofType? n.type with
  | none => simp
  | some c => simp [Condition.differs_eq_false_iff]

/-- What two lists say has nothing to do with times. -/
theorem same_map_untimed (current new : Conditions) :
    same (current.map Condition.untimed) (new.map Condition.untimed) = same current new := by
  have hcontent (type : String) : content? (current.map Condition.untimed) type =
      current.content? type := by
    rw [content?, ofType?_map_untimed, Option.map_map]
    rfl
  rw [Bool.eq_iff_iff, same_iff, same_iff]
  simp only [List.length_map, List.forall_mem_map, hcontent]
  rfl

/-- Lists of one length that have the same content for every type say the same, if no type occurs
twice. -/
theorem same_of_content? (distinct : new.types.Nodup) (hlength : current.length = new.length)
    (h : ∀ type, new.content? type = current.content? type) : same current new = true := by
  refine same_iff.mpr ⟨hlength, fun n hn => ?_⟩
  rw [← h, content?, ofType?_of_mem distinct hn, Option.map_some]

/-- Setting the same conditions once more says nothing new. -/
theorem same_overwriteAll (settings : Conditions) (distinct : conditions.types.Nodup) :
    same (overwriteAll settings conditions)
      (overwriteAll settings (overwriteAll settings conditions)) = true := by
  have htypes := types_overwriteAll_of_subset (types_subset_overwriteAll settings conditions).2
  have hnodup := nodup_types_overwriteAll settings distinct
  refine same_of_content? (htypes ▸ hnodup) ?_ fun type => ?_
  · have hlength := congrArg List.length htypes
    simpa [types] using hlength.symm
  · rw [content?_overwriteAll, content?_overwriteAll, ← Option.or_assoc, Option.or_self]

end Conditions

namespace StatusDraft

variable {draft : StatusDraft} {now : String}

def publishSettings (kind : DependentKind) (status : Option DependentStatus) : Conditions :=
  match readyCondition? status with
  | none => []
  | some source =>
      { source with type := kind.conditionType }.untimed ::
        if source.status = Condition.holds then []
        else [⟨Condition.ready, Condition.fails, some "DependantNotReady",
          some "Dependant is not ready", none⟩]

def readySettings (state : String) : Conditions :=
  if state = "Ready" then
    [⟨Condition.ready, Condition.holds, some successfulReason, some "LMSMoodle is ready", none⟩]
  else if state = "Terminating" then
    [⟨Condition.ready, Condition.fails, some "Terminating", some "Finalizer started", none⟩]
  else if state = suspendedState then
    [⟨Condition.ready, Condition.fails, some suspendedState, some "LMSMoodle is suspended", none⟩]
  else []

/-- The draft collects these conditions and is otherwise another draft. -/
structure Tells (draft : StatusDraft) (settings : Conditions) (told : StatusDraft) : Prop where
  rest : told = { draft with
    collected := { draft.collected with conditions := told.collected.conditions } }
  conditions : told.collected.conditions.map Condition.untimed =
    Conditions.overwriteAll settings (draft.collected.conditions.map Condition.untimed)

namespace Tells

variable {middle told : StatusDraft} {first rest : Conditions}

theorem refl (draft : StatusDraft) : draft.Tells [] draft := ⟨rfl, rfl⟩

theorem trans (h : draft.Tells first middle) (h' : middle.Tells rest told) :
    draft.Tells (first ++ rest) told := by
  refine ⟨h'.rest.trans ?_, ?_⟩
  · rw [h.rest]
  · rw [h'.conditions, h.conditions, Conditions.overwriteAll_append]

end Tells

theorem tells_setCondition (draft : StatusDraft) (now : String) (c : Condition) :
    draft.Tells [c.untimed] (draft.setCondition now c).1 :=
  ⟨rfl, Conditions.map_untimed_set _ _ _⟩

theorem tells_setReady (draft : StatusDraft) (now status reason message : String) :
    draft.Tells [⟨Condition.ready, status, some reason, some message, none⟩]
      (draft.setReady now status reason message).1 :=
  draft.tells_setCondition now ⟨Condition.ready, status, some reason, some message, some now⟩

theorem tells_publish (draft : StatusDraft) (now : String) (kind : DependentKind)
    (status : Option DependentStatus) :
    draft.Tells (publishSettings kind status) (draft.publish now kind status).1 := by
  unfold publish publishSettings
  cases readyCondition? status with
  | none => exact .refl draft
  | some source =>
      have published := draft.tells_setCondition now { source with type := kind.conditionType }
      dsimp only
      split
      · exact published
      · exact published.trans (tells_setReady _ now _ _ _)

theorem tells_setReadyForState (draft : StatusDraft) (now state : String) :
    draft.Tells (readySettings state) (draft.setReadyForState now state).1 := by
  unfold setReadyForState readySettings
  split
  · exact tells_setReady _ now _ _ _
  · split
    · exact tells_setReady _ now _ _ _
    · split
      · exact tells_setReady _ now _ _ _
      · exact .refl draft

/-- Whether a status says something new has nothing to do with times. -/
theorem hasChanges_congr {current current' new new' : SiteStatus}
    (h : current.untimed = current'.untimed) (h' : new.untimed = new'.untimed) :
    (StatusDraft.mk (some current) new).hasChanges =
      (StatusDraft.mk (some current') new').hasChanges := by
  have hsame : Conditions.same current.conditions new.conditions =
      Conditions.same current'.conditions new'.conditions := by
    rw [← Conditions.same_map_untimed, ← Conditions.same_map_untimed current'.conditions]
    rw [show current.conditions.map Condition.untimed = current'.conditions.map Condition.untimed
      from congrArg SiteStatus.conditions h,
      show new.conditions.map Condition.untimed = new'.conditions.map Condition.untimed
      from congrArg SiteStatus.conditions h']
  cases current
  cases current'
  cases new
  cases new'
  simp only [SiteStatus.untimed, SiteStatus.mk.injEq] at h h'
  simp_all [hasChanges]

end StatusDraft

namespace SiteStatus

/-- The status with what the workload reports in place of what it said before. -/
def reporting (status : SiteStatus) (workload : Option DependentStatus) : SiteStatus :=
  ((StatusDraft.mk none status).setFromWorkload workload).1.collected

/-- What a pass makes of a status, up to times: it sets conditions, sets the state, and takes over
what the workload reports. -/
structure UpdatedBy (settings : Conditions) (state : String) (workload : Option DependentStatus)
    (before after : SiteStatus) : Prop where
  conditions : after.conditions.map Condition.untimed =
    Conditions.overwriteAll settings (before.conditions.map Condition.untimed)
  rest : after = { before.reporting workload with
    conditions := after.conditions, state := some state }

variable {settings : Conditions} {state : String} {workload : Option DependentStatus}
  {before after again : SiteStatus}

/-- What the workload reports is there once it has been taken over. -/
theorem reporting_reporting (status : SiteStatus) (conditions : Conditions) (state : Option String)
    (workload : Option DependentStatus) :
    { status.reporting workload with conditions := conditions, state := state }.reporting workload =
      { status.reporting workload with conditions := conditions, state := state } := by
  have again {α : Type} [DecidableEq α] (slot value : Option α) :
      (StatusDraft.replace (StatusDraft.replace slot value).1 value).1 =
        (StatusDraft.replace slot value).1 := by
    cases value <;> rfl
  cases workload with
  | none => rfl
  | some workload => simp only [reporting, StatusDraft.setFromWorkload, again]

namespace UpdatedBy

/-- If the same is made of a status twice, the second time says nothing new. -/
theorem settles (first : UpdatedBy settings state workload before after)
    (second : UpdatedBy settings state workload after again)
    (distinct : before.conditions.types.Nodup) :
    (StatusDraft.mk (some after) again).hasChanges = false := by
  have hrest : again = { after with conditions := again.conditions } := by
    rw [second.rest, first.rest, reporting_reporting]
  have hsame : Conditions.same after.conditions again.conditions = true := by
    have hdistinct : (Conditions.types (before.conditions.map Condition.untimed)).Nodup := by
      simpa [Conditions.types, Function.comp_def, Condition.untimed] using distinct
    rw [← Conditions.same_map_untimed, second.conditions, first.conditions]
    exact Conditions.same_overwriteAll settings hdistinct
  rw [hrest]
  simp [StatusDraft.hasChanges, hsame]

/-- If what is made of a status says nothing new, neither does making the same of it again. -/
theorem stays (first : UpdatedBy settings state workload before after)
    (second : UpdatedBy settings state workload before again)
    (unchanged : (StatusDraft.mk (some before) after).hasChanges = false) :
    (StatusDraft.mk (some before) again).hasChanges = false := by
  have huntimed : again.untimed = after.untimed := by
    rw [untimed, untimed, second.conditions, first.conditions, second.rest, first.rest]
  rwa [StatusDraft.hasChanges_congr rfl huntimed]

end UpdatedBy

end SiteStatus

namespace StatusDraft

variable {draft draft' told told' : StatusDraft} {before after : Option SiteStatus}

structure SameDone (draft draft' told told' : StatusDraft) : Prop where
  current : told.current = draft.current
  current' : told'.current = draft'.current
  updated : ∃ settings state workload,
    draft.collected.UpdatedBy settings state workload told.collected ∧
      draft'.collected.UpdatedBy settings state workload told'.collected

/-- If the same is done to the status that was written, or to the old one if there was no need to
write, there is no need to write again. -/
theorem SameDone.settles (h : SameDone (ofCurrent before) (ofCurrent after) told told')
    (distinct : (before.getD .empty).conditions.types.Nodup)
    (written : after = some told.collected ∨ told.hasChanges = false ∧ after = before) :
    told'.hasChanges = false := by
  obtain ⟨settings, state, workload, first, second⟩ := h.updated
  have htold : told = ⟨before, told.collected⟩ := by
    rw [← show told.current = before from h.current]
  have htold' : told' = ⟨after, told'.collected⟩ := by
    rw [← show told'.current = after from h.current']
  rw [htold']
  rcases written with rfl | ⟨unchanged, rfl⟩
  · exact first.settles second distinct
  · rw [htold] at unchanged
    cases after with
    | some status => exact first.stays second unchanged
    | none =>
        -- Without a status there would be nothing to say, but a pass always sets the state.
        have hempty : told.collected = .empty := by simpa [hasChanges] using unchanged
        have hstate := congrArg SiteStatus.state first.rest
        rw [hempty] at hstate
        cases hstate

end StatusDraft

namespace Plan

variable {start draft : StatusDraft} {settings : Conditions}

theorem current_conclude (plan : Plan) (observed : Observed) (deleting suspending : Bool)
    (now : String) (draft : StatusDraft) :
    (plan.conclude observed deleting suspending now draft).1.current = draft.current := by
  rw [conclude, (StatusDraft.tells_setReadyForState _ _ _).rest]
  cases observed.moodle <;> rfl

/-- What a draft says once a pass has been concluded. -/
theorem updatedBy_conclude (plan : Plan) (observed : Observed) (deleting suspending : Bool)
    (now : String) (told : start.Tells settings draft) :
    start.collected.UpdatedBy
      (settings ++ StatusDraft.readySettings (plan.siteState observed deleting suspending))
      (plan.siteState observed deleting suspending) observed.moodle
      (plan.conclude observed deleting suspending now draft).1.collected := by
  have concluded := StatusDraft.tells_setReadyForState
    (((draft.setState (plan.siteState observed deleting suspending)).1).setFromWorkload
      observed.moodle).1 now (plan.siteState observed deleting suspending)
  refine ⟨?_, ?_⟩
  · rw [conclude, concluded.conditions, (StatusDraft.setFromWorkload_keeps _ _).1]
    rw [Conditions.overwriteAll_append, ← told.conditions]
    rfl
  · rw [conclude, concluded.rest, told.rest]
    cases observed.moodle <;> rfl

end Plan

end SiteOperator
