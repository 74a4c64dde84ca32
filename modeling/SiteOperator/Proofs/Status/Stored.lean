import SiteOperator.Proofs.Decimal.Rounding
import SiteOperator.Proofs.Resource.Patched
import SiteOperator.Proofs.Status.Steps

/-!
# What is stored of a status

A status is written as a merge patch. Such a patch can add fields and replace them, but it keeps a
field that it does not have, so it stores the status that was collected only if nothing that was
said before is left out. No step of a draft leaves anything out (`SiteStatus.Extends`): each of them
replaces a value by another one or keeps it. So the stored status is always exactly the one that was
collected (`StatusDraft.stores_collected`), and of each field that the workload fills it is the last
value that was reported. A quantity of storage is shown as a text (`ShowsQuantity`).
-/

namespace SiteOperator

namespace SiteStatus

variable {before after status : SiteStatus}

theorem Extends.refl (status : SiteStatus) : status.Extends status := ⟨id, id, id, id, id⟩

theorem Extends.trans {between : SiteStatus} (h : before.Extends between)
    (h' : between.Extends after) : before.Extends after where
  state hnone := h.state (h'.state hnone)
  url hnone := h.url (h'.url hnone)
  storageGb hnone := h.storageGb (h'.storageGb hnone)
  registeredUsers hnone := h.registeredUsers (h'.registeredUsers hnone)
  release hnone := h.release (h'.release hnone)

/-- A status is written with these fields and no other ones. -/
theorem written_of_at? {fields : Fields} (h : status.encode = .object fields) {key : String}
    {value : Json} (hat : fields.at? key = some value) :
    (key = "conditions" ∧ value = .array (status.conditions.map Condition.encode)) ∨
      (∃ x, status.state = some x ∧ key = "state" ∧ value = .string x) ∨
      (∃ x, status.url = some x ∧ key = "url" ∧ value = .string x) ∨
      (∃ x, status.storageGb = some x ∧ key = "storageGb" ∧ value = .string x) ∨
      (∃ n, status.registeredUsers = some n ∧ key = "registeredUsers" ∧ value = .int n) ∨
      (∃ x, status.release = some x ∧ key = "release" ∧ value = .string x) := by
  obtain rfl : Entries.ofList _ = fields := Json.object.inj h
  rw [Entries.at?_ofList] at hat
  have hmem := List.mem_reverse.mp (Entries.mem_of_at? hat)
  simpa only [List.mem_append, List.mem_singleton, Json.mem_fieldIf_map, Prod.mk.injEq,
    or_assoc] using hmem

theorem replaces_of_at? {fields : Fields} (h : status.encode = .object fields) (key : String)
    (value : Json) (hat : fields.at? key = some value) :
    value.isNull = false ∧ ∀ other, value.mergePatch other = value := by
  rcases written_of_at? h hat with ⟨-, rfl⟩ | ⟨x, -, -, rfl⟩ | ⟨x, -, -, rfl⟩ | ⟨x, -, -, rfl⟩ |
    ⟨n, -, -, rfl⟩ | ⟨x, -, -, rfl⟩ <;> exact ⟨rfl, fun _ => by simp [Json.mergePatch, Json.int]⟩

/-- A status that is merged into one from which it leaves nothing out is stored as it is. -/
theorem mergePatch_encode (covers : before.Extends after) :
    after.encode.mergePatch before.encode = after.encode := by
  obtain ⟨patch, hpatch, sorted, hconditions, hstate, hurl, hstorage, husers, hrelease⟩ :=
    after.exists_encode_eq
  obtain ⟨target, htarget, sorted', -⟩ := before.exists_encode_eq
  have present {α : Type} {x : α} {slot : Option α} {write : α → Json} {value : Option α}
      (hsome : slot = some x) (hcovers : value = none → slot = none) : value.map write ≠ none := by
    intro hnone
    rw [hcovers (Option.map_eq_none_iff.mp hnone)] at hsome
    cases hsome
  rw [hpatch, htarget, Json.mergePatch_object]
  refine congrArg Json.object (Json.mergePatchFields_eq_self sorted sorted' (fun key hnone => ?_)
    (replaces_of_at? hpatch))
  refine Option.eq_none_iff_forall_ne_some.mpr fun value hat => ?_
  rcases written_of_at? htarget hat with ⟨rfl, -⟩ | ⟨x, hx, rfl, -⟩ | ⟨x, hx, rfl, -⟩ |
    ⟨x, hx, rfl, -⟩ | ⟨n, hn, rfl, -⟩ | ⟨x, hx, rfl, -⟩
  · cases hconditions.symm.trans hnone
  · exact present hx covers.state (hstate.symm.trans hnone)
  · exact present hx covers.url (hurl.symm.trans hnone)
  · exact present hx covers.storageGb (hstorage.symm.trans hnone)
  · exact present hn covers.registeredUsers (husers.symm.trans hnone)
  · exact present hx covers.release (hrelease.symm.trans hnone)

theorem mergePatch_encode_null (status : SiteStatus) :
    status.encode.mergePatch .null = status.encode := by
  obtain ⟨patch, hpatch, sorted, -⟩ := status.exists_encode_eq
  rw [hpatch, Json.mergePatch_object]
  exact congrArg Json.object (Json.mergePatchFields_eq_self sorted .nil (fun _ _ => rfl)
    (replaces_of_at? hpatch))

end SiteStatus

/-- How a quantity is shown: a text as it is, an integer in decimal digits, a double with the tenths
that are nearest to it, and any other value as JSON. -/
inductive ShowsQuantity : Json → String → Prop where
  | text (s : String) : ShowsQuantity (.string s) s
  | integer (n : Int) : ShowsQuantity (.number (.int n)) (toString n)
  | double {x : Binary64} {tenths : ℕ} (nearest : IsNearest (10 * x.magnitude) tenths) :
      ShowsQuantity (.number (.double x)) ((if x.negative then "-" else "") ++
        toString (tenths / 10) ++ "." ++ toString (tenths % 10))
  | null : ShowsQuantity .null "null"
  | bool (b : Bool) : ShowsQuantity (.bool b) (if b then "true" else "false")
  | array (items : List Json) : ShowsQuantity (.array items) (Json.array items).compact
  | object (fields : Fields) : ShowsQuantity (.object fields) (Json.object fields).compact

theorem showsQuantity_iff {value : Json} {text : String} :
    ShowsQuantity value text ↔ storageText value = text := by
  constructor
  · intro h
    cases h with
    | text | integer | null | array | object => rfl
    | double nearest => exact Binary64.oneDecimal_eq _ nearest
    | bool b => cases b <;> rfl
  · rintro rfl
    cases value with
    | null => exact .null
    | bool b => cases b with
      | false => exact .bool false
      | true => exact .bool true
    | number n => cases n with
      | int n => exact .integer n
      | double x => exact .double x.isNearest_tenths
    | string s => exact .text s
    | array items => exact .array items
    | object fields => exact .object fields

namespace DependentStatus

variable (status : DependentStatus)

def release? : Option String := status.version.bind WorkloadVersion.release

def storage? : Option Json := (status.usage.find? (·.name = "storage_total")).map (·.value)

def storageText? : Option String := status.storage?.map storageText

theorem storageText?_eq : status.storageText? =
    (status.usageItem? "storage_total").map fun item => storageText item.value :=
  Option.map_map _ _ _

/-- The number of users that a workload reports, if it is an integer that fits 64 bits, one of them
for the sign. -/
def users? : Option Int :=
  (status.usage.find? (·.name = "users_total")).bind fun item =>
    match item.value with
    | .number (.int n) =>
        if -(Nat.pow 2 63 : Nat) ≤ n ∧ n < (Nat.pow 2 63 : Nat) then some n else none
    | _ => none

theorem users?_eq : status.users? =
    (status.usageItem? "users_total").bind fun item => StatusDraft.usersOf? item.value := by
  have hrange (n : Int) : -(Nat.pow 2 63 : Nat) ≤ n ∧ n < (Nat.pow 2 63 : Nat) ↔
      (decide (-(Nat.pow 2 63 : Nat) ≤ n) && decide (n ≤ (Nat.pow 2 63 : Nat) - 1)) = true := by
    rw [Bool.and_eq_true, decide_eq_true_eq, decide_eq_true_eq, Int.le_sub_one_iff]
  refine congrArg _ (funext fun item => ?_)
  cases item.value with
  | number n =>
      cases n with
      | int n =>
          simp only [StatusDraft.usersOf?, Decoder.integer64, Decoder.integerBetween, ← hrange]
      | double => rfl
  | null | bool | string | array | object => rfl

end DependentStatus

namespace StatusDraft

theorem fst_replace {α : Type} [DecidableEq α] (slot value : Option α) :
    (replace slot value).1 = value.or slot := by
  cases value <;> rfl

namespace Step

def workload? : Step → Option DependentStatus
  | workload status => status
  | ready .. | publish .. | state _ | readyForState _ | terminated => none

def state? : Step → Option String
  | state name => some name
  | terminated => some "Terminated"
  | ready .. | publish .. | workload _ | readyForState _ => none

variable (now : String) (step : Step) (draft : StatusDraft)

/-- What a step sets or takes over takes the place of what was there; all else stays. -/
theorem take_fields :
    (step.take now draft).collected.state = step.state?.or draft.collected.state ∧
      (step.take now draft).collected.url =
        (step.workload?.bind DependentStatus.url).or draft.collected.url ∧
      (step.take now draft).collected.release =
        (step.workload?.bind DependentStatus.release?).or draft.collected.release ∧
      (step.take now draft).collected.storageGb =
        (step.workload?.bind DependentStatus.storageText?).or draft.collected.storageGb ∧
      (step.take now draft).collected.registeredUsers =
        (step.workload?.bind DependentStatus.users?).or draft.collected.registeredUsers := by
  cases step with
  | ready | state | terminated => exact ⟨rfl, rfl, rfl, rfl, rfl⟩
  | publish kind status =>
      rw [take, (tells_publish draft now kind status).rest]
      exact ⟨rfl, rfl, rfl, rfl, rfl⟩
  | readyForState name =>
      rw [take, (tells_setReadyForState draft now name).rest]
      exact ⟨rfl, rfl, rfl, rfl, rfl⟩
  | workload status =>
      cases status with
      | none => exact ⟨rfl, rfl, rfl, rfl, rfl⟩
      | some status =>
          refine ⟨rfl, fst_replace _ _, fst_replace _ _, (fst_replace _ _).trans ?_, ?_⟩
          · exact congrArg (Option.or · _) status.storageText?_eq.symm
          · exact (fst_replace _ _).trans (congrArg (Option.or · _) status.users?_eq.symm)

/-- No step leaves out anything that was said before. -/
theorem extends_take : draft.collected.Extends (step.take now draft).collected := by
  have kept {α : Type} {value slot after : Option α} (h : after = value.or slot)
      (hnone : after = none) : slot = none :=
    (Option.or_eq_none_iff.mp (h.symm.trans hnone)).2
  obtain ⟨hstate, hurl, hrelease, hstorage, husers⟩ := take_fields now step draft
  exact ⟨kept hstate, kept hurl, kept hstorage, kept husers, kept hrelease⟩

end Step

variable (steps : List (String × Step)) (draft : StatusDraft)

theorem extends_takeAll : draft.collected.Extends (draft.takeAll steps).collected := by
  induction steps generalizing draft with
  | nil => exact .refl _
  | cons s steps ih => exact (s.2.extends_take s.1 draft).trans (ih _)

/-- The last value that one of the workload's statuses reports. -/
def lastReported? {α : Type} (value : DependentStatus → Option α)
    (steps : List (String × Step)) : Option α :=
  steps.reverse.findSome? fun s => s.2.workload?.bind value

theorem lastReported?_map {α β : Type} (shown : α → β) (value : DependentStatus → Option α)
    (steps : List (String × Step)) :
    lastReported? (fun status => (value status).map shown) steps =
      (lastReported? value steps).map shown := by
  rw [lastReported?, lastReported?, List.map_findSome?]
  refine congrArg (List.findSome? · _) (funext fun s => ?_)
  exact Option.map_bind.symm

/-- A field that every step replaces by what the workload reports has the last such value at the
end. -/
theorem slot_takeAll {α : Type} {slot : SiteStatus → Option α} {value : DependentStatus → Option α}
    (h : ∀ now step draft, slot (Step.take now step draft).collected =
      (step.workload?.bind value).or (slot draft.collected)) :
    slot (draft.takeAll steps).collected =
      (lastReported? value steps).or (slot draft.collected) := by
  induction steps generalizing draft with
  | nil => rfl
  | cons s steps ih =>
      have hrest := ih (s.2.take s.1 draft)
      rw [h] at hrest
      rw [lastReported?, List.reverse_cons, List.findSome?_append, Option.or_assoc]
      refine hrest.trans (congrArg _ ?_)
      cases hvalue : s.2.workload?.bind value <;> simp [hvalue]

theorem storageGb_takeAll :
    ∃ shown, Option.Rel ShowsQuantity (lastReported? DependentStatus.storage? steps) shown ∧
      (draft.takeAll steps).collected.storageGb = shown.or draft.collected.storageGb := by
  refine ⟨lastReported? DependentStatus.storageText? steps, ?_,
    slot_takeAll steps draft fun now step draft => (step.take_fields now draft).2.2.2.1⟩
  have htexts : lastReported? DependentStatus.storageText? steps = _ :=
    lastReported?_map storageText DependentStatus.storage? steps
  rw [htexts]
  cases lastReported? DependentStatus.storage? steps with
  | none => exact .none
  | some value => exact .some (showsQuantity_iff.mpr rfl)

/-- What a draft has collected in some steps is stored exactly, if the status that is stored is the
one that the draft started from: the patch of the status makes it the status of the object, and all else
in the object stays. No step leaves out what was said before, and the four fields that are taken
over from the workload hold the last value that it reported, or the first one of all if it reported
none. -/
theorem stores_collected {current : Option SiteStatus} {object : Json}
    (stored : object.field "status" = (current.map SiteStatus.encode).getD .null)
    (steps : List (String × Step)) {draft : StatusDraft}
    (taken : (ofCurrent current).takeAll steps = draft) :
    ((statusPatch draft.collected.encode).mergePatch object).field "status" =
        draft.collected.encode ∧
      (∀ other, other ≠ "status" →
        ((statusPatch draft.collected.encode).mergePatch object).field other =
          object.field other) ∧
      (∀ earlier s later, steps = earlier ++ s :: later →
        ((ofCurrent current).takeAll earlier).collected.Extends
          ((ofCurrent current).takeAll (earlier ++ [s])).collected) ∧
      draft.collected.url =
        (lastReported? DependentStatus.url steps).or (current.getD .empty).url ∧
      draft.collected.release =
        (lastReported? DependentStatus.release? steps).or (current.getD .empty).release ∧
      (∃ shown, Option.Rel ShowsQuantity (lastReported? DependentStatus.storage? steps) shown ∧
        draft.collected.storageGb = shown.or (current.getD .empty).storageGb) ∧
      draft.collected.registeredUsers =
        (lastReported? DependentStatus.users? steps).or
          (current.getD .empty).registeredUsers := by
  subst taken
  have covers := extends_takeAll steps (ofCurrent current)
  refine ⟨?_, ?_, ?_, slot_takeAll steps _ ?_, slot_takeAll steps _ ?_,
    storageGb_takeAll steps _, slot_takeAll steps _ ?_⟩
  · rw [statusPatch, Json.field_mergePatch rfl, if_pos rfl, stored]
    cases current with
    | none => exact SiteStatus.mergePatch_encode_null _
    | some status => exact SiteStatus.mergePatch_encode covers
  · intro other hother
    rw [statusPatch, Json.field_mergePatch rfl, if_neg hother]
  · rintro earlier s later rfl
    rw [takeAll_append]
    exact s.2.extends_take s.1 _
  · exact fun now step draft => (step.take_fields now draft).2.1
  · exact fun now step draft => (step.take_fields now draft).2.2.1
  · exact fun now step draft => (step.take_fields now draft).2.2.2.2

/-- The double nearest to 0.74. -/
def usedStorage : Binary64 := ⟨false, 6665327448508334, -53⟩

theorem tenths_usedStorage : IsNearest (10 * usedStorage.magnitude) 7 := by
  refine isNearest_of_lt ?_
  norm_num [usedStorage, Binary64.magnitude, abs_lt]

/-- A workload that first reports five users, its storage and its address, and then a number of
users that is too large and nothing else, leaves what it reported first in the status that is
stored. -/
theorem stores_collected_of_too_many_users :
    ∃ (status : SiteStatus) (object : Json) (steps : List (String × Step)) (draft : StatusDraft),
      object.field "status" = status.encode ∧
      (ofCurrent (some status)).takeAll steps = draft ∧
      ((statusPatch draft.collected.encode).mergePatch object).field "status" =
        draft.collected.encode ∧
      ((statusPatch draft.collected.encode).mergePatch object).field "spec" = .string "s" ∧
      draft.collected.state = some "Ready" ∧ draft.collected.url = some "a" ∧
      draft.collected.storageGb = some "0.7" ∧ draft.collected.registeredUsers = some 5 := by
  let status : SiteStatus := ⟨[], some "Creating", some "b", some "3", some 4, none⟩
  let object : Json := .ofFields [("spec", .string "s"), ("status", status.encode)]
  let first : DependentStatus := ⟨[], none, some "a", none,
    [⟨"users_total", .int 5⟩, ⟨"storage_total", .number (.double usedStorage)⟩]⟩
  let second : DependentStatus := ⟨[], none, none, none, [⟨"users_total", .int (Nat.pow 2 63 : Nat)⟩]⟩
  let steps : List (String × Step) :=
    [("1", .workload (some first)), ("2", .workload (some second)), ("3", .state "Ready")]
  have stored : object.field "status" = ((some status).map SiteStatus.encode).getD .null := by
    simp [object, Json.field, Json.fields?, Json.ofFields, Entries.at?_ofList, Entries.at?_cons]
  have spec : object.field "spec" = .string "s" := by
    simp [object, Json.field, Json.fields?, Json.ofFields, Entries.at?_ofList, Entries.at?_cons]
  obtain ⟨hstatus, hrest, -, hurl, -, ⟨shown, hshown, hstorage⟩, husers⟩ :=
    stores_collected stored steps rfl
  have hlast : lastReported? DependentStatus.storage? steps =
      some (.number (.double usedStorage)) := rfl
  have rounded : shown = some "0.7" := by
    rw [hlast] at hshown
    cases hshown with
    | some shows => cases shows with
      | double nearest =>
          rw [nearest.unique tenths_usedStorage]
          rfl
  rw [rounded] at hstorage
  exact ⟨status, object, steps, _, stored, rfl, hstatus, (hrest "spec" (by decide)).trans spec, rfl,
    hurl.trans rfl, hstorage, husers.trans rfl⟩

end StatusDraft

end SiteOperator
