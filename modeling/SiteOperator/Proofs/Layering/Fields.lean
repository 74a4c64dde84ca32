import SiteOperator.Layering
import SiteOperator.Proofs.Json.Path

/-!
# Layers, key by key

Both ways of laying fields over those of a template go through the keys of the override, one after
the other, and make something of the value of a key and the value below it (`layEach`). The keys do
not interfere, so a layer is known as soon as it is known for each key (`layEach_ok`), and it fails
with the fault of the first key that fails (`layEach_error`).

The value of a key is laid over another one in one of four ways (`Laid`), or it clashes with it, or
both are objects and their fields do (`layer_error`).
-/

namespace SiteOperator

/-- Stores a value under a key if there is one. -/
def Entries.putAny {α : Type} (m : Entries α) (key : String) : Option α → Entries α
  | some x => m.put key x
  | none => m

theorem Entries.at?_putAny {α : Type} (m : Entries α) (key other : String) (x : Option α) :
    at? (m.putAny key x) other = if other = key then x.or (m.at? key) else m.at? other := by
  cases x with
  | none =>
      by_cases h : other = key
      · simp [putAny, h]
      · simp [putAny, h]
  | some x => rw [putAny, at?_put, Option.some_or]

def layEach (f : String → Json → Option Json → Except Fault (Option Json)) :
    List (String × Json) → Fields → Except Fault Fields
  | [], base => .ok base
  | (key, value) :: rest, base =>
      (f key value (base.at? key)).bind fun merged => layEach f rest (base.putAny key merged)

theorem layerFields_eq_layEach (path : List String) (top base : Fields) :
    layerFields path top base = layEach (fun key => layer (path ++ [key])) top base := by
  induction top generalizing base with
  | nil => simp [layerFields, layEach]
  | cons head rest ih =>
      obtain ⟨key, value⟩ := head
      rw [layerFields, layEach]
      cases layer (path ++ [key]) value (base.at? key) with
      | error fault => rfl
      | ok merged =>
          cases merged with
          | none => exact ih _
          | some merged => exact ih _

/-- What stands under a key of the outermost object after an override has been laid over it. -/
def layerEntry (root : String) (joined : List String) (key : String) (value : Json)
    (base : Option Json) : Except Fault (Option Json) :=
  match if joined.contains key then joinTexts value base else none with
  | some text => .ok (some text)
  | none => layer [root, key] value base

theorem layerSpec_eq_layEach (root : String) (joined : List String) (top base : Fields) :
    layerSpec root joined top base = layEach (layerEntry root joined) top base := by
  induction top generalizing base with
  | nil => rfl
  | cons head rest ih =>
      obtain ⟨key, value⟩ := head
      rw [layerSpec, layEach, layerEntry]
      cases (if joined.contains key then joinTexts value (base.at? key) else none) with
      | some text => exact ih _
      | none =>
          cases layer [root, key] value (base.at? key) with
          | error fault => rfl
          | ok merged =>
              cases merged with
              | none => exact ih _
              | some merged => exact ih _

section LayEach

variable {f : String → Json → Option Json → Except Fault (Option Json)} {top base merged : Fields}
  {key : String} {value : Json} {fault : Fault}

theorem layEach_ok_of_none (h : layEach f top base = .ok merged) (hkey : top.at? key = none) :
    merged.at? key = base.at? key := by
  induction top generalizing base with
  | nil =>
      cases h
      rfl
  | cons head rest ih =>
      obtain ⟨k, v⟩ := head
      rw [Entries.at?_cons] at hkey
      by_cases heq : k = key
      · rw [if_pos heq] at hkey
        cases hkey
      · rw [if_neg heq] at hkey
        obtain ⟨result, -, hrest⟩ := except_bind_eq_ok_iff.mp h
        rw [ih hrest hkey, Entries.at?_putAny, if_neg (Ne.symm heq)]

/-- What stands under a key after fields have been laid over others depends on the two values of
this key only. -/
theorem layEach_ok (sorted : Entries.Sorted top) (h : layEach f top base = .ok merged)
    (hkey : top.at? key = some value) :
    ∃ result, f key value (base.at? key) = .ok result ∧
      merged.at? key = result.or (base.at? key) := by
  induction top generalizing base with
  | nil => cases hkey
  | cons head rest ih =>
      obtain ⟨k, v⟩ := head
      obtain ⟨result, hresult, hrest⟩ := except_bind_eq_ok_iff.mp h
      rw [Entries.at?_cons] at hkey
      by_cases heq : k = key
      · subst heq
        rw [if_pos rfl] at hkey
        obtain rfl := Option.some.inj hkey
        refine ⟨result, hresult, ?_⟩
        rw [layEach_ok_of_none hrest sorted.at?_eq_none_of_head, Entries.at?_putAny, if_pos rfl]
      · rw [if_neg heq] at hkey
        have hbase := Entries.at?_putAny base k key result
        rw [if_neg (Ne.symm heq)] at hbase
        rw [← hbase]
        exact ih (List.pairwise_cons.mp sorted).2 hrest hkey

/-- A fault of fields that are laid over others is the fault of one of them, in whatever order they
stand. -/
theorem exists_error_of_layEach (h : layEach f top base = .error fault) :
    ∃ key value below, (key, value) ∈ top ∧ f key value below = .error fault := by
  induction top generalizing base with
  | nil => cases h
  | cons head rest ih =>
      rcases except_bind_eq_error_iff.mp h with hhead | ⟨result, -, hrest⟩
      · exact ⟨head.1, head.2, _, List.mem_cons_self, hhead⟩
      · obtain ⟨key, value, below, hmem, hvalue⟩ := ih hrest
        exact ⟨key, value, below, List.mem_cons_of_mem _ hmem, hvalue⟩

/-- Fields cannot be laid over others because one of them cannot. It is the first one: the fields of
the keys before it can. -/
theorem layEach_error (sorted : Entries.Sorted top) (h : layEach f top base = .error fault) :
    ∃ key value, top.at? key = some value ∧ f key value (base.at? key) = .error fault ∧
      ∀ earlier < key, ∀ other, top.at? earlier = some other →
        ∃ result, f earlier other (base.at? earlier) = .ok result := by
  induction top generalizing base with
  | nil => cases h
  | cons head rest ih =>
      obtain ⟨k, v⟩ := head
      rcases except_bind_eq_error_iff.mp h with hhead | ⟨result, hresult, hrest⟩
      · refine ⟨k, v, if_pos rfl, hhead, fun earlier hlt other hother => ?_⟩
        rcases List.mem_cons.mp (Entries.mem_of_at? hother) with heq | hmem
        · cases heq
          exact absurd hlt (String.lt_irrefl _)
        · exact absurd ((List.pairwise_cons.mp sorted).1 _ hmem) (String.lt_asymm hlt)
      · obtain ⟨key, value, hkey, hvalue, hearlier⟩ := ih (List.pairwise_cons.mp sorted).2 hrest
        have hne : k ≠ key := by
          rintro rfl
          rw [sorted.at?_eq_none_of_head] at hkey
          cases hkey
        rw [Entries.at?_putAny, if_neg hne.symm] at hvalue
        refine ⟨key, value, (if_neg hne).trans hkey, hvalue, fun earlier hlt other hother => ?_⟩
        rw [Entries.at?_cons] at hother
        by_cases heq : k = earlier
        · subst heq
          rw [if_pos rfl] at hother
          cases hother
          exact ⟨result, hresult⟩
        · rw [if_neg heq] at hother
          have hlaid := hearlier earlier hlt other hother
          rwa [Entries.at?_putAny, if_neg (Ne.symm heq)] at hlaid

end LayEach

/-- Two values that are both there, in a template and in an override, but have different types. -/
def Json.Clashes (value base : Json) : Prop :=
  value ≠ .null ∧ base ≠ .null ∧ base.type ≠ value.type

/-- What an override's value makes of the value below it, if there is one: nothing if it is null,
and otherwise it takes its place, unless both are objects. -/
inductive Laid (path : List String) : Json → Option Json → Option Json → Prop where
  | null (base : Option Json) : Laid path .null base base
  | fresh {value : Json} {base : Option Json} (hvalue : value ≠ .null)
      (hbase : base = none ∨ base = some .null) : Laid path value base (some value)
  | replaced {value base : Json} (hvalue : value ≠ .null) (hbase : base ≠ .null)
      (htype : base.type = value.type) (plain : value.type ≠ .object) :
      Laid path value (some base) (some value)
  | merged {top base fields : Fields} (h : layerFields path top base = .ok fields) :
      Laid path (.object top) (some (.object base)) (some (.object fields))

variable {path : List String} {value : Json} {base result : Option Json} {fault : Fault}

/-- Two values of one type are no objects if they are not both objects. -/
theorem Json.type_ne_object {value base : Json} (htype : base.type = value.type)
    (h : ∀ top fields, value = .object top → base = .object fields → False) :
    value.type ≠ .object := by
  cases value with
  | object top =>
      cases base with
      | object fields => exact absurd rfl (h top fields rfl)
      | null | bool | number | string | array => cases htype
  | null | bool | number | string | array => exact nofun

theorem layer_ok (h : layer path value base = .ok result) : Laid path value base result := by
  unfold layer at h
  split at h
  · cases h
    exact .null _
  · cases h
    exact .fresh ‹_› (Or.inl rfl)
  · cases h
    exact .fresh ‹_› (Or.inr rfl)
  · obtain ⟨fields, hfields, rfl⟩ := except_map_eq_ok_iff.mp h
    exact .merged hfields
  · rename_i hbase hvalue hobjects
    split at h
    · rename_i htype
      cases h
      exact .replaced hvalue hbase htype (Json.type_ne_object htype hobjects)
    · cases h

theorem layer_error (h : layer path value base = .error fault) :
    (∃ below, base = some below ∧ value.Clashes below ∧
        fault = .typeMismatch path below.type value.type) ∨
      ∃ top fields, value = .object top ∧ base = some (.object fields) ∧
        layerFields path top fields = .error fault := by
  unfold layer at h
  split at h
  · cases h
  · cases h
  · cases h
  · exact Or.inr ⟨_, _, rfl, rfl, except_map_eq_error_iff.mp h⟩
  · rename_i below hbase hvalue _
    split at h
    · cases h
    · rename_i htype
      cases h
      exact Or.inl ⟨below, rfl, ⟨hvalue, hbase, htype⟩, rfl⟩

/-- Nothing is taken away by laying a value over another one. -/
theorem Laid.or_eq (laid : Laid path value base result) : result.or base = result := by
  cases laid with
  | null => exact Option.or_self
  | fresh | replaced | merged => rfl

theorem Laid.not_clashes {below : Json} (laid : Laid path value base result)
    (hbase : base = some below) : ¬ value.Clashes below := by
  rintro ⟨hvalue, hbelow, htype⟩
  subst hbase
  cases laid with
  | null => exact hvalue rfl
  | fresh _ hbase =>
      rcases hbase with hbase | hbase
      · cases hbase
      · exact hbelow (Option.some.inj hbase)
  | replaced _ _ hsame => exact htype hsame
  | merged => exact htype rfl

section Fields

variable {top fields merged : Fields} {key : String}

theorem layerFields_ok_of_none (h : layerFields path top fields = .ok merged)
    (hkey : top.at? key = none) : merged.at? key = fields.at? key := by
  rw [layerFields_eq_layEach] at h
  exact layEach_ok_of_none h hkey

theorem layerFields_ok (sorted : Entries.Sorted top)
    (h : layerFields path top fields = .ok merged) (hkey : top.at? key = some value) :
    layer (path ++ [key]) value (fields.at? key) = .ok (merged.at? key) := by
  rw [layerFields_eq_layEach] at h
  obtain ⟨result, hresult, hmerged⟩ := layEach_ok sorted h hkey
  rw [hmerged, (layer_ok hresult).or_eq]
  exact hresult

/-- The first field that cannot be laid over the template's is the reason for a fault. -/
theorem layerFields_error (sorted : Entries.Sorted top)
    (h : layerFields path top fields = .error fault) :
    ∃ key value, top.at? key = some value ∧
      layer (path ++ [key]) value (fields.at? key) = .error fault ∧
      ∀ earlier < key, ∀ other, top.at? earlier = some other →
        ∃ result, Laid (path ++ [earlier]) other (fields.at? earlier) result := by
  rw [layerFields_eq_layEach] at h
  obtain ⟨key, value, hkey, hvalue, hearlier⟩ := layEach_error sorted h
  refine ⟨key, value, hkey, hvalue, fun earlier hlt other hother => ?_⟩
  obtain ⟨result, hresult⟩ := hearlier earlier hlt other hother
  exact ⟨result, layer_ok hresult⟩

end Fields

section Spec

variable {root key : String} {joined : List String} {override template merged : Fields}

/-- The texts of two values under a key whose texts are joined, the override's on top. -/
def Joins (joined : List String) (key : String) (value : Json) (base : Option Json)
    (text : String) : Prop :=
  key ∈ joined ∧ ∃ above below, value = .string above ∧ base = some (.string below) ∧
    text = above ++ "\n" ++ below

/-- Two texts that are joined could as well have been laid over each other. -/
theorem Joins.laid {text : String} (h : Joins joined key value base text) :
    Laid path value base (some value) := by
  obtain ⟨-, above, below, rfl, rfl, -⟩ := h
  exact .replaced (by simp) (by simp) rfl (by simp [Json.type])

theorem layerEntry_of_joins {text : String} (h : Joins joined key value base text) :
    layerEntry root joined key value base = .ok (some (.string text)) := by
  obtain ⟨hkey, above, below, rfl, rfl, rfl⟩ := h
  simp [layerEntry, hkey, joinTexts, joinLines]

theorem layerEntry_of_not_joins (h : ¬ ∃ text, Joins joined key value base text) :
    layerEntry root joined key value base = layer [root, key] value base := by
  unfold layerEntry
  split
  · rename_i merged hmerged
    exfalso
    split at hmerged
    · rename_i hkey
      unfold joinTexts at hmerged
      split at hmerged
      · exact h ⟨_, by simpa using hkey, _, _, rfl, rfl, rfl⟩
      · cases hmerged
    · cases hmerged
  · rfl

theorem layerSpec_ok_of_none (h : layerSpec root joined override template = .ok merged)
    (hkey : override.at? key = none) : merged.at? key = template.at? key := by
  rw [layerSpec_eq_layEach] at h
  exact layEach_ok_of_none h hkey

theorem layerSpec_ok (sorted : Entries.Sorted override)
    (h : layerSpec root joined override template = .ok merged)
    (hkey : override.at? key = some value) :
    layerEntry root joined key value (template.at? key) = .ok (merged.at? key) := by
  rw [layerSpec_eq_layEach] at h
  obtain ⟨result, hresult, hmerged⟩ := layEach_ok sorted h hkey
  rw [hmerged]
  by_cases hjoins : ∃ text, Joins joined key value (template.at? key) text
  · obtain ⟨text, hjoins⟩ := hjoins
    rw [layerEntry_of_joins hjoins] at hresult ⊢
    cases hresult
    rfl
  · rw [layerEntry_of_not_joins hjoins] at hresult ⊢
    rw [(layer_ok hresult).or_eq]
    exact hresult

theorem layerSpec_error (sorted : Entries.Sorted override)
    (h : layerSpec root joined override template = .error fault) :
    ∃ key value, override.at? key = some value ∧
      layer [root, key] value (template.at? key) = .error fault ∧
      ∀ earlier < key, ∀ other, override.at? earlier = some other →
        ∃ result, Laid [root, earlier] other (template.at? earlier) result := by
  rw [layerSpec_eq_layEach] at h
  obtain ⟨key, value, hkey, hvalue, hearlier⟩ := layEach_error sorted h
  refine ⟨key, value, hkey, ?_, fun earlier hlt other hother => ?_⟩
  · by_cases hjoins : ∃ text, Joins joined key value (template.at? key) text
    · obtain ⟨text, hjoins⟩ := hjoins
      rw [layerEntry_of_joins hjoins] at hvalue
      cases hvalue
    · rwa [layerEntry_of_not_joins hjoins] at hvalue
  · obtain ⟨result, hresult⟩ := hearlier earlier hlt other hother
    by_cases hjoins : ∃ text, Joins joined earlier other (template.at? earlier) text
    · obtain ⟨text, hjoins⟩ := hjoins
      exact ⟨_, hjoins.laid⟩
    · rw [layerEntry_of_not_joins hjoins] at hresult
      exact ⟨result, layer_ok hresult⟩

end Spec

end SiteOperator
