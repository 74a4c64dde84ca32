import SiteOperator.Proofs.Layering.Types

/-!
# Layers key by key and without paths

What is made of a value of an override and the value below it does not depend on the path at which
they stand, which only a fault shows. `Overlaid` relates the two, where either may be missing, to
the result. Objects are related by their fields, so a fact about layers is shown by one induction
with a case for each way in which values meet: a result is in order if the values are
(`Overlaid.ordered`), there is one only (`Overlaid.unique`), and at each path it has the type that
its layers have there (`Overlaid.typeAt?_eq`).
-/

namespace SiteOperator

/-- What an override's value and the value below it, where either may be missing, become. Their
texts are joined if they stand under a key where texts are. -/
inductive Overlaid : (joins : Prop) → (top base result : Option Json) → Prop where
  | kept {joins : Prop} {top base : Option Json} (blank : Json.Blank top) :
      Overlaid joins top base base
  | fresh {joins : Prop} {value : Json} {base : Option Json} (hvalue : value ≠ .null)
      (blank : Json.Blank base) : Overlaid joins (some value) base (some value)
  | joined {joins : Prop} (h : joins) (above below : String) :
      Overlaid joins (some (.string above)) (some (.string below))
        (some (.string (above ++ "\n" ++ below)))
  | replaced {joins : Prop} {value base : Json} (hvalue : value ≠ .null)
      (htype : base.type = value.type) (plain : value.type ≠ .object)
      (apart : ¬ (joins ∧ value.type = .string)) :
      Overlaid joins (some value) (some base) (some value)
  | merged {joins : Prop} {top base fields : Fields} (sorted : Entries.Sorted fields)
      (h : ∀ key, Overlaid False (top.at? key) (base.at? key) (fields.at? key)) :
      Overlaid joins (some (.object top)) (some (.object base)) (some (.object fields))

namespace Overlaid

variable {joins : Prop} {top base result : Option Json} {value : Json}

theorem of_blank_top (h : Overlaid joins top base result) (blank : Json.Blank top) :
    result = base := by
  cases h with
  | kept => rfl
  | fresh hvalue | replaced hvalue => exact absurd blank (Json.not_blank_some hvalue)
  | joined | merged => exact absurd blank (Json.not_blank_some (by simp))

theorem of_blank_base (h : Overlaid joins (some value) base result) (hvalue : value ≠ .null)
    (blank : Json.Blank base) : result = some value := by
  cases h with
  | kept blank => exact absurd blank (Json.not_blank_some hvalue)
  | fresh | replaced => rfl
  | joined | merged => exact absurd blank (Json.not_blank_some (by simp))

theorem of_objects {top base : Fields}
    (h : Overlaid joins (some (.object top)) (some (.object base)) result) :
    ∃ fields : Fields, result = some (.object fields) ∧ Entries.Sorted fields ∧
      ∀ key, Overlaid False (top.at? key) (base.at? key) (fields.at? key) := by
  cases h with
  | kept blank | fresh _ blank => exact absurd blank (Json.not_blank_some (by simp))
  | replaced _ _ plain => exact absurd rfl plain
  | merged sorted h => exact ⟨_, rfl, sorted, h⟩

/-- Values of which none is null have the same type if one can be laid over the other. -/
theorem type_eq {below : Json} (h : Overlaid joins (some value) (some below) result)
    (hvalue : value ≠ .null) (hbelow : below ≠ .null) : below.type = value.type := by
  cases h with
  | kept blank => exact absurd blank (Json.not_blank_some hvalue)
  | fresh _ blank => exact absurd blank (Json.not_blank_some hbelow)
  | joined | merged => rfl
  | replaced _ htype => exact htype

/-- Where no two texts meet, it does not matter whether texts are joined. -/
theorem of_apart (h : Overlaid False top base result)
    (apart : ¬ (joins ∧ ∃ above below, top = some (.string above) ∧ base = some (.string below))) :
    Overlaid joins top base result := by
  cases h with
  | kept blank => exact .kept blank
  | fresh hvalue blank => exact .fresh hvalue blank
  | joined hfalse => exact hfalse.elim
  | @replaced _ value below hvalue htype plain =>
      refine .replaced hvalue htype plain ?_
      rintro ⟨hjoins, hstring⟩
      obtain ⟨above, rfl⟩ := Json.exists_string_of_type hstring
      obtain ⟨below, rfl⟩ := Json.exists_string_of_type (htype.trans hstring)
      exact apart ⟨hjoins, above, below, rfl, rfl⟩
  | merged sorted h => exact .merged sorted h

/-- The induction is on the way in which the two values meet; they meet in no other way. -/
theorem unique {other : Option Json} (h : Overlaid joins top base result)
    (h' : Overlaid joins top base other) : result = other := by
  induction h generalizing other with
  | kept blank => exact (h'.of_blank_top blank).symm
  | fresh hvalue blank => exact (h'.of_blank_base hvalue blank).symm
  | joined hjoins =>
      cases h' with
      | kept blank | fresh _ blank => exact absurd blank (Json.not_blank_some (by simp))
      | joined => rfl
      | replaced _ _ _ apart => exact absurd ⟨hjoins, rfl⟩ apart
  | replaced hvalue htype plain apart =>
      cases h' with
      | kept blank => exact absurd blank (Json.not_blank_some hvalue)
      | fresh | replaced => rfl
      | joined hjoins => exact absurd ⟨hjoins, rfl⟩ apart
      | merged => exact absurd rfl plain
  | merged sorted _ ih =>
      obtain ⟨fields, rfl, sorted', hfields⟩ := h'.of_objects
      exact congrArg (fun fields => some (Json.object fields))
        (sorted.ext sorted' fun key => ih key (hfields key))

/-- A result is in order if the two values are. -/
theorem ordered (h : Overlaid joins top base result)
    (htop : ∀ value, top = some value → value.Ordered)
    (hbase : ∀ value, base = some value → value.Ordered) :
    ∀ value, result = some value → value.Ordered := by
  induction h with
  | kept => exact hbase
  | fresh | replaced => exact htop
  | joined =>
      intro value hvalue
      cases hvalue
      exact .string _
  | merged sorted _ ih =>
      intro value hvalue
      cases hvalue
      refine .object sorted fun e he => ?_
      exact ih e.1 (fun _ => (htop _ rfl).of_at?) (fun _ => (hbase _ rfl).of_at?) e.2
        (sorted.at?_of_mem he)

/-- At each path a result has the type of the upper value, and if that has none, of the lower one.
-/
theorem typeAt?_eq (h : Overlaid joins top base result) (path : List String) :
    Json.typeAt? result path = (Json.typeAt? top path).or (Json.typeAt? base path) := by
  induction h generalizing path with
  | kept blank => rw [Json.typeAt?_of_blank blank, Option.none_or]
  | fresh _ blank => rw [Json.typeAt?_of_blank blank, Option.or_none]
  | joined => cases path <;> rfl
  | replaced hvalue htype plain =>
      cases path with
      | nil => rw [Json.typeAt?_nil hvalue, Option.some_or]
      | cons key rest =>
          rw [Json.typeAt?_cons_of_ne_object plain, Json.typeAt?_cons_of_ne_object (htype ▸ plain),
            Option.none_or]
  | merged _ _ ih =>
      cases path with
      | nil => rfl
      | cons key rest => exact ih key rest

end Overlaid

section Layers

variable {root : String} {joined path : List String} {override template merged top fields : Fields}
  {value : Json} {base result : Option Json}
  {f : String → Json → Option Json → Except Fault (Option Json)}

theorem sorted_layEach (sorted : Entries.Sorted fields) (h : layEach f top fields = .ok merged) :
    Entries.Sorted merged := by
  induction top generalizing fields with
  | nil =>
      cases h
      exact sorted
  | cons head rest ih =>
      obtain ⟨result, -, hrest⟩ := except_bind_eq_ok_iff.mp h
      refine ih ?_ hrest
      cases result with
      | none => exact sorted
      | some x => exact sorted.put _ x

theorem Laid.overlaid (ordered : value.Ordered) (hbase : ∀ below, base = some below → below.Ordered)
    (laid : Laid path value base result) : Overlaid False (some value) base result := by
  induction ordered generalizing path base result with
  | null =>
      cases laid with
      | null => exact .kept (Or.inr rfl)
      | fresh hvalue | replaced hvalue => exact absurd rfl hvalue
  | bool | number | string | array =>
      cases laid with
      | fresh hvalue blank => exact .fresh hvalue blank
      | replaced hvalue _ htype plain => exact .replaced hvalue htype plain And.left
  | @object top sorted ordered ih =>
      cases laid with
      | fresh hvalue blank => exact .fresh hvalue blank
      | replaced _ _ _ plain => exact absurd rfl plain
      | @merged _ below fields h =>
          have hbelow := hbase _ rfl
          have hsorted : Entries.Sorted fields := by
            rw [layerFields_eq_layEach] at h
            exact sorted_layEach hbelow.sorted h
          refine .merged hsorted fun key => ?_
          rcases layerFields_at? sorted h key with ⟨hnone, hkept⟩ | ⟨value, hkey, laid⟩
          · rw [hnone, hkept]
            exact .kept (Or.inl rfl)
          · rw [hkey]
            exact ih _ (Entries.mem_of_at? hkey) (fun _ => hbelow.of_at?) laid

/-- Laying an override over a template makes of the two values under each key what they become. -/
theorem overlaid_of_layerSpec (ordered : (Json.object override).Ordered)
    (ordered' : (Json.object template).Ordered)
    (h : layerSpec root joined override template = .ok merged) (key : String) :
    Overlaid (key ∈ joined) (override.at? key) (template.at? key) (merged.at? key) := by
  rcases layerSpec_at? ordered.sorted h key with
    ⟨hnone, hkept⟩ | ⟨value, hkey, ⟨text, hjoins, hmerged⟩ | ⟨hjoins, laid⟩⟩
  · rw [hnone, hkept]
    exact .kept (Or.inl rfl)
  · obtain ⟨hmem, above, below, rfl, hbelow, rfl⟩ := hjoins
    rw [hkey, hbelow, hmerged]
    exact .joined hmem above below
  · rw [hkey]
    refine (laid.overlaid (ordered.of_at? hkey) fun _ => ordered'.of_at?).of_apart ?_
    rintro ⟨hmem, above, below, habove, hbelow⟩
    cases habove
    exact hjoins ⟨_, hmem, above, below, rfl, hbelow, rfl⟩

theorem ordered_of_layerSpec (ordered : (Json.object override).Ordered)
    (ordered' : (Json.object template).Ordered)
    (h : layerSpec root joined override template = .ok merged) : (Json.object merged).Ordered := by
  have hsorted : Entries.Sorted merged := by
    rw [layerSpec_eq_layEach] at h
    exact sorted_layEach ordered'.sorted h
  refine .object hsorted fun e he => ?_
  exact (overlaid_of_layerSpec ordered ordered' h e.1).ordered (fun _ => ordered.of_at?)
    (fun _ => ordered'.of_at?) e.2 (hsorted.at?_of_mem he)

theorem typeAt?_of_layerSpec (ordered : (Json.object override).Ordered)
    (ordered' : (Json.object template).Ordered)
    (h : layerSpec root joined override template = .ok merged) (path : List String) :
    Json.typeAt? (some (.object merged)) path =
      (Json.typeAt? (some (.object override)) path).or
        (Json.typeAt? (some (.object template)) path) := by
  cases path with
  | nil => rfl
  | cons key rest => exact (overlaid_of_layerSpec ordered ordered' h key).typeAt?_eq rest

end Layers

end SiteOperator
