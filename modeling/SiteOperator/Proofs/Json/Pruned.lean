import SiteOperator.Proofs.Json.Path

/-!
# Values without nulls

A value is pruned by taking the nulls out of it and out of the objects inside of it, at every depth
but not inside of arrays (`Json.pruned`). At a path below it, the pruned value has what the value
has there, pruned, unless that is null (`Json.at?_pruned`). A value that has null at no path is the
same after it has been pruned (`Json.pruned_eq_self`).
-/

namespace SiteOperator

theorem Entries.at?_filter {α : Type} {m : Entries α} (sorted : Entries.Sorted m) (p : α → Bool)
    (key : String) : Entries.at? (m.filter fun e => p e.2) key = (m.at? key).filter p := by
  induction m with
  | nil => rfl
  | cons head rest ih =>
      obtain ⟨k, v⟩ := head
      have hrest := ih (List.pairwise_cons.mp sorted).2
      by_cases hkey : k = key
      · subst hkey
        have hnone := sorted.at?_eq_none_of_head
        cases hp : p v <;> simp [Entries.at?_cons, Option.filter, hp, hrest, hnone]
      · cases hp : p v <;> simp [Entries.at?_cons, hp, hrest, hkey]

namespace Json

mutual

/-- The value without the nulls in it and in the objects inside of it. -/
def pruned : Json → Json
  | object fields => object (prunedFields fields)
  | value => value

def prunedFields : List (String × Json) → List (String × Json)
  | [] => []
  | (key, value) :: rest =>
      if value.isNull then prunedFields rest else (key, value.pruned) :: prunedFields rest

end

def pruned? (value : Option Json) : Option Json :=
  (value.filter fun inner => !inner.isNull).map pruned

variable {fields : Fields} {value : Json}

theorem pruned?_some (h : value ≠ null) : pruned? (some value) = some value.pruned := by
  cases value with
  | null => exact absurd rfl h
  | bool | number | string | array | object => rfl

theorem pruned?_object (fields : Fields) :
    pruned? (some (object fields)) = some (object (prunedFields fields)) := rfl

theorem pruned_of_ne_object (h : value.type ≠ .object) : value.pruned = value := by
  cases value with
  | object => exact absurd rfl h
  | null | bool | number | string | array => rfl

theorem type_pruned (value : Json) : value.pruned.type = value.type := by
  cases value <;> rfl

theorem prunedFields_eq (fields : Fields) :
    prunedFields fields = Entries.mapValues pruned (fields.filter fun e => !e.2.isNull) := by
  induction fields with
  | nil => rfl
  | cons head rest ih =>
      obtain ⟨key, value⟩ := head
      rw [prunedFields, ih]
      cases hnull : value.isNull <;> simp [hnull, Entries.mapValues]

theorem sorted_prunedFields (sorted : Entries.Sorted fields) :
    Entries.Sorted (prunedFields fields) := by
  rw [prunedFields_eq, Entries.sorted_mapValues_iff]
  exact List.Pairwise.filter _ sorted

theorem at?_prunedFields (sorted : Entries.Sorted fields) (key : String) :
    Entries.at? (prunedFields fields) key = pruned? (fields.at? key) := by
  rw [prunedFields_eq, Entries.at?_mapValues, Entries.at?_filter sorted fun value => !value.isNull]
  rfl

theorem ordered_pruned (ordered : value.Ordered) : value.pruned.Ordered := by
  induction ordered with
  | null => exact .null
  | bool b => exact .bool b
  | number n => exact .number n
  | string text => exact .string text
  | array h => exact .array h
  | @object fields sorted _ ih =>
      rw [pruned]
      refine .object (sorted_prunedFields sorted) fun e he => ?_
      rw [prunedFields_eq] at he
      obtain ⟨e', he', rfl⟩ := List.mem_map.mp he
      exact ih e' (List.mem_filter.mp he').1

/-- The induction follows the path, which leads through objects only. -/
theorem at?_pruned (ordered : value.Ordered) (hvalue : value ≠ null) (path : List String) :
    value.pruned.at? path = pruned? (value.at? path) := by
  induction path generalizing value with
  | nil => rw [at?_nil, at?_nil, pruned?_some hvalue]
  | cons key rest ih =>
      by_cases plain : value.type = .object
      · obtain ⟨fields, rfl⟩ := exists_object_of_type plain
        rw [pruned, at?_object_cons, at?_object_cons, at?_prunedFields ordered.sorted]
        cases hkey : fields.at? key with
        | none => rfl
        | some inner =>
            by_cases hinner : inner = null
            · subst hinner
              cases rest <;> rfl
            · rw [pruned?_some hinner]
              exact ih (ordered.of_at? hkey) hinner
      · rw [pruned_of_ne_object plain, at?_cons_of_ne_object plain]
        rfl

theorem pruned_eq_self (ordered : value.Ordered)
    (h : ∀ path key, value.at? (path ++ [key]) ≠ some null) : value.pruned = value := by
  induction ordered with
  | null | bool | number | string | array => rfl
  | @object fields sorted ordered ih =>
      have hat (key : String) : pruned? (fields.at? key) = fields.at? key := by
        cases hkey : fields.at? key with
        | none => rfl
        | some inner =>
            have hinner : inner ≠ null := by
              rintro rfl
              exact h [] key (by rw [List.nil_append, at?_object_cons, hkey]; rfl)
            rw [pruned?_some hinner, ih _ (Entries.mem_of_at? hkey)]
            intro path last hnull
            refine h (key :: path) last ?_
            rw [List.cons_append, at?_object_cons, hkey]
            exact hnull
      rw [pruned]
      refine congrArg object ((sorted_prunedFields sorted).ext sorted fun key => ?_)
      rw [at?_prunedFields sorted, hat]

end Json

end SiteOperator
