import SiteOperator.Cluster.Store
import SiteOperator.Proofs.Json.Fields

/-!
# Maps in order and merged objects

Storing an entry keeps a map in order (`Entries.Sorted.put`), and in a map that is in order every
entry is found under its key. So the fields of a patch that is in order are all merged into the
object (`Json.at?_mergePatchFields_of_some`), and the other fields stay as they are. Up to the order
of its entries, such a map consists of what it has under a key and of the rest
(`Entries.Sorted.perm_of_at?`). Maps in order that have the same under every key are the same
(`Entries.Sorted.ext`), so a patch that names every field of an object replaces the object
(`Json.mergePatchFields_eq_self`).
-/

namespace SiteOperator

namespace Entries

variable {α : Type} {m : Entries α} {e : String × α} {key : String} {x : α}

theorem mem_put (h : e ∈ put m key x) : e = (key, x) ∨ e ∈ m := by
  induction m with
  | nil => exact Or.inl (List.mem_singleton.mp h)
  | cons head rest ih =>
      obtain ⟨k, v⟩ := head
      simp only [put] at h
      split at h
      · exact (List.mem_cons.mp h)
      · split at h
        · exact (List.mem_cons.mp h).imp_right (List.mem_cons_of_mem _)
        · rcases List.mem_cons.mp h with rfl | h
          · exact Or.inr List.mem_cons_self
          · exact (ih h).imp_right (List.mem_cons_of_mem _)

theorem mem_of_at? (h : m.at? key = some x) : (key, x) ∈ m := by
  induction m with
  | nil => cases h
  | cons head rest ih =>
      obtain ⟨k, v⟩ := head
      rw [at?_cons] at h
      by_cases hkey : k = key
      · rw [if_pos hkey] at h
        rw [hkey, Option.some.inj h]
        exact List.mem_cons_self
      · rw [if_neg hkey] at h
        exact List.mem_cons_of_mem _ (ih h)

theorem remove_eq_filter (m : Entries α) (key : String) :
    remove m key = m.filter fun e => e.1 ≠ key := by
  induction m with
  | nil => rfl
  | cons head rest ih =>
      obtain ⟨k, v⟩ := head
      by_cases hkey : k = key <;> simp [remove, hkey, ih]

theorem remove_put (m : Entries α) (key : String) (x : α) :
    (m.put key x).remove key = m.remove key := by
  induction m with
  | nil => simp [put, remove]
  | cons head rest ih =>
      obtain ⟨k, v⟩ := head
      simp only [put]
      split
      · simp [remove]
      · split
        · simp [remove, *]
        · simp [remove, ih]

theorem remove_of_at?_eq_none (h : m.at? key = none) : m.remove key = m := by
  induction m with
  | nil => rfl
  | cons head rest ih =>
      obtain ⟨k, v⟩ := head
      rw [at?_cons] at h
      by_cases hkey : k = key
      · rw [if_pos hkey] at h
        cases h
      · rw [if_neg hkey] at h
        rw [remove, if_neg hkey, ih h]

namespace Sorted

theorem nil : Sorted ([] : Entries α) := List.Pairwise.nil

theorem put (h : Sorted m) (key : String) (x : α) : Sorted (m.put key x) := by
  induction m with
  | nil => exact List.pairwise_singleton _ _
  | cons head rest ih =>
      obtain ⟨k, v⟩ := head
      obtain ⟨hhead, hrest⟩ := List.pairwise_cons.mp h
      simp only [Entries.put]
      by_cases hbefore : key < k
      · rw [if_pos hbefore]
        refine List.pairwise_cons.mpr ⟨fun e he => ?_, h⟩
        rcases List.mem_cons.mp he with rfl | he
        · exact hbefore
        · exact String.lt_trans hbefore (hhead e he)
      · rw [if_neg hbefore]
        by_cases heq : key = k
        · rw [if_pos heq]
          exact List.pairwise_cons.mpr ⟨heq ▸ hhead, hrest⟩
        · rw [if_neg heq]
          refine List.pairwise_cons.mpr ⟨fun e he => ?_, ih hrest⟩
          rcases mem_put he with rfl | he
          · exact Std.lt_of_le_of_ne (String.not_lt.mp hbefore) (Ne.symm heq)
          · exact hhead e he

theorem ofList (es : List (String × α)) : Sorted (ofList es) := by
  have hfold (m : Entries α) (h : Sorted m) :
      Sorted (es.foldl (fun m e => Entries.put m e.1 e.2) m) := by
    induction es generalizing m with
    | nil => exact h
    | cons e es ih => exact ih _ (h.put e.1 e.2)
  exact hfold [] nil

theorem at?_eq_none_of_head {k : String} {v : α} {rest : Entries α}
    (h : Sorted ((k, v) :: rest)) : at? rest k = none := by
  have hhead := (List.pairwise_cons.mp h).1
  clear h
  induction rest with
  | nil => rfl
  | cons e rest ih =>
      obtain ⟨k', v'⟩ := e
      have hne : ¬ k' = k := fun heq =>
        String.lt_irrefl k (heq ▸ hhead (k', v') List.mem_cons_self)
      rw [at?_cons, if_neg hne]
      exact ih fun e he => hhead e (List.mem_cons_of_mem _ he)

theorem at?_of_mem (h : Sorted m) (hmem : (key, x) ∈ m) : m.at? key = some x := by
  induction m with
  | nil => cases hmem
  | cons head rest ih =>
      obtain ⟨k, v⟩ := head
      rw [at?_cons]
      rcases List.mem_cons.mp hmem with heq | hmem
      · cases heq
        exact if_pos rfl
      · have hne : ¬ k = key := fun heq =>
          String.lt_irrefl key (heq ▸ (List.pairwise_cons.mp h).1 (key, x) hmem)
        rw [if_neg hne]
        exact ih (List.pairwise_cons.mp h).2 hmem

theorem remove (h : Sorted m) (key : String) : Sorted (m.remove key) := by
  rw [remove_eq_filter]
  exact List.Pairwise.filter _ h

theorem nodup_keys (h : Sorted m) : m.keys.Nodup :=
  List.pairwise_map.mpr (List.Pairwise.imp Std.ne_of_lt h)

/-- A map consists of what it has under a key and of the rest. -/
theorem perm_of_at? (h : Sorted m) (hx : m.at? key = some x) :
    m.Perm ((key, x) :: m.remove key) := by
  induction m with
  | nil => cases hx
  | cons head rest ih =>
      obtain ⟨k, v⟩ := head
      rw [at?_cons] at hx
      by_cases hkey : k = key
      · subst hkey
        rw [if_pos rfl] at hx
        cases hx
        rw [Entries.remove, if_pos rfl, remove_of_at?_eq_none h.at?_eq_none_of_head]
      · rw [if_neg hkey] at hx
        rw [Entries.remove, if_neg hkey]
        exact ((ih (List.pairwise_cons.mp h).2 hx).cons _).trans (List.Perm.swap _ _ _)

theorem put_perm (h : Sorted m) (key : String) (x : α) :
    (m.put key x).Perm ((key, x) :: m.remove key) := by
  have hperm := (h.put key x).perm_of_at? (at?_put_self m key x)
  rwa [remove_put] at hperm

theorem mem_iff (h : Sorted m) : e ∈ m ↔ m.at? e.1 = some e.2 := ⟨h.at?_of_mem, mem_of_at?⟩

/-- Two maps that are in order and have the same under every key are the same. -/
theorem ext {n : Entries α} (hm : Sorted m) (hn : Sorted n)
    (h : ∀ key, m.at? key = n.at? key) : m = n := by
  have nodup {m : Entries α} (hm : Sorted m) : m.Nodup :=
    List.Pairwise.imp (fun hlt heq => Std.ne_of_lt hlt (congrArg Prod.fst heq)) hm
  have hperm : m.Perm n := by
    refine (List.perm_ext_iff_of_nodup (nodup hm) (nodup hn)).mpr fun e => ?_
    rw [hm.mem_iff, hn.mem_iff, h]
  exact hperm.eq_of_pairwise (fun _ _ _ _ hab hba => absurd hba (String.lt_asymm hab)) hm hn

end Sorted

theorem at?_mapValues {β : Type} (f : α → β) (m : Entries α) (key : String) :
    (m.mapValues f).at? key = (m.at? key).map f := by
  induction m with
  | nil => rfl
  | cons head rest ih =>
      obtain ⟨k, v⟩ := head
      have hmap : mapValues f ((k, v) :: rest) = (k, f v) :: mapValues f rest := rfl
      rw [hmap, at?_cons, at?_cons, ih]
      split <;> rfl

theorem sorted_mapValues_iff {β : Type} {f : α → β} : Sorted (m.mapValues f) ↔ Sorted m :=
  List.pairwise_map

end Entries

namespace Json

variable {patch target : Fields} {key : String} {value : Json}

theorem field_textMap (texts : Entries String) (key : String) :
    (textMap texts).field key = ((texts.at? key).map string).getD .null := by
  rw [field, textMap, fields?, Option.bind_some, Entries.at?_mapValues]

theorem at?_mergeField (target : Fields) (k : String) (v : Json) {key : String} (h : k ≠ key) :
    Entries.at? (if v.isNull then target.remove k
      else target.put k (mergePatch v ((target.at? k).getD .null))) key = target.at? key := by
  have hne : ¬ key = k := fun heq => h heq.symm
  split
  · rw [Entries.at?_remove, if_neg hne]
  · rw [Entries.at?_put, if_neg hne]

/-- A field that a patch does not have stays as it is. -/
theorem at?_mergePatchFields_of_none (h : patch.at? key = none) :
    Entries.at? (mergePatchFields patch target) key = target.at? key := by
  induction patch generalizing target with
  | nil => rfl
  | cons head rest ih =>
      obtain ⟨k, v⟩ := head
      rw [Entries.at?_cons] at h
      by_cases hkey : k = key
      · rw [if_pos hkey] at h
        cases h
      · rw [if_neg hkey] at h
        rw [mergePatchFields, ih h, at?_mergeField target k v hkey]

/-- A field of a patch is merged into what was there. -/
theorem at?_mergePatchFields_of_some (sorted : Entries.Sorted patch)
    (h : patch.at? key = some value) (hnull : value.isNull = false) :
    Entries.at? (mergePatchFields patch target) key =
      some (value.mergePatch ((target.at? key).getD .null)) := by
  induction patch generalizing target with
  | nil => cases h
  | cons head rest ih =>
      obtain ⟨k, v⟩ := head
      rw [Entries.at?_cons] at h
      by_cases hkey : k = key
      · subst hkey
        obtain rfl : v = value := by simpa using h
        rw [mergePatchFields, at?_mergePatchFields_of_none sorted.at?_eq_none_of_head]
        simp [hnull]
      · rw [if_neg hkey] at h
        rw [mergePatchFields, ih (List.pairwise_cons.mp sorted).2 h, at?_mergeField _ _ _ hkey]

theorem sorted_mergePatchFields (patch : Fields) (h : Entries.Sorted target) :
    Entries.Sorted (mergePatchFields patch target) := by
  induction patch generalizing target with
  | nil => exact h
  | cons head rest ih =>
      obtain ⟨k, v⟩ := head
      rw [mergePatchFields]
      refine ih ?_
      split
      · exact h.remove k
      · exact h.put k _

/-- A patch that has all fields of the object that it is merged into, and in each of them a value
that takes the place of what was there, takes the place of the object. -/
theorem mergePatchFields_eq_self (sorted : Entries.Sorted patch) (sorted' : Entries.Sorted target)
    (covers : ∀ key, patch.at? key = none → target.at? key = none)
    (replaces : ∀ key value, patch.at? key = some value →
      value.isNull = false ∧ ∀ other, value.mergePatch other = value) :
    mergePatchFields patch target = patch := by
  refine (sorted_mergePatchFields patch sorted').ext sorted fun key => ?_
  cases hat : patch.at? key with
  | none => rw [at?_mergePatchFields_of_none hat, covers key hat]
  | some value =>
      obtain ⟨hnull, hmerge⟩ := replaces key value hat
      rw [at?_mergePatchFields_of_some sorted hat hnull, hmerge]

/-- Merging an object leads to an object. -/
theorem mergePatch_object (patch : Fields) (target : Json) :
    (object patch).mergePatch target =
      object (mergePatchFields patch (target.fields?.getD [])) := by
  rw [mergePatch]

end Json

theorem Decoder.at?_of_map {α : Type} {read : Decoder α} {fields : Fields} {m : Entries α}
    (h : Decoder.map read (.object fields) = some m) (key : String) :
    m.at? key = (fields.at? key).bind read := by
  change fields.mapM (fun e => (read e.2).map fun y => (e.1, y)) = some m at h
  induction fields generalizing m with
  | nil =>
      cases h
      rfl
  | cons head rest ih =>
      obtain ⟨k, v⟩ := head
      rw [List.mapM_cons] at h
      obtain ⟨e, he, htail⟩ := Option.bind_eq_some_iff.mp h
      obtain ⟨m', hrest, heq⟩ := Option.bind_eq_some_iff.mp htail
      obtain ⟨y, hy, rfl⟩ := Option.map_eq_some_iff.mp he
      cases heq
      rw [Entries.at?_cons, Entries.at?_cons, ih hrest]
      split
      · exact hy.symm
      · rfl

end SiteOperator
