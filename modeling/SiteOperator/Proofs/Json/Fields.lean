import SiteOperator.Json.Decode

/-!
# Reading the fields that were written

An object that was built from a list of fields has the last value that the list gives for a key
(`Entries.at?_ofList`), and a field that was written only if there is a value for it is read as that
value or as nothing (`Fields.optional_eq`).
-/

namespace SiteOperator

namespace Entries

variable {α : Type}

theorem at?_append (first rest : Entries α) (key : String) :
    at? (first ++ rest) key = (at? first key).or (at? rest key) := by
  induction first with
  | nil => simp
  | cons e first ih =>
      obtain ⟨k, v⟩ := e
      by_cases h : k = key <;> simp [at?_cons, h, ih]

theorem at?_ofList (es : List (String × α)) (key : String) :
    at? (ofList es) key = at? es.reverse key := by
  have hfold (m : Entries α) :
      at? (es.foldl (fun m e => put m e.1 e.2) m) key = (at? es.reverse key).or (at? m key) := by
    induction es generalizing m with
    | nil => simp
    | cons e es ih =>
        obtain ⟨k, v⟩ := e
        rw [List.foldl_cons, ih, List.reverse_cons, at?_append, Option.or_assoc, at?_put]
        by_cases h : key = k <;> simp [at?_cons, h, eq_comm]
  simpa [ofList] using hfold []

end Entries

namespace Json

theorem at?_fieldIf (key : String) (value : Option Json) (other : String) :
    Entries.at? (fieldIf key value) other = if key = other then value else none := by
  cases value <;> simp [fieldIf, Entries.at?_cons]

theorem mem_fieldIf_map {α : Type} {key : String} {x : Option α} {write : α → Json}
    {e : String × Json} :
    e ∈ fieldIf key (x.map write) ↔ ∃ a, x = some a ∧ e.1 = key ∧ e.2 = write a := by
  cases x <;> simp [fieldIf, Prod.ext_iff]

theorem reverse_fieldIf (key : String) (value : Option Json) :
    (fieldIf key value).reverse = fieldIf key value := by
  cases value <;> rfl

end Json

namespace Decoder

variable {α : Type}

@[simp] theorem nullable_null (read : Decoder α) : nullable read .null = some none := rfl

@[simp] theorem nullable_text_string (text : String) :
    nullable Decoder.text (.string text) = some (some text) := rfl

/-- A value that may be absent is read as it was written. -/
theorem nullable_getD_map {read : Decoder α} {write : α → Json} (value : Option α)
    (h : ∀ x, value = some x → read (write x) = some x) (hnull : ∀ x, write x ≠ .null) :
    nullable read ((value.map write).getD .null) = some value := by
  cases value with
  | none => rfl
  | some x =>
      have hsome : nullable read (write x) = (read (write x)).map some := by
        have hx := hnull x
        cases hw : write x with
        | null => exact absurd hw hx
        | bool | number | string | array | object => rfl
      simp [hsome, h x rfl]

theorem nullable_text (value : Option String) :
    nullable text ((value.map Json.string).getD .null) = some value :=
  nullable_getD_map value (fun _ _ => rfl) nofun

theorem nullable_flag (value : Option Bool) :
    nullable flag ((value.map Json.bool).getD .null) = some value :=
  nullable_getD_map value (fun _ _ => rfl) nofun

theorem nullable_fields (value : Option Fields) :
    nullable object ((value.map Json.object).getD .null) = some value :=
  nullable_getD_map value (fun _ _ => rfl) nofun

theorem list_map {read : Decoder α} {write : α → Json} (xs : List α)
    (h : ∀ x, read (write x) = some x) : list read (.array (xs.map write)) = some xs := by
  induction xs with
  | nil => rfl
  | cons x xs ih => simp_all [list]

theorem text_strings (texts : List String) : list text (.strings texts) = some texts :=
  list_map texts fun _ => rfl

theorem map_textMap (texts : Entries String) : map text (.textMap texts) = some texts := by
  induction texts with
  | nil => rfl
  | cons e texts ih => simp_all [map, Json.textMap, Entries.mapValues, text]

end Decoder

end SiteOperator
