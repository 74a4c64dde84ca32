import SiteOperator.Json.Reader
import SiteOperator.Proofs.Json.Merge
import SiteOperator.Proofs.Results
import SiteOperator.Resource.Template

/-!
# Paths into values

A path is a list of keys that leads through objects only (`Json.at?`). It can be followed key by key
because an object stands for the finite map of its fields, which are in order at every depth
(`Json.Ordered`). Values that are read from a text are in order (`Json.ordered_of_parse`), and so
are the spec blocks that are decoded from them (`SpecBlocks.ordered_of_decode`).
-/

namespace SiteOperator

namespace Json

/-- The value at a path of keys, which leads through objects only. -/
def at? : Json → List String → Option Json
  | value, [] => some value
  | object fields, key :: rest => (Entries.at? fields key).bind fun inner => inner.at? rest
  | _, _ :: _ => none

@[simp] theorem at?_nil (value : Json) : value.at? [] = some value := by
  cases value <;> rfl

@[simp] theorem at?_object_cons (fields : Fields) (key : String) (rest : List String) :
    (object fields).at? (key :: rest) = (fields.at? key).bind (·.at? rest) := rfl

theorem at?_cons_of_ne_object {value : Json} (h : value.type ≠ .object) (key : String)
    (rest : List String) : value.at? (key :: rest) = none := by
  cases value with
  | object => exact absurd rfl h
  | null | bool | number | string | array => rfl

theorem exists_object_of_type {value : Json} (h : value.type = .object) :
    ∃ fields : Fields, value = object fields := by
  cases value with
  | object fields => exact ⟨fields, rfl⟩
  | null | bool | number | string | array => cases h

theorem exists_string_of_type {value : Json} (h : value.type = .string) :
    ∃ text, value = string text := by
  cases value with
  | string text => exact ⟨text, rfl⟩
  | null | bool | number | array | object => cases h

theorem at?_append (value : Json) (path rest : List String) :
    value.at? (path ++ rest) = (value.at? path).bind (·.at? rest) := by
  induction path generalizing value with
  | nil => simp
  | cons key path ih =>
      by_cases plain : value.type = .object
      · obtain ⟨fields, rfl⟩ := exists_object_of_type plain
        rw [List.cons_append, at?_object_cons, at?_object_cons, Option.bind_assoc]
        exact Option.bind_congr fun inner _ => ih inner
      · rw [List.cons_append, at?_cons_of_ne_object plain, at?_cons_of_ne_object plain]
        rfl

/-- What stands at the end of a path is a field of an object. -/
theorem exists_object_of_at?_append_singleton {value inner : Json} {path : List String}
    {key : String} (h : value.at? (path ++ [key]) = some inner) :
    ∃ fields : Fields, value.at? path = some (object fields) ∧ fields.at? key = some inner := by
  rw [at?_append] at h
  obtain ⟨parent, hparent, hinner⟩ := Option.bind_eq_some_iff.mp h
  by_cases plain : parent.type = .object
  · obtain ⟨fields, rfl⟩ := exists_object_of_type plain
    rw [at?_object_cons] at hinner
    obtain ⟨_, hkey, hnil⟩ := Option.bind_eq_some_iff.mp hinner
    rw [at?_nil] at hnil
    exact ⟨fields, hparent, hkey.trans hnil⟩
  · rw [at?_cons_of_ne_object plain] at hinner
    cases hinner

/-- The fields of every object inside of a value are in order. -/
inductive Ordered : Json → Prop where
  | null : Ordered null
  | bool (b : Bool) : Ordered (bool b)
  | number (n : Number) : Ordered (number n)
  | string (s : String) : Ordered (string s)
  | array {items : List Json} (h : ∀ item ∈ items, Ordered item) : Ordered (array items)
  | object {fields : Fields} (sorted : Entries.Sorted fields) (h : ∀ e ∈ fields, Ordered e.2) :
      Ordered (object fields)

namespace Ordered

variable {fields : Fields} {key : String} {value : Json}

theorem empty : (Json.object []).Ordered := .object .nil (by simp)

theorem sorted (h : (Json.object fields).Ordered) : Entries.Sorted fields := by
  cases h with
  | object sorted => exact sorted

theorem of_at? (h : (Json.object fields).Ordered) (hat : fields.at? key = some value) :
    value.Ordered := by
  cases h with
  | object sorted h => exact h _ (Entries.mem_of_at? hat)

theorem of_path {inner : Json} (h : value.Ordered) {path : List String}
    (hat : value.at? path = some inner) : inner.Ordered := by
  induction path generalizing value with
  | nil =>
      rw [at?_nil] at hat
      exact Option.some.inj hat ▸ h
  | cons key rest ih =>
      by_cases plain : value.type = .object
      · obtain ⟨fields, rfl⟩ := exists_object_of_type plain
        rw [at?_object_cons] at hat
        obtain ⟨next, hnext, hat⟩ := Option.bind_eq_some_iff.mp hat
        exact ih (h.of_at? hnext) hat
      · rw [at?_cons_of_ne_object plain] at hat
        cases hat

theorem put (h : (Json.object fields).Ordered) (key : String) (hvalue : value.Ordered) :
    (Json.object (fields.put key value)).Ordered := by
  cases h with
  | object sorted h =>
      refine .object (sorted.put key value) fun e he => ?_
      rcases Entries.mem_put he with rfl | he
      · exact hvalue
      · exact h e he

end Ordered

end Json

namespace JsonText

theorem ordered_of_word {name : String} {value v : Json} {cs rest : List Char}
    (h : word name value cs = .ok (v, rest)) (ordered : value.Ordered) : v.Ordered := by
  unfold word at h
  split at h
  · cases h
    exact ordered
  · split at h <;> cases h

/-- What is read keeps the order: an array of values in order is in order, and so is an object to
which one field after the other has been added. -/
theorem ordered_of_read (fuel : Nat) :
    (∀ cs v rest, value fuel cs = .ok (v, rest) → v.Ordered) ∧
      (∀ taken cs v rest, (∀ item ∈ taken, Json.Ordered item) →
        items fuel taken cs = .ok (v, rest) → v.Ordered) ∧
      ∀ taken cs v rest, (Json.object taken).Ordered →
        fields fuel taken cs = .ok (v, rest) → v.Ordered := by
  induction fuel with
  | zero => exact ⟨nofun, nofun, nofun⟩
  | succ fuel ih =>
      obtain ⟨ihValue, ihItems, ihFields⟩ := ih
      refine ⟨?_, ?_, ?_⟩
      · intro cs v rest h
        unfold value at h
        split at h
        · split at h
          · cases h
            exact .empty
          · exact ihFields _ _ _ _ .empty h
        · split at h
          · cases h
            exact .array (by simp)
          · exact ihItems _ _ _ _ (by simp) h
        · obtain ⟨s, -, hs⟩ := except_map_eq_ok_iff.mp h
          cases hs
          exact .string _
        · exact ordered_of_word h .null
        · exact ordered_of_word h (.bool true)
        · exact ordered_of_word h (.bool false)
        · obtain ⟨n, -, hn⟩ := except_map_eq_ok_iff.mp h
          cases hn
          exact .number _
      · intro taken cs v rest ordered h
        unfold items at h
        split at h
        · cases h
        · rename_i item rest' hitem
          have htaken : ∀ other ∈ item :: taken, Json.Ordered other :=
            List.forall_mem_cons.mpr ⟨ihValue _ _ _ hitem, ordered⟩
          split at h
          · exact ihItems _ _ _ _ htaken h
          · cases h
            exact .array fun other hmem => htaken other (List.mem_reverse.mp hmem)
          · cases h
      · intro taken cs v rest ordered h
        unfold fields at h
        split at h
        · split at h
          · cases h
          · split at h
            · split at h
              · cases h
              · rename_i key _ _ _ _ _ _ item _ hitem
                have hput := ordered.put key (ihValue _ _ _ hitem)
                split at h
                · exact ihFields _ _ _ _ hput h
                · cases h
                  exact hput
                · cases h
            · cases h
        · cases h

end JsonText

theorem Json.ordered_of_parse {text : String} {value : Json} (h : Json.parse text = .ok value) :
    value.Ordered := by
  unfold Json.parse at h
  simp only [bind, Except.bind, pure, Except.pure] at h
  split at h
  · cases h
  · rename_i read hread
    split at h
    · cases h
      exact (JsonText.ordered_of_read _).1 _ _ _ hread
    · cases h

namespace SpecBlocks

/-- Every block is an object in order. -/
def Ordered (spec : SpecBlocks) : Prop :=
  ∀ kind fields, spec.blocks.get kind = some fields → (Json.object fields).Ordered

theorem ordered_of_optional {fields : Fields} {key : String} {block : Option Fields}
    (ordered : ∀ value, fields.at? key = some value → value.Ordered)
    (h : fields.optional key Decoder.object = some block) {found : Fields}
    (hfound : block = some found) : (Json.object found).Ordered := by
  subst hfound
  unfold Fields.optional at h
  cases hat : fields.at? key with
  | none =>
      rw [hat] at h
      cases h
  | some value =>
      have hvalue := ordered value hat
      rw [hat] at h
      cases value with
      | object fields =>
          cases h
          exact hvalue
      | null | bool | number | string | array => cases h

theorem ordered_of_record {names : List String} {value : Json} {fields : Fields} {key : String}
    (ordered : value.Ordered) (h : Decoder.record names value = some fields) :
    ∀ inner, fields.at? key = some inner → inner.Ordered := by
  intro inner hinner
  cases ordered with
  | object sorted hall =>
      cases h
      exact hall _ (Entries.mem_of_at? hinner)
  | array hall =>
      simp only [Decoder.record] at h
      split at h
      · cases h
        exact hall _ (List.of_mem_zip (Entries.mem_of_at? hinner)).2
      · cases h
  | null | bool | number | string => cases h

/-- The blocks that are decoded from a value in order are in order themselves. -/
theorem ordered_of_decode {value : Json} {spec : SpecBlocks} (ordered : value.Ordered)
    (h : decode value = some spec) : spec.Ordered := by
  obtain ⟨fields, hrecord, hfields⟩ := Option.bind_eq_some_iff.mp h
  have hat : ∀ key inner, fields.at? key = some inner → inner.Ordered :=
    fun _ => ordered_of_record ordered hrecord
  simp only [ofFields?, Option.bind_eq_bind, Option.bind_eq_some_iff] at hfields
  obtain ⟨moodle, hmoodle, postgres, hpostgres, keydb, hkeydb, nfs, hnfs, _, -, hspec⟩ := hfields
  cases hspec
  intro kind found hfound
  cases kind with
  | moodle => exact ordered_of_optional (hat _) hmoodle hfound
  | postgres => exact ordered_of_optional (hat _) hpostgres hfound
  | keydb => exact ordered_of_optional (hat _) hkeydb hfound
  | nfs => exact ordered_of_optional (hat _) hnfs hfound

end SpecBlocks

end SiteOperator
