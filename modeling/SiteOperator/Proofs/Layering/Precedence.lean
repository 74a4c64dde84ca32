import SiteOperator.Proofs.Layering.Fields

/-!
# Precedence of overrides

After an override has been laid over a template, a path leads to the value of the override if it has
one there that is neither null nor an object, to the value of the template if the override has none
but null, and to nothing if neither has one (`Precedence`). This holds at every depth
(`Laid.precedence`), and the only exception is a text of the outermost object that is joined
(`layerSpec_precedence`).
-/

namespace SiteOperator

/-- What has been merged out of a value of the override and one of the template, where each may be
missing. -/
structure Precedence (above below merged : Option Json) : Prop where
  overrides : ∀ value, above = some value → value ≠ .null → value.type ≠ .object →
    merged = some value
  keeps : ∀ value, below = some value → (∀ other, above = some other → other = .null) →
    merged = some value
  only : merged ≠ none → below ≠ none ∨ above ≠ none

namespace Precedence

variable {above below : Option Json}

theorem of_below (h : ∀ value, above = some value → value = .null) :
    Precedence above below below where
  overrides value hvalue hnull := absurd (h value hvalue) hnull
  keeps _ hbelow _ := hbelow
  only := Or.inl

theorem of_above (h : ∀ value, below = some value → ∃ other, above = some other ∧ other ≠ .null) :
    Precedence above below above where
  overrides _ hvalue _ _ := hvalue
  keeps value hbelow hnull := by
    obtain ⟨other, hother, hne⟩ := h value hbelow
    exact absurd (hnull other hother) hne
  only := Or.inr

theorem of_objects (top base merged : Fields) :
    Precedence (some (.object top)) (some (.object base)) (some (.object merged)) where
  overrides _ hvalue _ plain := absurd (Option.some.inj hvalue ▸ rfl) plain
  keeps _ _ hnull := absurd (hnull _ rfl) nofun
  only _ := Or.inr nofun

end Precedence

/-- Below a value that is no object there is nothing. -/
theorem Json.bind_at?_cons_eq_none {base : Option Json}
    (h : ∀ value, base = some value → value.type ≠ .object) (key : String) (rest : List String) :
    base.bind (·.at? (key :: rest)) = none := by
  cases base with
  | none => rfl
  | some value => exact Json.at?_cons_of_ne_object (h value rfl) key rest

theorem layerFields_at? {path : List String} {top fields merged : Fields}
    (sorted : Entries.Sorted top) (h : layerFields path top fields = .ok merged) (key : String) :
    top.at? key = none ∧ merged.at? key = fields.at? key ∨
      ∃ value, top.at? key = some value ∧
        Laid (path ++ [key]) value (fields.at? key) (merged.at? key) := by
  cases hkey : top.at? key with
  | none => exact Or.inl ⟨rfl, layerFields_ok_of_none h hkey⟩
  | some value => exact Or.inr ⟨value, rfl, layer_ok (layerFields_ok sorted h hkey)⟩

/-- The induction follows the path: it either leaves the override's value, below which everything is
as in the template, or leads on into the fields that have been merged. -/
theorem Laid.precedence {path : List String} {value : Json} {base result : Option Json}
    (ordered : value.Ordered) (laid : Laid path value base result) (inner : List String) :
    Precedence (value.at? inner) (base.bind (·.at? inner)) (result.bind (·.at? inner)) := by
  induction inner generalizing path value base result with
  | nil =>
      cases laid with
      | null => exact .of_below fun _ h => (Option.some.inj h).symm
      | fresh hvalue | replaced hvalue => exact .of_above fun _ _ => ⟨value, rfl, hvalue⟩
      | merged => exact .of_objects _ _ _
  | cons key rest ih =>
      cases laid with
      | null => exact .of_below nofun
      | fresh _ hbase =>
          have hplain : ∀ below, base = some below → below.type ≠ .object := by
            rintro below rfl
            rcases hbase with hbase | hbase
            · cases hbase
            · cases hbase
              exact nofun
          rw [Json.bind_at?_cons_eq_none hplain]
          exact .of_above nofun
      | replaced _ _ htype plain =>
          have hplain := fun hobject => plain (htype.symm.trans hobject)
          rw [Option.bind_some, Json.at?_cons_of_ne_object hplain]
          exact .of_above nofun
      | @merged top fields merged h =>
          simp only [Json.at?_object_cons, Option.bind_some]
          rcases layerFields_at? ordered.sorted h key with ⟨hnone, hmerged⟩ | ⟨inner, hinner, laid⟩
          · rw [hnone, hmerged]
            exact .of_below nofun
          · rw [hinner]
            exact ih (ordered.of_at? hinner) laid

theorem layerSpec_at? {root : String} {joined : List String} {override template merged : Fields}
    (sorted : Entries.Sorted override) (h : layerSpec root joined override template = .ok merged)
    (key : String) :
    (override.at? key = none ∧ merged.at? key = template.at? key) ∨
      ∃ value, override.at? key = some value ∧
        ((∃ text, Joins joined key value (template.at? key) text ∧
            merged.at? key = some (.string text)) ∨
          (¬ ∃ text, Joins joined key value (template.at? key) text) ∧
            Laid [root, key] value (template.at? key) (merged.at? key)) := by
  cases hkey : override.at? key with
  | none => exact Or.inl ⟨rfl, layerSpec_ok_of_none h hkey⟩
  | some value =>
      have hentry := layerSpec_ok sorted h hkey
      refine Or.inr ⟨value, rfl, ?_⟩
      by_cases hjoins : ∃ text, Joins joined key value (template.at? key) text
      · obtain ⟨text, hjoins⟩ := hjoins
        rw [layerEntry_of_joins hjoins] at hentry
        exact Or.inl ⟨text, hjoins, (Except.ok.inj hentry).symm⟩
      · rw [layerEntry_of_not_joins hjoins] at hentry
        exact Or.inr ⟨hjoins, layer_ok hentry⟩

theorem layerSpec_joins_or_precedence {root : String} {joined : List String}
    {override template merged : Fields} (ordered : (Json.object override).Ordered)
    (h : layerSpec root joined override template = .ok merged) (key : String)
    (rest : List String) :
    (rest = [] ∧ ∃ value text, override.at? key = some value ∧
        Joins joined key value (template.at? key) text ∧
        merged.at? key = some (.string text)) ∨
      (rest = [] → ∀ value text, override.at? key = some value →
          ¬ Joins joined key value (template.at? key) text) ∧
        Precedence ((Json.object override).at? (key :: rest))
          ((Json.object template).at? (key :: rest)) ((Json.object merged).at? (key :: rest)) := by
  simp only [Json.at?_object_cons]
  rcases layerSpec_at? ordered.sorted h key with
    ⟨hnone, hmerged⟩ | ⟨value, hvalue, ⟨text, hjoins, hmerged⟩ | ⟨hjoins, laid⟩⟩
  · rw [hnone, hmerged]
    exact Or.inr ⟨nofun, .of_below nofun⟩
  · cases rest with
    | nil => exact Or.inl ⟨rfl, value, text, hvalue, hjoins, hmerged⟩
    | cons inner rest =>
        obtain ⟨-, above, below, rfl, hbelow, rfl⟩ := hjoins
        rw [hvalue, hbelow, hmerged]
        exact Or.inr ⟨nofun, .of_below nofun⟩
  · rw [hvalue]
    refine Or.inr ⟨?_, laid.precedence (ordered.of_at? hvalue) rest⟩
    intro _ other text hother joins
    cases hother
    exact hjoins ⟨text, joins⟩

theorem Joins.text_eq {joined : List String} {key : String} {value : Json} {base : Option Json}
    {text other : String} (h : Joins joined key value base text)
    (h' : Joins joined key value base other) : text = other := by
  obtain ⟨-, above, below, rfl, rfl, rfl⟩ := h
  obtain ⟨-, above', below', habove, hbelow, rfl⟩ := h'
  cases habove
  cases hbelow
  rfl

/-- The precedence of an override that has been laid over a template, at every path below the
outermost object: a value of the override that is neither null nor an object stands where it stood,
with the template's text below it if their texts are joined; where the override has nothing or null,
the value of the template stays as it was; and nothing else comes in. -/
theorem layerSpec_precedence {root : String} {joined : List String}
    {override template merged : Fields} (ordered : (Json.object override).Ordered)
    (h : layerSpec root joined override template = .ok merged) {path : List String}
    (below : path ≠ []) :
    (∀ value, (Json.object override).at? path = some value → value ≠ .null →
      value.type ≠ .object →
        (∀ key text, path = [key] →
            Joins joined key value ((Json.object template).at? path) text →
          (Json.object merged).at? path = some (.string text)) ∧
        ((¬ ∃ key text, path = [key] ∧
            Joins joined key value ((Json.object template).at? path) text) →
          (Json.object merged).at? path = some value)) ∧
      (∀ value, (Json.object template).at? path = some value →
        (∀ other, (Json.object override).at? path = some other → other = .null) →
          (Json.object merged).at? path = some value) ∧
      ((Json.object merged).at? path ≠ none →
        (Json.object template).at? path ≠ none ∨ (Json.object override).at? path ≠ none) := by
  obtain ⟨key, rest, rfl⟩ := List.exists_cons_of_ne_nil below
  have hsingle (fields : Fields) (key : String) :
      (Json.object fields).at? [key] = fields.at? key := by
    rw [Json.at?_object_cons]
    exact Option.bind_fun_some _
  rcases layerSpec_joins_or_precedence ordered h key rest with
    ⟨rfl, value, text, hvalue, hjoins, hmerged⟩ | ⟨hnone, precedence⟩
  · simp only [hsingle]
    obtain ⟨-, above, below, rfl, -, -⟩ := id hjoins
    refine ⟨?_, ?_, ?_⟩
    · intro other hother _ _
      obtain rfl := Option.some.inj (hvalue.symm.trans hother)
      refine ⟨?_, fun hno => absurd ⟨key, text, rfl, hjoins⟩ hno⟩
      intro _ other hpath joins
      cases hpath
      rw [hmerged, hjoins.text_eq joins]
    · intro _ _ hnull
      exact absurd (hnull _ hvalue) (by simp)
    · intro _
      exact Or.inr (by simp [hvalue])
  · refine ⟨?_, precedence.keeps, precedence.only⟩
    intro value hvalue hnull plain
    refine ⟨?_, fun _ => precedence.overrides value hvalue hnull plain⟩
    intro _ text hpath joins
    cases hpath
    rw [hsingle] at hvalue joins
    exact absurd joins (hnone rfl value text hvalue)

/-- A number of the override takes the place of the template's, another number beside it stays, and
the notes of the two are joined. -/
theorem layerSpec_precedence_of_notes :
    ∃ merged, layerSpec "spec" ["notes"]
        [("a", .object [("b", .int 10)]), ("notes", .string "o")]
        [("a", .object [("b", .int 1), ("c", .int 2)]), ("notes", .string "t")] = .ok merged ∧
      (Json.object merged).at? ["a", "b"] = some (.int 10) ∧
      (Json.object merged).at? ["a", "c"] = some (.int 2) ∧
      (Json.object merged).at? ["notes"] = some (.string "o\nt") := by
  have ordered : (Json.object [("a", .object [("b", .int 10)]), ("notes", .string "o")]).Ordered :=
    (Json.Ordered.empty.put "notes" (.string "o")).put "a" (Json.Ordered.empty.put "b" (.number _))
  obtain ⟨merged, h⟩ : ∃ merged, layerSpec "spec" ["notes"]
      [("a", .object [("b", .int 10)]), ("notes", .string "o")]
      [("a", .object [("b", .int 1), ("c", .int 2)]), ("notes", .string "t")] = .ok merged :=
    ⟨_, rfl⟩
  obtain ⟨hnumber, -⟩ := layerSpec_precedence ordered h (show ["a", "b"] ≠ [] from nofun)
  obtain ⟨-, hbeside, -⟩ := layerSpec_precedence ordered h (show ["a", "c"] ≠ [] from nofun)
  obtain ⟨hnotes, -⟩ := layerSpec_precedence ordered h (show ["notes"] ≠ [] from nofun)
  refine ⟨merged, h, ?_, ?_, ?_⟩
  · exact (hnumber (.int 10) rfl nofun nofun).2 fun ⟨_, _, hpath, _⟩ => nomatch hpath
  · exact hbeside (.int 2) rfl nofun
  · exact (hnotes (.string "o") rfl nofun nofun).1 "notes" "o\nt" rfl
      ⟨List.mem_cons_self, "o", "t", rfl, rfl, rfl⟩

end SiteOperator
