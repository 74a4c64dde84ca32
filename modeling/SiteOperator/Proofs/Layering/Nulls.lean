import Mathlib.Tactic.ByContra
import SiteOperator.Proofs.Json.Pruned
import SiteOperator.Proofs.Layering.Overlaid

/-!
# Nulls in an override

A null in an override changes nothing where the template has an object that it could be a field of.
Where it has none, the object of the override that the null is in is taken over as a whole, and the
null with it (`Overlaid.at?_of_not_object`). So an override with nulls and the same one without them
lead to the same exactly if all nulls are in objects that the template has as well, or if a conflict
comes first, which nulls have no part in (`layerSpec_prunedFields_eq_iff`).
-/

namespace SiteOperator

namespace Json

variable {value : Json} {base : Option Json}

/-- Nulls take no part in conflicts of types. -/
theorem typeAt?_pruned (ordered : value.Ordered) (hvalue : value ≠ .null) (path : List String) :
    typeAt? (some value.pruned) path = typeAt? (some value) path := by
  rw [typeAt?, typeAt?, Option.bind_some, Option.bind_some, at?_pruned ordered hvalue]
  cases value.at? path with
  | none => rfl
  | some inner =>
      by_cases hinner : inner = .null
      · subst hinner
        rfl
      · rw [pruned?_some hinner, Option.map_some, Option.map_some, type_pruned]

theorem not_object_of_blank (blank : Blank base) (path : List String) (fields : Fields) :
    base.bind (·.at? path) ≠ some (.object fields) := by
  intro h
  have htype := typeAt?_eq_some_iff.mpr ⟨_, h, by simp, rfl⟩
  rw [typeAt?_of_blank blank] at htype
  cases htype

end Json

namespace Overlaid

variable {joins : Prop} {top base result result' : Option Json}

/-- An object of the override stays as it is where the template has no object. -/
theorem at?_of_not_object (h : Overlaid joins top base result) {path : List String}
    {fields : Fields}
    (htop : top.bind (·.at? path) = some (.object fields))
    (hbase : ∀ fields, base.bind (·.at? path) ≠ some (.object fields)) :
    result.bind (·.at? path) = some (.object fields) := by
  induction path generalizing joins top base result with
  | nil =>
      cases h with
      | kept blank => exact absurd htop (Json.not_object_of_blank blank _ _)
      | fresh => exact htop
      | joined => cases htop
      | replaced _ _ plain =>
          rw [Option.bind_some, Json.at?_nil, Option.some_inj] at htop
          exact absurd (htop ▸ rfl) plain
      | merged => exact absurd rfl (hbase _)
  | cons key rest ih =>
      cases h with
      | kept blank => exact absurd htop (Json.not_object_of_blank blank _ _)
      | fresh => exact htop
      | joined => cases htop
      | replaced _ _ plain =>
          rw [Option.bind_some, Json.at?_cons_of_ne_object plain] at htop
          cases htop
      | merged _ h => exact ih (h key) htop hbase

/-- If the template has all objects that nulls of the override are in, the nulls make no difference.
The induction is on the way in which the values meet: only objects that meet have nulls in them. -/
theorem eq_of_pruned (h : Overlaid joins top base result)
    (h' : Overlaid joins (Json.pruned? top) base result')
    (ordered : ∀ value, top = some value → value.Ordered)
    (covered : ∀ path key, top.bind (·.at? (path ++ [key])) = some .null →
      ∃ fields, base.bind (·.at? path) = some (.object fields)) : result' = result := by
  have unpruned {value : Json} (hvalue : value ≠ .null) (ordered : value.Ordered)
      (h : ∀ path key, value.at? (path ++ [key]) ≠ some .null) :
      Json.pruned? (some value) = some value := by
    rw [Json.pruned?_some hvalue, Json.pruned_eq_self ordered h]
  induction h generalizing result' with
  | kept blank =>
      refine h'.of_blank_top (Or.inl ?_)
      rcases blank with rfl | rfl <;> rfl
  | fresh hvalue blank =>
      rw [unpruned hvalue (ordered _ rfl)] at h'
      · exact h'.of_blank_base hvalue blank
      · intro path key hnull
        obtain ⟨fields, hfields⟩ := covered path key hnull
        exact Json.not_object_of_blank blank path fields hfields
  | joined hjoins above below => exact h'.unique (.joined hjoins above below)
  | replaced hvalue htype plain apart =>
      rw [Json.pruned?_some hvalue, Json.pruned_of_ne_object plain] at h'
      exact h'.unique (.replaced hvalue htype plain apart)
  | @merged _ top base fields sorted hfields ih =>
      have htop := ordered _ rfl
      rw [Json.pruned?_object] at h'
      obtain ⟨fields', rfl, sorted', hfields'⟩ := h'.of_objects
      refine congrArg (fun fields => some (Json.object fields)) (sorted'.ext sorted fun key => ?_)
      refine ih key ?_ (fun _ => htop.of_at?) fun path last => covered (key :: path) last
      rw [← Json.at?_prunedFields htop.sorted]
      exact hfields' key

end Overlaid

variable {root : String} {joined : List String} {override template merged : Fields}

/-- A conflict comes of the same values with nulls and without. -/
theorem layerSpec_prunedFields_error_iff {fault : Fault}
    (ordered : (Json.object override).Ordered) :
    layerSpec root joined (Json.prunedFields override) template = .error fault ↔
      layerSpec root joined override template = .error fault := by
  have same (path : List String) := Json.typeAt?_pruned ordered (by simp) path
  have ordered' := Json.ordered_pruned ordered
  rw [Json.pruned] at same ordered'
  exact ⟨layerSpec_error_of_typeAt?_eq ordered' ordered same,
    layerSpec_error_of_typeAt?_eq ordered ordered' fun path => (same path).symm⟩

/-- A null that the override has in an object where the template has none comes into the result. -/
theorem merged_at?_of_uncovered (ordered : (Json.object override).Ordered)
    (ordered' : (Json.object template).Ordered)
    (h : layerSpec root joined override template = .ok merged) {path : List String}
    {fields : Fields}
    (htop : (Json.object override).at? path = some (.object fields))
    (hbase : ∀ fields, (Json.object template).at? path ≠ some (.object fields)) :
    (Json.object merged).at? path = some (.object fields) := by
  cases path with
  | nil => exact absurd (Json.at?_nil _) (hbase _)
  | cons key rest =>
      exact (overlaid_of_layerSpec ordered ordered' h key).at?_of_not_object htop hbase

theorem exists_object_of_prunedFields_ok (ordered : (Json.object override).Ordered)
    (ordered' : (Json.object template).Ordered)
    (h : layerSpec root joined override template = .ok merged)
    (h' : layerSpec root joined (Json.prunedFields override) template = .ok merged)
    {path : List String} {key : String}
    (hnull : (Json.object override).at? (path ++ [key]) = some .null) :
    ∃ fields, (Json.object template).at? path = some (.object fields) := by
  by_contra hnone
  have hbase (fields : Fields) (h : (Json.object template).at? path = some (.object fields)) :=
    hnone ⟨fields, h⟩
  obtain ⟨fields, hpath, hkey⟩ := Json.exists_object_of_at?_append_singleton hnull
  have hpruned : (Json.object (Json.prunedFields override)).at? path =
      some (.object (Json.prunedFields fields)) := by
    rw [← Json.pruned, Json.at?_pruned ordered (by simp), hpath, Json.pruned?_object]
  have hmerged := merged_at?_of_uncovered ordered ordered' h hpath hbase
  rw [merged_at?_of_uncovered (Json.ordered_pruned ordered) ordered' h' hpruned hbase] at hmerged
  have hfields : Json.prunedFields fields = fields := by
    injection hmerged with hobject
    injection hobject
  have hat := Json.at?_prunedFields (ordered.of_path hpath).sorted key
  rw [hfields, hkey] at hat
  cases hat

theorem prunedFields_ok_of_covered (ordered : (Json.object override).Ordered)
    (ordered' : (Json.object template).Ordered)
    (h : layerSpec root joined override template = .ok merged)
    (covered : ∀ path key, (Json.object override).at? (path ++ [key]) = some .null →
      ∃ fields, (Json.object template).at? path = some (.object fields)) :
    layerSpec root joined (Json.prunedFields override) template = .ok merged := by
  have pruned := Json.ordered_pruned ordered
  cases h' : layerSpec root joined (Json.prunedFields override) template with
  | error fault =>
      rw [(layerSpec_prunedFields_error_iff ordered).mp h'] at h
      cases h
  | ok merged' =>
      refine congrArg Except.ok ((ordered_of_layerSpec pruned ordered' h').sorted.ext
        (ordered_of_layerSpec ordered ordered' h).sorted fun key => ?_)
      have hpruned := overlaid_of_layerSpec pruned ordered' h' key
      rw [Json.at?_prunedFields ordered.sorted] at hpruned
      exact (overlaid_of_layerSpec ordered ordered' h key).eq_of_pruned hpruned
        (fun _ => ordered.of_at?) fun path last => covered (key :: path) last

/-- An override with nulls and the same one without them lead to the same result or to the same
fault if and only if there is a conflict, or the template has an object wherever the override has an
object with a null in it. -/
theorem layerSpec_prunedFields_eq_iff (ordered : (Json.object override).Ordered)
    (ordered' : (Json.object template).Ordered) :
    layerSpec root joined (Json.prunedFields override) template =
        layerSpec root joined override template ↔
      (∃ fault, layerSpec root joined override template = .error fault) ∨
        ∀ path key, (Json.object override).at? (path ++ [key]) = some .null →
          ∃ fields, (Json.object template).at? path = some (.object fields) := by
  cases h : layerSpec root joined override template with
  | error fault =>
      refine iff_of_true ?_ (Or.inl ⟨fault, rfl⟩)
      exact (layerSpec_prunedFields_error_iff ordered).mpr h
  | ok merged =>
      constructor
      · intro h'
        exact Or.inr fun path key => exists_object_of_prunedFields_ok ordered ordered' h h'
      · rintro (⟨fault, hfault⟩ | covered)
        · cases hfault
        · exact prunedFields_ok_of_covered ordered ordered' h covered

/-- A null in an object that the template has as well is ignored. -/
theorem layerSpec_prunedFields_eq_of_common_object :
    ∃ merged, layerSpec "r" [] [("a", .object [("b", .null)]), ("c", .null)]
        [("a", .object [("b", .int 2)])] = .ok merged ∧
      layerSpec "r" [] (Json.prunedFields [("a", .object [("b", .null)]), ("c", .null)])
        [("a", .object [("b", .int 2)])] = .ok merged ∧
      ∀ path key, (Json.object [("a", .object [("b", .null)]), ("c", .null)]).at? (path ++ [key]) =
          some .null →
        ∃ fields, (Json.object [("a", .object [("b", .int 2)])]).at? path =
          some (.object fields) := by
  have ordered : (Json.object [("a", .object [("b", .null)]), ("c", .null)]).Ordered :=
    (Json.Ordered.empty.put "c" .null).put "a" (Json.Ordered.empty.put "b" .null)
  have ordered' : (Json.object [("a", .object [("b", .int 2)])]).Ordered :=
    Json.Ordered.empty.put "a" (Json.Ordered.empty.put "b" (.number _))
  obtain ⟨merged, h, h'⟩ : ∃ merged,
      layerSpec "r" [] [("a", .object [("b", .null)]), ("c", .null)]
          [("a", .object [("b", .int 2)])] = .ok merged ∧
        layerSpec "r" [] (Json.prunedFields [("a", .object [("b", .null)]), ("c", .null)])
          [("a", .object [("b", .int 2)])] = .ok merged := ⟨_, rfl, rfl⟩
  refine ⟨merged, h, h', ?_⟩
  rcases (layerSpec_prunedFields_eq_iff ordered ordered').mp (h'.trans h.symm) with
    ⟨fault, hfault⟩ | covered
  · rw [h] at hfault
    cases hfault
  · exact covered

/-- A null in an object that the template does not have is stored. -/
theorem layerSpec_stores_null :
    layerSpec "r" [] [("a", .object [("b", .null)])] [] ≠
        layerSpec "r" [] (Json.prunedFields [("a", .object [("b", .null)])]) [] ∧
      layerSpec "r" [] [("a", .object [("b", .null)])] [] =
        .ok [("a", .object [("b", .null)])] ∧
      layerSpec "r" [] (Json.prunedFields [("a", .object [("b", .null)])]) [] =
        .ok [("a", .object [])] := by
  refine ⟨fun heq => ?_, rfl, rfl⟩
  change Except.ok [("a", Json.object [("b", .null)])] = Except.ok [("a", Json.object [])] at heq
  cases heq

end SiteOperator
