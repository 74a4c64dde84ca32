import SiteOperator.Proofs.Layering.Conflicts

/-!
# Conflicts of types

Whether an override can be laid over a template, and with which fault it cannot, depends on nothing
but the types that the two have at each path (`Json.typeAt?`). A null counts as nothing here
(`Json.Blank`). A layer succeeds if and only if the types agree (`layerSpec_succeeds_iff_agree`),
and overrides of the same types fail with the same fault (`layerSpec_error_of_typeAt?_eq`).
-/

namespace SiteOperator

namespace Json

/-- There is no value, or null, which changes nothing and is replaced by everything. -/
def Blank (value : Option Json) : Prop := value = none ∨ value = some .null

variable {value : Json} {base : Option Json}

theorem not_blank_some (h : value ≠ .null) : ¬ Blank (some value) := by
  rintro (h' | h')
  · cases h'
  · exact h (Option.some.inj h')

theorem blank_or_exists (value : Option Json) :
    Blank value ∨ ∃ inner, value = some inner ∧ inner ≠ .null := by
  cases value with
  | none => exact Or.inl (Or.inl rfl)
  | some inner =>
      by_cases h : inner = .null
      · exact Or.inl (Or.inr (congrArg some h))
      · exact Or.inr ⟨inner, rfl, h⟩

def typeAt? (value : Option Json) (path : List String) : Option JsonType :=
  ((value.bind (·.at? path)).map Json.type).filter (· ≠ .null)

theorem type_ne_null (h : value ≠ .null) : value.type ≠ .null := by
  cases value with
  | null => exact absurd rfl h
  | bool | number | string | array | object => exact nofun

theorem typeAt?_nil (h : value ≠ .null) : typeAt? (some value) [] = some value.type := by
  simp [typeAt?, Option.filter, type_ne_null h]

theorem typeAt?_cons_of_ne_object (h : value.type ≠ .object) (key : String) (rest : List String) :
    typeAt? (some value) (key :: rest) = none := by
  simp [typeAt?, at?_cons_of_ne_object h]

theorem typeAt?_of_blank (h : Blank base) (path : List String) : typeAt? base path = none := by
  rcases h with rfl | rfl
  · rfl
  · cases path <;> rfl

theorem typeAt?_eq_some_iff {path : List String} {type : JsonType} :
    typeAt? base path = some type ↔
      ∃ inner, base.bind (·.at? path) = some inner ∧ inner ≠ .null ∧ inner.type = type := by
  constructor
  · intro h
    obtain ⟨htype, hnull⟩ := Option.filter_eq_some_iff.mp h
    obtain ⟨inner, hinner, rfl⟩ := Option.map_eq_some_iff.mp htype
    refine ⟨inner, hinner, ?_, rfl⟩
    rintro rfl
    simp [Json.type] at hnull
  · rintro ⟨inner, hinner, hnull, rfl⟩
    simp [typeAt?, hinner, Option.filter, type_ne_null hnull]

def Agree (top base : Option Json) : Prop :=
  ∀ path above below, typeAt? top path = some above → typeAt? base path = some below →
    above = below

theorem agree_comm {top base : Option Json} : Agree top base ↔ Agree base top :=
  ⟨fun agree path above below habove hbelow => (agree path below above hbelow habove).symm,
    fun agree path above below habove hbelow => (agree path below above hbelow habove).symm⟩

/-- If two values that agree with each other have between them the types of a third one, to agree
with this one is to agree with both. -/
theorem agree_or_iff {other top base merged : Option Json} (agree : Agree top base)
    (hmerged : ∀ path, typeAt? merged path = (typeAt? top path).or (typeAt? base path)) :
    Agree other merged ↔ Agree other top ∧ Agree other base := by
  constructor
  · refine fun h => ⟨fun path above below habove hbelow => ?_,
      fun path above below habove hbelow => ?_⟩
    · exact h path above below habove (by rw [hmerged, hbelow, Option.some_or])
    · refine h path above below habove ?_
      rw [hmerged]
      cases htop : typeAt? top path with
      | none => exact hbelow
      | some type => rw [agree path type below htop hbelow, Option.some_or]
  · rintro ⟨htop, hbase⟩ path above below habove hbelow
    rw [hmerged] at hbelow
    rcases Option.or_eq_some_iff.mp hbelow with hbelow | ⟨-, hbelow⟩
    · exact htop path above below habove hbelow
    · exact hbase path above below habove hbelow

theorem agree_iff_not_clashesAt :
    Agree (some value) base ↔ ∀ path above below, ¬ value.ClashesAt base path above below := by
  constructor
  · rintro agree path above below ⟨habove, hbelow, hnull, hnull', htype⟩
    exact htype (agree path above.type below.type
      (typeAt?_eq_some_iff.mpr ⟨above, habove, hnull, rfl⟩)
      (typeAt?_eq_some_iff.mpr ⟨below, hbelow, hnull', rfl⟩)).symm
  · intro none path type type' htype htype'
    obtain ⟨above, habove, hnull, rfl⟩ := typeAt?_eq_some_iff.mp htype
    obtain ⟨below, hbelow, hnull', rfl⟩ := typeAt?_eq_some_iff.mp htype'
    refine Decidable.by_contra fun hne => ?_
    exact none path above below ⟨habove, hbelow, hnull, hnull', Ne.symm hne⟩

section Same

variable {other above below : Json} {path : List String}
  (same : ∀ path, typeAt? (some value) path = typeAt? (some other) path)

include same

theorem ClashesAt.of_typeAt?_eq (clash : value.ClashesAt base path above below) :
    ∃ above', other.ClashesAt base path above' below ∧ above'.type = above.type := by
  obtain ⟨habove, hbelow, hnull, hnull', htype⟩ := clash
  have hsome : typeAt? (some other) path = some above.type :=
    same path ▸ typeAt?_eq_some_iff.mpr ⟨above, habove, hnull, rfl⟩
  obtain ⟨above', habove', hnotNull, heq⟩ := typeAt?_eq_some_iff.mp hsome
  exact ⟨above', ⟨habove', hbelow, hnotNull, hnull', heq ▸ htype⟩, heq⟩

theorem FirstClash.of_typeAt?_eq (first : value.FirstClash base path above below) :
    ∃ above', other.FirstClash base path above' below ∧ above'.type = above.type := by
  obtain ⟨above', clash, htype⟩ := first.clash.of_typeAt?_eq same
  refine ⟨above', ⟨clash, fun path' above₁ below₁ clash' => ?_⟩, htype⟩
  obtain ⟨above₂, clash₂, -⟩ := clash'.of_typeAt?_eq fun path => (same path).symm
  exact first.first path' above₂ below₁ clash₂

end Same

end Json

variable {root : String} {joined : List String} {override other template : Fields} {fault : Fault}

theorem layerSpec_succeeds_iff_agree (ordered : (Json.object override).Ordered) :
    (∃ merged, layerSpec root joined override template = .ok merged) ↔
      Json.Agree (some (.object override)) (some (.object template)) := by
  rw [layerSpec_succeeds_iff ordered, Json.agree_iff_not_clashesAt]
  rfl

theorem layerSpec_error_of_typeAt?_eq (ordered : (Json.object override).Ordered)
    (ordered' : (Json.object other).Ordered)
    (same : ∀ path, Json.typeAt? (some (.object override)) path =
      Json.typeAt? (some (.object other)) path)
    (h : layerSpec root joined override template = .error fault) :
    layerSpec root joined other template = .error fault := by
  obtain ⟨path, above, below, first, rfl⟩ := (layerSpec_error_iff ordered).mp h
  obtain ⟨above', first', htype⟩ := first.of_typeAt?_eq same
  exact (layerSpec_error_iff ordered').mpr ⟨path, above', below, first', by rw [htype]⟩

end SiteOperator
