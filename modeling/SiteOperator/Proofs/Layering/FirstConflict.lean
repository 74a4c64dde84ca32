import SiteOperator.Proofs.Layering.Conflicts
import SiteOperator.Proofs.TextOrder

/-!
# The conflict that a fault names

Of several conflicts between an override and a template, the fault names the one whose path comes
first when paths are compared key by key, and keys byte by byte (`layerSpec_names_first_conflict`).
-/

namespace SiteOperator

variable {root : String} {joined : List String} {override template : Fields}

/-- A path at which override and template conflict is that of the first conflict if the bytes of
every other one are greater. -/
theorem firstClash_iff {path : List String} {above below : Json} :
    (Json.object override).FirstClash (some (.object template)) path above below ↔
      ConflictsAt override template path above below ∧
        ∀ other above' below', ConflictsAt override template other above' below' →
          other = path ∨ pathBytes path < pathBytes other := by
  constructor
  · intro first
    refine ⟨first.clash, fun other above' below' conflict => ?_⟩
    rcases Std.lt_trichotomy other path with hlt | heq | hgt
    · exact absurd hlt (first.first other above' below' conflict)
    · exact Or.inl heq
    · exact Or.inr (pathBytes_lt_iff.mpr hgt)
  · rintro ⟨conflict, hleast⟩
    refine ⟨conflict, fun other above' below' conflict' hlt => ?_⟩
    rcases hleast other above' below' conflict' with rfl | hgt
    · exact List.lt_irrefl _ hlt
    · exact List.lt_asymm hlt (pathBytes_lt_iff.mp hgt)

/-- Conflicts are found and named exactly: an override cannot be laid over a template if and only if
there is a path at which both have values other than null of different types, and the fault names
the root and the path of the first such conflict, in the order of the bytes of the keys, with the
types of the two values at this path. -/
theorem layerSpec_names_first_conflict (ordered : (Json.object override).Ordered) :
    ((∃ fault, layerSpec root joined override template = .error fault) ↔
        ∃ path above below, ConflictsAt override template path above below) ∧
      ∀ fault, layerSpec root joined override template = .error fault ↔
        ∃ path above below, ConflictsAt override template path above below ∧
          (∀ other above' below', ConflictsAt override template other above' below' →
            other = path ∨ pathBytes path < pathBytes other) ∧
          fault = .typeMismatch (root :: path) below.type above.type := by
  constructor
  · constructor
    · rintro ⟨fault, h⟩
      obtain ⟨path, above, below, first, -⟩ := (layerSpec_error_iff ordered).mp h
      exact ⟨path, above, below, first.clash⟩
    · rintro ⟨path, above, below, conflict⟩
      cases h : layerSpec root joined override template with
      | ok merged => exact absurd conflict (not_conflictsAt_of_layerSpec ordered h _ _ _)
      | error fault => exact ⟨fault, rfl⟩
  · intro fault
    simp only [layerSpec_error_iff ordered, firstClash_iff, and_assoc]

def clashingOverride : Fields :=
  [("k", .object [("\uffff", .int 1), ("😀", .bool true)]), ("z", .string "o")]

def clashingTemplate : Fields :=
  [("k", .object [("\uffff", .string "t"), ("😀", .string "t")]), ("z", .int 1)]

/-- Of the two keys that clash in one object, the fault names the one whose bytes come first. It is
not the one that comes first in UTF-16. -/
theorem layerSpec_names_first_conflict_of_two_keys :
    (Json.object clashingOverride).Ordered ∧
      ConflictsAt clashingOverride clashingTemplate ["k", "😀"] (.bool true) (.string "t") ∧
      layerSpec "spec" ["z"] clashingOverride clashingTemplate =
        .error (.typeMismatch ["spec", "k", "\uffff"] .string .number) ∧
      ∀ other above below, ConflictsAt clashingOverride clashingTemplate other above below →
        other = ["k", "\uffff"] ∨ pathBytes ["k", "\uffff"] < pathBytes other := by
  have inner : (Json.object [("\uffff", .int 1), ("😀", .bool true)]).Ordered :=
    (Json.Ordered.empty.put "😀" (.bool true)).put "\uffff" (.number _)
  have ordered : (Json.object clashingOverride).Ordered :=
    (Json.Ordered.empty.put "z" (.string "o")).put "k" inner
  have hfault : layerSpec "spec" ["z"] clashingOverride clashingTemplate =
      .error (.typeMismatch ["spec", "k", "\uffff"] .string .number) := rfl
  obtain ⟨path, above, below, -, hleast, hpath⟩ :=
    ((layerSpec_names_first_conflict ordered).2 _).mp hfault
  obtain rfl : ["k", "\uffff"] = path := by
    injection hpath with hpath
    exact (List.cons.inj hpath).2
  exact ⟨ordered, ⟨rfl, rfl, nofun, nofun, nofun⟩, hfault, hleast⟩

end SiteOperator
