import SiteOperator.Proofs.Layering.Precedence

/-!
# Conflicts between an override and a template

An override can be laid over a template if and only if there is no path at which both have a value
other than null, of different types (`layerSpec_succeeds_iff`). Whether the fields of the outermost
object are joined does not matter. The fault of a layer that fails names the first of these paths,
with the two types (`layerSpec_error_iff`): the keys of the override are tried in their order, and
all that comes before the path of the fault has been laid.
-/

namespace SiteOperator

def Json.ClashesAt (value : Json) (base : Option Json) (path : List String) (above below : Json) :
    Prop :=
  value.at? path = some above ∧ base.bind (·.at? path) = some below ∧ above.Clashes below

variable {root : String} {joined path : List String} {override template merged : Fields}
  {value : Json} {base result : Option Json} {fault : Fault}

theorem Json.ClashesAt.cons {top fields : Fields} {key : String} {above below : Json}
    (hkey : top.at? key = some value)
    (clash : value.ClashesAt (fields.at? key) path above below) :
    (Json.object top).ClashesAt (some (.object fields)) (key :: path) above below := by
  obtain ⟨habove, hbelow, hclash⟩ := clash
  refine ⟨?_, hbelow, hclash⟩
  rw [Json.at?_object_cons, hkey]
  exact habove

/-- Objects clash below one of their fields. -/
theorem Json.ClashesAt.exists_cons {top fields : Fields} {above below : Json}
    (clash : (Json.object top).ClashesAt (some (.object fields)) path above below) :
    ∃ key rest value, path = key :: rest ∧ top.at? key = some value ∧
      value.ClashesAt (fields.at? key) rest above below := by
  obtain ⟨habove, hbelow, hclash⟩ := clash
  cases path with
  | nil =>
      cases habove
      cases hbelow
      exact absurd rfl hclash.2.2
  | cons key rest =>
      rw [Json.at?_object_cons] at habove
      obtain ⟨value, hvalue, habove⟩ := Option.bind_eq_some_iff.mp habove
      exact ⟨key, rest, value, rfl, hvalue, habove, hbelow, hclash⟩

theorem Laid.not_clashesAt (ordered : value.Ordered) (laid : Laid path value base result)
    (inner : List String) (above below : Json) : ¬ value.ClashesAt base inner above below := by
  induction inner generalizing path value base result with
  | nil =>
      rintro ⟨habove, hbelow, hclash⟩
      rw [Json.at?_nil, Option.some_inj] at habove
      obtain ⟨other, hbase, hother⟩ := Option.bind_eq_some_iff.mp hbelow
      rw [Json.at?_nil, Option.some_inj] at hother
      exact laid.not_clashes hbase (habove ▸ hother ▸ hclash)
  | cons key rest ih =>
      intro clash
      have ⟨habove, hbelow, _⟩ := clash
      cases laid with
      | null => cases habove
      | fresh _ hbase =>
          rcases hbase with rfl | rfl
          · cases hbelow
          · cases hbelow
      | replaced _ _ _ plain =>
          rw [Json.at?_cons_of_ne_object plain] at habove
          cases habove
      | merged h =>
          obtain ⟨_, _, inner, hpath, hinner, clash⟩ := clash.exists_cons
          cases hpath
          rcases layerFields_at? ordered.sorted h key with ⟨hnone, -⟩ | ⟨_, hkey, laid⟩
          · rw [hnone] at hinner
            cases hinner
          · obtain rfl := Option.some.inj (hkey.symm.trans hinner)
            exact ih (ordered.of_at? hinner) laid clash

/-- Two values clash at a path and at none that comes before it. -/
structure Json.FirstClash (value : Json) (base : Option Json) (path : List String)
    (above below : Json) : Prop where
  clash : value.ClashesAt base path above below
  first : ∀ other above' below', value.ClashesAt base other above' below' → ¬ other < path

theorem Json.FirstClash.of_clashes {below : Json} (h : value.Clashes below) :
    value.FirstClash (some below) [] value below :=
  ⟨⟨Json.at?_nil _, Json.at?_nil _, h⟩, fun _ _ _ _ => List.not_lt_nil _⟩

theorem Json.FirstClash.unique {other : List String} {above below above' below' : Json}
    (first : value.FirstClash base path above below)
    (first' : value.FirstClash base other above' below') :
    path = other ∧ above = above' ∧ below = below' := by
  obtain rfl : path = other := by
    rcases Std.lt_trichotomy path other with hlt | heq | hgt
    · exact absurd hlt (first'.first _ _ _ first.clash)
    · exact heq
    · exact absurd hgt (first.first _ _ _ first'.clash)
  obtain ⟨habove, hbelow, -⟩ := first.clash
  obtain ⟨habove', hbelow', -⟩ := first'.clash
  exact ⟨rfl, Option.some.inj (habove.symm.trans habove'),
    Option.some.inj (hbelow.symm.trans hbelow')⟩

/-- Objects clash first where their fields of the first key that clashes do. The fields of the keys
before it have been laid over each other, so nothing in them clashes. -/
theorem Json.FirstClash.cons {top fields : Fields} {key : String} {above below : Json}
    (ordered : (Json.object top).Ordered) (hkey : top.at? key = some value)
    (earlier : ∀ other < key, ∀ value', top.at? other = some value' →
      ∃ path result, Laid path value' (fields.at? other) result)
    (first : value.FirstClash (fields.at? key) path above below) :
    (Json.object top).FirstClash (some (.object fields)) (key :: path) above below := by
  refine ⟨first.clash.cons hkey, ?_⟩
  intro other above' below' clash hlt
  obtain ⟨key', rest, value', rfl, hkey', clash⟩ := clash.exists_cons
  rcases List.cons_lt_cons_iff.mp hlt with hbefore | ⟨rfl, hrest⟩
  · obtain ⟨_, _, laid⟩ := earlier key' hbefore value' hkey'
    exact laid.not_clashesAt (ordered.of_at? hkey') rest above' below' clash
  · obtain rfl := Option.some.inj (hkey.symm.trans hkey')
    exact first.first rest above' below' clash hrest

/-- A fault of a layer names the first path at which two values clash. The induction is on the
override's value: the fault comes from it, or from one of its fields. -/
theorem layer_error_clash (ordered : value.Ordered) (h : layer path value base = .error fault) :
    ∃ inner above below, value.FirstClash base inner above below ∧
      fault = .typeMismatch (path ++ inner) below.type above.type := by
  induction ordered generalizing path base with
  | null | bool | number | string | array =>
      rcases layer_error h with ⟨below, rfl, hclash, rfl⟩ | ⟨top, fields, hvalue, -⟩
      · exact ⟨[], _, below, .of_clashes hclash, by rw [List.append_nil]⟩
      · cases hvalue
  | @object top sorted ordered ih =>
      rcases layer_error h with ⟨below, rfl, hclash, rfl⟩ | ⟨_, fields, hvalue, rfl, hfields⟩
      · exact ⟨[], _, below, .of_clashes hclash, by rw [List.append_nil]⟩
      · cases hvalue
        obtain ⟨key, value, hkey, hvalue, hearlier⟩ := layerFields_error sorted hfields
        obtain ⟨inner, above, below, first, rfl⟩ := ih _ (Entries.mem_of_at? hkey) hvalue
        refine ⟨key :: inner, above, below, .cons (.object sorted ordered) hkey ?_ first, by simp⟩
        exact fun other hlt value' hother => ⟨_, hearlier other hlt value' hother⟩

/-- Whatever is laid over whatever, the only fault that can come of it is a mismatch of types. The
induction is on the size of the override's value, since nothing is said about its fields. -/
theorem layer_error_typeMismatch {path : List String} {value : Json} {base : Option Json}
    (h : layer path value base = .error fault) :
    ∃ path below above, fault = .typeMismatch path below above := by
  rcases layer_error h with ⟨below, -, -, rfl⟩ | ⟨top, fields, rfl, -, hfields⟩
  · exact ⟨_, _, _, rfl⟩
  · rw [layerFields_eq_layEach] at hfields
    obtain ⟨key, inner, _, hmem, hinner⟩ := exists_error_of_layEach hfields
    have smaller : sizeOf inner < sizeOf (Json.object top) := by
      have hfield := List.sizeOf_lt_of_mem hmem
      simp only [Prod.mk.sizeOf_spec] at hfield
      simp only [Json.object.sizeOf_spec]
      omega
    exact layer_error_typeMismatch hinner
termination_by sizeOf value

theorem layerSpec_error_typeMismatch (h : layerSpec root joined override template = .error fault) :
    ∃ path below above, fault = .typeMismatch path below above := by
  rw [layerSpec_eq_layEach] at h
  obtain ⟨key, value, below, -, hvalue⟩ := exists_error_of_layEach h
  unfold layerEntry at hvalue
  split at hvalue
  · cases hvalue
  · exact layer_error_typeMismatch hvalue

def ConflictsAt (override template : Fields) (path : List String) (above below : Json) : Prop :=
  (Json.object override).ClashesAt (some (.object template)) path above below

/-- The fault of an override that cannot be laid over a template names the first path at which they
conflict. -/
theorem layerSpec_error_conflict (ordered : (Json.object override).Ordered)
    (h : layerSpec root joined override template = .error fault) :
    ∃ path above below,
      (Json.object override).FirstClash (some (.object template)) path above below ∧
        fault = .typeMismatch (root :: path) below.type above.type := by
  obtain ⟨key, value, hkey, hvalue, hearlier⟩ := layerSpec_error ordered.sorted h
  obtain ⟨inner, above, below, first, rfl⟩ := layer_error_clash (ordered.of_at? hkey) hvalue
  refine ⟨key :: inner, above, below, first.cons ordered hkey ?_, rfl⟩
  exact fun other hlt value' hother => ⟨_, hearlier other hlt value' hother⟩

theorem not_conflictsAt_of_layerSpec (ordered : (Json.object override).Ordered)
    (h : layerSpec root joined override template = .ok merged) (path : List String)
    (above below : Json) : ¬ ConflictsAt override template path above below := by
  intro conflict
  obtain ⟨key, rest, value, rfl, hvalue, clash⟩ := conflict.exists_cons
  obtain ⟨result, laid⟩ : ∃ result, Laid [root, key] value (template.at? key) result := by
    rcases layerSpec_at? ordered.sorted h key with
      ⟨hnone, -⟩ | ⟨_, hkey, ⟨text, hjoins, -⟩ | ⟨-, laid⟩⟩
    · rw [hnone] at hvalue
      cases hvalue
    · obtain rfl := Option.some.inj (hkey.symm.trans hvalue)
      exact ⟨_, hjoins.laid⟩
    · obtain rfl := Option.some.inj (hkey.symm.trans hvalue)
      exact ⟨_, laid⟩
  exact laid.not_clashesAt (ordered.of_at? hvalue) rest above below clash

/-- An override can be laid over a template if and only if they conflict at no path. -/
theorem layerSpec_succeeds_iff (ordered : (Json.object override).Ordered) :
    (∃ merged, layerSpec root joined override template = .ok merged) ↔
      ∀ path above below, ¬ ConflictsAt override template path above below := by
  constructor
  · rintro ⟨merged, h⟩
    exact not_conflictsAt_of_layerSpec ordered h
  · intro none
    cases h : layerSpec root joined override template with
    | ok merged => exact ⟨merged, rfl⟩
    | error fault =>
        obtain ⟨path, above, below, first, -⟩ := layerSpec_error_conflict ordered h
        exact absurd first.clash (none path above below)

/-- An override cannot be laid over a template if and only if they conflict, and the fault is that
of their first conflict. -/
theorem layerSpec_error_iff (ordered : (Json.object override).Ordered) :
    layerSpec root joined override template = .error fault ↔
      ∃ path above below,
        (Json.object override).FirstClash (some (.object template)) path above below ∧
          fault = .typeMismatch (root :: path) below.type above.type := by
  refine ⟨layerSpec_error_conflict ordered, ?_⟩
  rintro ⟨path, above, below, first, rfl⟩
  cases h : layerSpec root joined override template with
  | ok merged =>
      exact absurd first.clash (not_conflictsAt_of_layerSpec ordered h path above below)
  | error fault =>
      obtain ⟨path', above', below', first', rfl⟩ := layerSpec_error_conflict ordered h
      obtain ⟨rfl, rfl, rfl⟩ := first.unique first'
      rfl

end SiteOperator
