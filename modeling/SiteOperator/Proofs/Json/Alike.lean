import Mathlib.Data.List.Forall2
import SiteOperator.Proofs.Json.Fields

/-!
# Values that say the same to a reader

A layout lists the fields of a record, each with a rule that says when two values of the field, or a
value and its absence, say the same. Objects that agree in these fields are alike (`Json.Alike`),
whatever else they hold. A decoder that respects a layout (`Decoder.Respects`) reads alike values
alike, and so do the decoders of lists and of optional fields that are made of it.
-/

namespace SiteOperator

/-- When two values of a field say the same. A field that is absent has no value. -/
abbrev FieldRule := Option Json → Option Json → Prop

namespace FieldRule

/-- A field that is read as it stands: its absence is not the same as any value. -/
def exact : FieldRule := Eq

/-- A field that may be left out, or be null, which is the same. -/
def orNull (alike : Json → Json → Prop) : FieldRule :=
  fun x y => alike (x.getD .null) (y.getD .null)

inductive items (alike : Json → Json → Prop) : FieldRule
  | same (value : Option Json) : items alike value value
  | each {xs ys : List Json} (h : List.Forall₂ alike xs ys) :
      items alike (some (.array xs)) (some (.array ys))

end FieldRule

abbrev Layout := Entries FieldRule

/-- The fields of the layout say the same; there is no rule for the others. -/
def Fields.Agree (layout : Layout) (a b : Fields) : Prop :=
  ∀ field ∈ layout, field.2 (a.at? field.1) (b.at? field.1)

inductive Json.Alike (layout : Layout) : Json → Json → Prop
  | same (value : Json) : Alike layout value value
  | object {a b : Fields} (h : Fields.Agree layout a b) : Alike layout (.object a) (.object b)

namespace Decoder

variable {α : Type} {read : Decoder α} {layout : Layout}

/-- Values that are alike by the layout are read as the same value, or none of them is. -/
def Respects (read : Decoder α) (layout : Layout) : Prop :=
  ∀ ⦃v w : Json⦄, v.Alike layout w → read v = read w

/-- A decoder that opens an object respects a layout if it reads alike the fields that agree. -/
theorem Respects.of_fields {unpack : Decoder Fields} {build : Fields → Option α}
    (opens : ∀ fields, unpack (.object fields) = some fields)
    (h : ∀ {a b : Fields}, Fields.Agree layout a b → build a = build b) :
    Respects (fun value => (unpack value).bind build) layout := by
  intro v w alike
  cases alike with
  | same => rfl
  | object agree => simp only [opens, Option.bind_some, h agree]

theorem Respects.nullable (h : read.Respects layout) : (nullable read).Respects layout := by
  intro v w alike
  cases alike with
  | same => rfl
  | object agree => exact congrArg (Option.map some) (h (.object agree))

theorem Respects.mapM (h : read.Respects layout) {xs ys : List Json}
    (alike : List.Forall₂ (Json.Alike layout) xs ys) : xs.mapM read = ys.mapM read := by
  induction alike with
  | nil => rfl
  | cons head _ ih => rw [List.mapM_cons, List.mapM_cons, h head, ih]

end Decoder

namespace Fields

variable {α : Type} {read : Decoder α} {layout : Layout} {a b : Fields} {key : String}

theorem required_congr (h : FieldRule.exact (a.at? key) (b.at? key)) :
    a.required key read = b.required key read :=
  congrArg (·.bind read) h

theorem defaulted_congr {default : α} (h : FieldRule.exact (a.at? key) (b.at? key)) :
    a.defaulted key default read = b.defaulted key default read := by
  rw [defaulted, defaulted, show a.at? key = b.at? key from h]

theorem optional_congr (h : FieldRule.orNull Eq (a.at? key) (b.at? key)) :
    a.optional key read = b.optional key read :=
  congrArg (Decoder.nullable read) h

theorem optional_congr_of_respects (hread : read.Respects layout)
    (h : FieldRule.orNull (Json.Alike layout) (a.at? key) (b.at? key)) :
    a.optional key read = b.optional key read :=
  hread.nullable h

theorem anything_congr (h : FieldRule.orNull Eq (a.at? key) (b.at? key)) :
    a.defaulted key .null Decoder.anything = b.defaulted key .null Decoder.anything := by
  have hread (fields : Fields) :
      fields.defaulted key .null Decoder.anything = some ((fields.at? key).getD .null) := by
    unfold defaulted
    cases fields.at? key <;> rfl
  rw [hread, hread, show (a.at? key).getD .null = (b.at? key).getD .null from h]

/-- A list that may be missing is read alike if its items are. -/
theorem list_congr {default : List α} (hread : read.Respects layout)
    (h : FieldRule.items (Json.Alike layout) (a.at? key) (b.at? key)) :
    a.defaulted key default (Decoder.list read) = b.defaulted key default (Decoder.list read) := by
  unfold defaulted
  generalize a.at? key = x, b.at? key = y at h
  cases h with
  | same => rfl
  | each items => exact hread.mapM items

end Fields

end SiteOperator
