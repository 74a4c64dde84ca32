import SiteOperator.Json.Basic

/-!
# Reading typed values from JSON

A decoder reads a value of some type from JSON and gives nothing if the JSON does not fit.  The
fields of a record are optional (absent and null are the same), required, or defaulted (absent
stands for a default, but null is read like any other value).  A record may also be written as an
array of its leading fields.
-/

namespace SiteOperator

/-- Reads a value from JSON; nothing if the JSON does not fit the type. -/
abbrev Decoder (α : Type) := Json → Option α

namespace Decoder

def anything : Decoder Json := some

def text : Decoder String
  | .string s => some s
  | _ => none

def flag : Decoder Bool
  | .bool b => some b
  | _ => none

def integerBetween (least greatest : Int) : Decoder Int
  | .number (.int n) => if least ≤ n && n ≤ greatest then some n else none
  | _ => none

def integer64 : Decoder Int := 
  integerBetween (-(Nat.pow 2 63 : Nat)) ((Nat.pow 2 63 : Nat) - 1)

def natural64 : Decoder Nat := fun value =>
  (integerBetween 0 ((Nat.pow 2 64 : Nat) - 1) value).map Int.toNat

def list {α : Type} (item : Decoder α) : Decoder (List α)
  | .array items => items.mapM item
  | _ => none

def object : Decoder Fields := Json.fields?

def map {α : Type} (value : Decoder α) : Decoder (Entries α)
  | .object fields => fields.mapM fun (key, x) => (value x).map fun y => (key, y)
  | _ => none

def nullable {α : Type} (read : Decoder α) : Decoder (Option α)
  | .null => some none
  | value => (read value).map some

/-- The fields of a record: an object, or an array of its leading fields in the order of their
names. -/
def record (names : List String) : Decoder Fields
  | .object fields => some fields
  | .array items => if items.length ≤ names.length then some (names.zip items) else none
  | _ => none

end Decoder

namespace Fields

def optional {α : Type} (fields : Fields) (key : String) (read : Decoder α) : Option (Option α) :=
  Decoder.nullable read ((fields.at? key).getD .null)

def required {α : Type} (fields : Fields) (key : String) (read : Decoder α) : Option α :=
  (fields.at? key).bind read

def defaulted {α : Type} (fields : Fields) (key : String) (default : α) (read : Decoder α) :
    Option α :=
  match fields.at? key with
  | none => some default
  | some value => read value

end Fields

namespace Json

/-- The field with this name, if there is a value for it. -/
def fieldIf (key : String) : Option Json → List (String × Json)
  | some value => [(key, value)]
  | none => []

def textMap (texts : Entries String) : Json := object (texts.mapValues string)

end Json

end SiteOperator
