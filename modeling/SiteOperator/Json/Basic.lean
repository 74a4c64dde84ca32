import SiteOperator.Decimal.Binary64
import SiteOperator.Entries

/-!
# JSON values

Spec blocks, resources and requests are JSON values.  An object is a finite map whose entries list
the keys in increasing order, so two objects with the same fields are the same value.  A number is
an integer or a double, and the two never equal one another.
-/

namespace SiteOperator

/-- A JSON number: an integer, or a double for everything that is written with a fraction or an
exponent or does not fit 64 bits. -/
inductive Number where
  | int (n : Int)
  | double (x : Binary64)
  deriving DecidableEq

/-- A JSON value. -/
inductive Json where
  | null
  | bool (b : Bool)
  | number (n : Number)
  | string (s : String)
  | array (items : List Json)
  | object (fields : List (String × Json))

/-- The fields of a JSON object. -/
abbrev Fields := Entries Json

/-- The six types of JSON values. -/
inductive JsonType where
  | null
  | boolean
  | number
  | string
  | array
  | object
  deriving DecidableEq

def JsonType.name : JsonType → String
  | null => "null"
  | boolean => "boolean"
  | number => "number"
  | string => "string"
  | array => "array"
  | object => "object"

namespace Json

def type : Json → JsonType
  | null => .null
  | bool _ => .boolean
  | number _ => .number
  | string _ => .string
  | array _ => .array
  | object _ => .object

def isNull : Json → Bool
  | null => true
  | _ => false

def int (n : Int) : Json := number (.int n)

def strings (texts : List String) : Json := array (texts.map string)

def ofText? : Option String → Json
  | some s => string s
  | none => null

def fields? : Json → Option Fields
  | object fields => some fields
  | _ => none

/-- The value of a field, or null if the value is no object or lacks the field. -/
def field (value : Json) (key : String) : Json :=
  ((value.fields?.bind fun fields => fields.at? key)).getD null

def ofFields (fields : List (String × Json)) : Json := object (Entries.ofList fields)

mutual

def decEq : (a b : Json) → Decidable (a = b)
  | null, b => match b with
      | null => isTrue rfl
      | bool _ | number _ | string _ | array _ | object _ => isFalse nofun
  | bool x, b => match b with
      | bool y =>
          if h : x = y then isTrue (h ▸ rfl)
          else isFalse fun e => h (by injection e)
      | null | number _ | string _ | array _ | object _ => isFalse nofun
  | number x, b => match b with
      | number y =>
          if h : x = y then isTrue (h ▸ rfl)
          else isFalse fun e => h (by injection e)
      | null | bool _ | string _ | array _ | object _ => isFalse nofun
  | string x, b => match b with
      | string y =>
          if h : x = y then isTrue (h ▸ rfl)
          else isFalse fun e => h (by injection e)
      | null | bool _ | number _ | array _ | object _ => isFalse nofun
  | array xs, b => match b with
      | array ys => match decEqItems xs ys with
          | isTrue h => isTrue (h ▸ rfl)
          | isFalse h => isFalse fun e => h (by injection e)
      | null | bool _ | number _ | string _ | object _ => isFalse nofun
  | object xs, b => match b with
      | object ys => match decEqFields xs ys with
          | isTrue h => isTrue (h ▸ rfl)
          | isFalse h => isFalse fun e => h (by injection e)
      | null | bool _ | number _ | string _ | array _ => isFalse nofun

def decEqItems : (xs ys : List Json) → Decidable (xs = ys)
  | [], [] => isTrue rfl
  | [], _ :: _ => isFalse nofun
  | _ :: _, [] => isFalse nofun
  | x :: xs, y :: ys => match decEq x y with
      | isFalse h => isFalse fun e => h (by injection e)
      | isTrue h₁ => match decEqItems xs ys with
          | isFalse h => isFalse fun e => h (by injection e)
          | isTrue h₂ => isTrue (by rw [h₁, h₂])

def decEqFields : (xs ys : List (String × Json)) → Decidable (xs = ys)
  | [], [] => isTrue rfl
  | [], _ :: _ => isFalse nofun
  | _ :: _, [] => isFalse nofun
  | (k, x) :: xs, (l, y) :: ys =>
      if h₀ : k = l then match decEq x y with
        | isFalse h => isFalse fun e => h (by injection e with e₁; injection e₁)
        | isTrue h₁ => match decEqFields xs ys with
            | isFalse h => isFalse fun e => h (by injection e)
            | isTrue h₂ => isTrue (by rw [h₀, h₁, h₂])
      else isFalse fun e => h₀ (by injection e with e₁; injection e₁)

end

instance : DecidableEq Json := decEq

instance : Inhabited Json := ⟨null⟩

end Json

end SiteOperator
