import SiteOperator.Yaml.Scalar

/-!
# YAML documents

`Yaml.document` writes a JSON value in block style.  The entries of an object stand below one
another, and a list that is the value of a key is not indented under it.  A key that has line
breaks or more than 128 bytes is written on a line of its own after a question mark.
-/

namespace SiteOperator

namespace Yaml

/-- The most bytes of a key that stands before its colon. -/
def simpleKeyMost : Nat := 128

def isSimpleKey (key : String) : Bool :=
  !key.toList.any isBreak && key.utf8ByteSize ≤ simpleKeyMost

/-- A scalar after an indicator, up to the end of its line. -/
def scalarLine (indent : Nat) (s : String) : String :=
  " " ++ scalarText (indent + 2) s ++ (if endsLine s then "" else "\n")

/-- Where a value stands: after the colon of a key on the same line, or after an indicator that
begins the line. -/
inductive Place where
  | afterKey
  | afterIndicator
  deriving DecidableEq

mutual

/-- A value after an indicator, with all of its lines.  The indentation is that of the collection
that holds the value. -/
def valueLines (indent : Nat) (place : Place) : Json → String
  | .null => " null\n"
  | .bool b => if b then " true\n" else " false\n"
  | .number n => " " ++ n.text ++ "\n"
  | .string s => scalarLine indent s
  | .array [] => " []\n"
  | .array (item :: rest) => match place with
      | .afterKey => "\n" ++ itemLines indent false (item :: rest)
      | .afterIndicator => " " ++ itemLines (indent + 2) true (item :: rest)
  | .object [] => " \x7b\x7d\n"
  | .object (field :: rest) => match place with
      | .afterKey => "\n" ++ fieldLines (indent + 2) false (field :: rest)
      | .afterIndicator => " " ++ fieldLines (indent + 2) true (field :: rest)

/-- The items of a list; the first one may stand on a line that has begun already. -/
def itemLines (indent : Nat) (begun : Bool) : List Json → String
  | [] => ""
  | item :: rest =>
      (if begun then "" else String.ofList (spaces indent)) ++ "-" ++
        valueLines indent .afterIndicator item ++ itemLines indent false rest

/-- The fields of an object; the first one may stand on a line that has begun already. -/
def fieldLines (indent : Nat) (begun : Bool) : List (String × Json) → String
  | [] => ""
  | (key, value) :: rest =>
      (if begun then "" else String.ofList (spaces indent)) ++
        (if isSimpleKey key then
          scalarText (indent + 2) key ++ ":" ++ valueLines indent .afterKey value
        else
          "?" ++ scalarLine indent key ++ String.ofList (spaces indent) ++ ":" ++
            valueLines indent .afterIndicator value) ++
        fieldLines indent false rest

end

def document : Json → String
  | .object (field :: rest) => fieldLines 0 false (field :: rest)
  | .array (item :: rest) => itemLines 0 false (item :: rest)
  | value => String.ofList ((valueLines 0 .afterIndicator value).toList.drop 1)

end Yaml

end SiteOperator
