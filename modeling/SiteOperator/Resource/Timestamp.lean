/-!
# Points in time as texts

Metadata holds points in time as texts of RFC 3339: a date, a time of day and an offset from UTC.
-/

namespace SiteOperator

namespace Timestamp

/-- A number of exactly `count` digits within bounds, with the rest of the text. -/
def number? (count least greatest : Nat) (cs : List Char) : Option (Nat × List Char) :=
  let digits := cs.take count
  if digits.length = count && digits.all Char.isDigit then
    let value := digits.foldl (fun n c => n * 10 + (c.toNat - '0'.toNat)) 0
    if least ≤ value && value ≤ greatest then some (value, cs.drop count) else none
  else none

def oneOf? (choices : List Char) : List Char → Option (List Char)
  | c :: rest => if choices.contains c then some rest else none
  | [] => none

def isLeapYear (year : Nat) : Bool :=
  year % 4 = 0 && (year % 100 ≠ 0 || year % 400 = 0)

def daysOf (year month : Nat) : Nat :=
  if month = 2 then (if isLeapYear year then 29 else 28)
  else if [4, 6, 9, 11].contains month then 30
  else 31

def date? (cs : List Char) : Option (List Char) := do
  let (year, cs) ← number? 4 0 9999 cs
  let cs ← oneOf? ['-'] cs
  let (month, cs) ← number? 2 1 12 cs
  let cs ← oneOf? ['-'] cs
  let (_, cs) ← number? 2 1 (daysOf year month) cs
  return cs

/-- A time of day, with the rest of the text.  The seconds may have a fraction and may be those of
a leap second. -/
def timeOfDay? (cs : List Char) : Option (List Char) := do
  let (_, cs) ← number? 2 0 23 cs
  let cs ← oneOf? [':'] cs
  let (_, cs) ← number? 2 0 59 cs
  let cs ← oneOf? [':'] cs
  let (_, cs) ← number? 2 0 60 cs
  match cs with
  | '.' :: rest =>
      if (rest.takeWhile Char.isDigit).isEmpty then none
      else return rest.dropWhile Char.isDigit
  | _ => return cs

def offset? (cs : List Char) : Option (List Char) :=
  match oneOf? ['Z', 'z'] cs with
  | some rest => some rest
  | none => do
      let cs ← oneOf? ['+', '-'] cs
      let (_, cs) ← number? 2 0 23 cs
      let cs ← oneOf? [':'] cs
      let (_, cs) ← number? 2 0 59 cs
      return cs

def isValid (text : String) : Bool :=
  match date? text.toList with
  | some rest => match (oneOf? ['T', 't', ' '] rest).bind timeOfDay? with
      | some rest => offset? rest = some []
      | none => false
  | none => false

end Timestamp

end SiteOperator
