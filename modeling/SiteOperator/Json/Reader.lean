import SiteOperator.Json.Basic

/-!
# Reading JSON texts

`Json.parse` reads one JSON value and nothing after it but blanks.  A text that ends too early is
told apart from one that no ending could mend.  Of two fields with one key the later one stays.
A number without a fraction and an exponent is an integer if it fits 64 bits, signed or unsigned;
every other number is a double, built from the leading digits that fit 64 bits.
-/

namespace SiteOperator

namespace JsonText

/-- Why a text is not JSON. -/
inductive Defect where
  | unfinished
  | malformed
  deriving DecidableEq

/-- The defect of a text where something else should stand than what is left of it. -/
def defect : List Char → Defect
  | [] => .unfinished
  | _ :: _ => .malformed

def orMalformed {α : Type} : Option α → Except Defect α
  | some x => .ok x
  | none => .error .malformed

def isBlank (c : Char) : Bool := c = ' ' || c = '\n' || c = '\t' || c = '\r'

def skipBlanks (cs : List Char) : List Char := cs.dropWhile isBlank

def greatestWord : Nat := Nat.pow 2 64 - 1

def digit (c : Char) : Nat := c.toNat - '0'.toNat

/-- Whether a digit can be appended to a number within 64 bits. -/
def fits (number : Nat) (c : Char) : Bool := decide (number * 10 + digit c ≤ greatestWord)

/-- The leading digits of a whole part that fit 64 bits, and how many digits follow them. -/
def wholePart : Nat → List Char → Nat × Nat
  | number, [] => (number, 0)
  | number, c :: rest =>
      if fits number c then wholePart (number * 10 + digit c) rest
      else (number, rest.length + 1)

/-- Appends the digits of a fraction while they fit 64 bits, counting them. -/
def fractionPart : Nat → Nat → List Char → Nat × Nat
  | number, taken, [] => (number, taken)
  | number, taken, c :: rest =>
      if fits number c then fractionPart (number * 10 + digit c) (taken + 1) rest
      else (number, taken)

/-- A signed exponent after its letter, with the rest of the text. -/
def exponentPart (cs : List Char) : Except Defect (Int × List Char) :=
  let (negative, body) := match cs with
    | '-' :: rest => (true, rest)
    | '+' :: rest => (false, rest)
    | _ => (false, cs)
  let digits := body.takeWhile Char.isDigit
  if digits.isEmpty then .error (defect body)
  else
    let size : Int := digits.foldl (fun n c => n * 10 + digit c) (0 : Nat)
    .ok (if negative then -size else size, body.dropWhile Char.isDigit)

/-- The greatest exponent that is looked at; beyond it a number is zero or out of range. -/
def greatestExponent : Nat := Nat.pow 2 31 - 1

def doubleOf? (negative : Bool) (significand : Nat) (power exponent : Int) : Option Binary64 :=
  if greatestExponent < exponent.natAbs then
    if 0 < significand && decide (0 < exponent) then none else some (Binary64.zero negative)
  else Binary64.ofParts? negative significand (power + exponent)

/-- The number whose text is a sign and these whole digits, if nothing else follows. -/
def integerOf? (negative : Bool) (digits : List Char) : Option Number :=
  let (number, dropped) := wholePart 0 digits
  if dropped = 0 && !negative then some (.int number)
  else if dropped = 0 && 0 < number && decide (number ≤ Nat.pow 2 63) then
    some (.int (-(number : Int)))
  else (Binary64.ofParts? negative number dropped).map .double

/-- A number that has a fraction or an exponent, from its leading digits on: `rest` begins with the
exponent, if there is one. -/
def double (negative : Bool) (significand : Nat) (power : Int) (rest : List Char) :
    Except Defect (Number × List Char) := do
  let (exponent, rest) ← match rest with
    | 'e' :: more | 'E' :: more => exponentPart more
    | _ => .ok (0, rest)
  let x ← orMalformed (doubleOf? negative significand power exponent)
  return (.double x, rest)

def number (cs : List Char) : Except Defect (Number × List Char) :=
  let (negative, body) := match cs with
    | '-' :: rest => (true, rest)
    | _ => (false, cs)
  let whole := body.takeWhile Char.isDigit
  let rest := body.dropWhile Char.isDigit
  match whole with
  | [] => .error (defect body)
  | '0' :: _ :: _ => .error .malformed
  | _ =>
      let (significand, dropped) := wholePart 0 whole
      match rest with
      | '.' :: more =>
          let fraction := more.takeWhile Char.isDigit
          if fraction.isEmpty then .error (defect more)
          else
            let (significand, taken) := fractionPart significand 0 fraction
            double negative significand ((dropped : Int) - taken) (more.dropWhile Char.isDigit)
      | 'e' :: _ | 'E' :: _ => double negative significand dropped rest
      | _ => (orMalformed (integerOf? negative whole)).map fun n => (n, rest)

def hexDigit? (c : Char) : Option Nat :=
  if c.isDigit then some (digit c)
  else if 'a' ≤ c && c ≤ 'f' then some (c.toNat - 'a'.toNat + 10)
  else if 'A' ≤ c && c ≤ 'F' then some (c.toNat - 'A'.toNat + 10)
  else none

/-- The number of four hexadecimal digits, with the rest of the text. -/
def unit : List Char → Except Defect (Nat × List Char)
  | a :: b :: c :: d :: rest => do
      let a ← orMalformed (hexDigit? a)
      let b ← orMalformed (hexDigit? b)
      let c ← orMalformed (hexDigit? c)
      let d ← orMalformed (hexDigit? d)
      return (((a * 16 + b) * 16 + c) * 16 + d, rest)
  | _ => .error .unfinished

/-- The character of an escape with four hexadecimal digits, of which a character beyond the first
plane has two. -/
def escapedUnit (cs : List Char) : Except Defect (Char × List Char) := do
  let (high, rest) ← unit cs
  if 0xDC00 ≤ high && high < 0xE000 then .error .malformed
  else if 0xD800 ≤ high && high < 0xDC00 then
    match rest with
    | '\\' :: 'u' :: more => do
        let (low, rest) ← unit more
        if 0xDC00 ≤ low && low < 0xE000 then
          .ok (Char.ofNat (0x10000 + (high - 0xD800) * 0x400 + (low - 0xDC00)), rest)
        else .error .malformed
    | ['\\'] => .error .unfinished
    | rest => .error (defect rest)
  else .ok (Char.ofNat high, rest)

/-- The characters of a string after its opening mark, with the rest of the text; `taken` holds
those already read, the last one first. -/
def string : Nat → List Char → List Char → Except Defect (String × List Char)
  | 0, _, _ => .error .malformed
  | fuel + 1, taken, cs => match cs with
      | '"' :: rest => .ok (String.ofList taken.reverse, rest)
      | '\\' :: c :: rest =>
          if c = 'u' then do
            let (c, rest) ← escapedUnit rest
            string fuel (c :: taken) rest
          else if c = '"' || c = '\\' || c = '/' then string fuel (c :: taken) rest
          else if c = 'n' then string fuel ('\n' :: taken) rest
          else if c = 't' then string fuel ('\t' :: taken) rest
          else if c = 'r' then string fuel ('\r' :: taken) rest
          else if c = 'b' then string fuel (Char.ofNat 8 :: taken) rest
          else if c = 'f' then string fuel (Char.ofNat 12 :: taken) rest
          else .error .malformed
      | c :: rest => if c.toNat < 32 then .error .malformed else string fuel (c :: taken) rest
      | [] => .error .unfinished

def word (name : String) (value : Json) (cs : List Char) : Except Defect (Json × List Char) :=
  if name.toList.isPrefixOf cs then .ok (value, cs.drop name.length)
  else if cs.isPrefixOf name.toList then .error .unfinished
  else .error .malformed

mutual

def value : Nat → List Char → Except Defect (Json × List Char)
  | 0, _ => .error .malformed
  | fuel + 1, cs => match skipBlanks cs with
      | '\x7b' :: rest => match skipBlanks rest with
          | '\x7d' :: rest => .ok (.object [], rest)
          | rest => fields fuel [] rest
      | '[' :: rest => match skipBlanks rest with
          | ']' :: rest => .ok (.array [], rest)
          | rest => items fuel [] rest
      | '"' :: rest => (string (rest.length + 1) [] rest).map fun (s, rest) => (.string s, rest)
      | 'n' :: rest => word "null" .null ('n' :: rest)
      | 't' :: rest => word "true" (.bool true) ('t' :: rest)
      | 'f' :: rest => word "false" (.bool false) ('f' :: rest)
      | rest => (number rest).map fun (n, rest) => (.number n, rest)

/-- The items of an array up to its closing bracket; `taken` holds those already read, the last
one first. -/
def items : Nat → List Json → List Char → Except Defect (Json × List Char)
  | 0, _, _ => .error .malformed
  | fuel + 1, taken, cs => match value fuel cs with
      | .error defect => .error defect
      | .ok (item, rest) => match skipBlanks rest with
          | ',' :: rest => items fuel (item :: taken) rest
          | ']' :: rest => .ok (.array (item :: taken).reverse, rest)
          | rest => .error (defect rest)

def fields : Nat → Fields → List Char → Except Defect (Json × List Char)
  | 0, _, _ => .error .malformed
  | fuel + 1, taken, cs => match skipBlanks cs with
      | '"' :: rest => match string (rest.length + 1) [] rest with
          | .error defect => .error defect
          | .ok (key, rest) => match skipBlanks rest with
              | ':' :: rest => match value fuel rest with
                  | .error defect => .error defect
                  | .ok (item, rest) => match skipBlanks rest with
                      | ',' :: rest => fields fuel (taken.put key item) rest
                      | '\x7d' :: rest => .ok (.object (taken.put key item), rest)
                      | rest => .error (defect rest)
              | rest => .error (defect rest)
      | rest => .error (defect rest)

end

end JsonText

/-- Reads a text that holds exactly one JSON value, or says why it does not. -/
def Json.parse (text : String) : Except JsonText.Defect Json := do
  let cs := text.toList
  let (value, rest) ← JsonText.value (2 * cs.length + 2) cs
  if (JsonText.skipBlanks rest).isEmpty then return value else .error .malformed

def Json.parse? (text : String) : Option Json := (Json.parse text).toOption

end SiteOperator
