import SiteOperator.Json.Printer

/-!
# YAML scalars

A text is written in the first style that reads back as the same text.  A text with a line feed
asks for the literal style; a text that would read back as null, a truth value or a number asks for
single quotes; every other text asks for no quotes at all.  Each style in turn gives way to quotes,
and in the end to double quotes with escapes, when it cannot hold the characters of the text.
-/

namespace SiteOperator

namespace Yaml

def isBreak (c : Char) : Bool := [0x0A, 0x0D, 0x85, 0x2028, 0x2029].contains c.toNat

/-- Characters that may stand in a text without an escape. -/
def isPrintable (c : Char) : Bool :=
  let n := c.toNat
  n = 0x0A || (0x20 ≤ n && n ≤ 0x7E) ||
    (0xA0 ≤ n && n ≠ 0xFEFF && n ≠ 0xFFFE && n ≠ 0xFFFF)

/-- Characters that separate words, or the end of the text. -/
def isBlankOrEnd : Option Char → Bool
  | none => true
  | some c => c = ' ' || c = '\t' || c.toNat = 0 || isBreak c

/-- Whether two neighbours in a list of characters stand in a relation. -/
def someNeighbours (related : Char → Char → Bool) : List Char → Bool
  | a :: b :: rest => related a b || someNeighbours related (b :: rest)
  | _ => false

/-- Whether a text begins with a character or a mark that has a meaning of its own there. -/
def beginsWithIndicator (cs : List Char) : Bool :=
  ['-', '-', '-'].isPrefixOf cs || ['.', '.', '.'].isPrefixOf cs ||
    match cs with
    | [] => false
    | c :: rest =>
        "#,[]\x7b\x7d&*!|>'\"%@\x60".toList.contains c ||
          (['?', ':', '-'].contains c && isBlankOrEnd rest.head?)

/-- Whether a text has a colon before a blank, or a number sign after one, beyond its first
character. -/
def hasInnerIndicator : List Char → Bool
  | [] => false
  | [_] => false
  | a :: b :: rest =>
      (b = ':' && isBlankOrEnd rest.head?) || (b = '#' && isBlankOrEnd (some a)) ||
        hasInnerIndicator (b :: rest)

/-- How a text is written. -/
inductive ScalarStyle where
  | plain
  | singleQuoted
  | doubleQuoted
  | literal
  deriving DecidableEq

/-- Whether a text has a character that only double quotes can hold, or a space before a line
break. -/
def needsEscapes (cs : List Char) : Bool :=
  cs.any (fun c => !isPrintable c) || someNeighbours (fun a b => a = ' ' && isBreak b) cs

def plainAllowed (cs : List Char) : Bool :=
  !(cs.head? = some ' ' || cs.getLast? = some ' ' || cs.any isBreak || needsEscapes cs ||
    beginsWithIndicator cs || hasInnerIndicator cs)

def singleQuotedAllowed (cs : List Char) : Bool :=
  !(someNeighbours (fun a b => isBreak a && b = ' ') cs || needsEscapes cs)

def literalAllowed (cs : List Char) : Bool :=
  !(cs.isEmpty || cs.getLast? = some ' ' || needsEscapes cs)

/-! ## Texts that read back as something else -/

def withoutSign : List Char → List Char
  | '-' :: rest | '+' :: rest => rest
  | cs => cs

def isZeroPadded (cs : List Char) : Bool :=
  match withoutSign cs with
  | '0' :: rest => !rest.isEmpty && rest.all Char.isDigit
  | _ => false

def digitsToBase? (base : Nat) (cs : List Char) : Option Nat :=
  if cs.isEmpty then none
  else
    cs.foldlM (fun n c =>
      let digit :=
        if c.isDigit then c.toNat - '0'.toNat
        else if 'a' ≤ c && c ≤ 'f' then c.toNat - 'a'.toNat + 10
        else if 'A' ≤ c && c ≤ 'F' then c.toNat - 'A'.toNat + 10
        else base
      if digit < base then some (n * base + digit) else none) 0

/-- Whether a text is an integer of at most 128 bits to a base that its start names. -/
def isBasedInteger (cs : List Char) : Bool :=
  let unsigned := match cs with
    | '+' :: rest => rest
    | _ => cs
  let within (rest : List Char) (base bound : Nat) : Bool :=
    match digitsToBase? base rest with
    | some n => n < bound
    | none => false
  match unsigned with
  | '0' :: 'x' :: rest => within rest 16 (Nat.pow 2 128)
  | '0' :: 'o' :: rest => within rest 8 (Nat.pow 2 128)
  | '0' :: 'b' :: rest => within rest 2 (Nat.pow 2 128)
  | '-' :: '0' :: 'x' :: rest => cs.head? = some '-' && within rest 16 (Nat.pow 2 127 + 1)
  | '-' :: '0' :: 'o' :: rest => cs.head? = some '-' && within rest 8 (Nat.pow 2 127 + 1)
  | '-' :: '0' :: 'b' :: rest => cs.head? = some '-' && within rest 2 (Nat.pow 2 127 + 1)
  | _ => false

/-- Whether a decimal is below the least number that is rounded to infinity. -/
def isFinite (significand : Nat) (power : Int) : Bool :=
  if significand = 0 then true
  else
    let digits : Int := (toString significand).length
    if 310 < digits + power then false
    else if digits + power < 309 then true
    else
      (Binary64.ofRatio? false (significand * Nat.pow 10 power.toNat)
        (Nat.pow 10 (-power).toNat)).isSome

def exponent? (cs : List Char) : Option Int :=
  match cs with
  | [] => some 0
  | c :: rest =>
      if c = 'e' || c = 'E' then
        (digitsToBase? 10 (withoutSign rest)).map fun n =>
          if rest.head? = some '-' then -(n : Int) else n
      else none

def isDecimal (cs : List Char) : Bool :=
  let body := withoutSign cs
  let whole := body.takeWhile Char.isDigit
  let rest := body.dropWhile Char.isDigit
  let (fraction, rest) := match rest with
    | '.' :: more => (more.takeWhile Char.isDigit, more.dropWhile Char.isDigit)
    | _ => ([], rest)
  match digitsToBase? 10 (whole ++ fraction), exponent? rest with
  | some significand, some power => isFinite significand (power - fraction.length)
  | _, _ => false

/-- Whether a text is a number, or one of the names of infinity and of what is no number. -/
def isNumber (cs : List Char) : Bool :=
  let unsigned := match cs with
    | '+' :: rest => rest
    | _ => cs
  isBasedInteger cs || [".inf", ".Inf", ".INF"].contains (String.ofList unsigned) ||
    ["-.inf", "-.Inf", "-.INF", ".nan", ".NaN", ".NAN"].contains (String.ofList cs) ||
    (!(cs.head? = some '+' && (unsigned.head? = some '+' || unsigned.head? = some '-')) &&
      isDecimal cs)

/-- Whether a text without quotes would read back as something else than a text. -/
def isAmbiguous (s : String) : Bool :=
  ["", "null", "Null", "NULL", "~", "true", "True", "TRUE", "false", "False", "FALSE"].contains s ||
    isZeroPadded s.toList || isNumber s.toList

def styleOf (s : String) : ScalarStyle :=
  let cs := s.toList
  if cs.contains '\n' then
    if literalAllowed cs then .literal else .doubleQuoted
  else if !isAmbiguous s && plainAllowed cs then .plain
  else if singleQuotedAllowed cs then .singleQuoted
  else .doubleQuoted

/-! ## Writing the styles -/

def spaces (indent : Nat) : List Char := List.replicate indent ' '

/-- Inside single quotes: a quote is written twice, and the text goes on at the indentation after
every run of line breaks. -/
def singleQuotedBody (indent : Nat) : Bool → List Char → List Char
  | afterBreak, [] => if afterBreak then spaces indent else []
  | afterBreak, c :: rest =>
      if isBreak c then c :: singleQuotedBody indent true rest
      else
        (if afterBreak then spaces indent else []) ++
          (if c = '\'' then ['\'', '\''] else [c]) ++ singleQuotedBody indent false rest

def escapeDigits : List Char := "0123456789ABCDEF".toList

def hexadecimal : Nat → Nat → List Char
  | 0, _ => []
  | places + 1, n => hexadecimal places (n / 16) ++ [escapeDigits.getD (n % 16) '0']

def letterEscapes : List (Nat × Char) :=
  [(0x00, '0'), (0x07, 'a'), (0x08, 'b'), (0x09, 't'), (0x0A, 'n'), (0x0B, 'v'), (0x0C, 'f'),
    (0x0D, 'r'), (0x1B, 'e'), (0x22, '"'), (0x5C, '\\'), (0x85, 'N'), (0xA0, '_'),
    (0x2028, 'L'), (0x2029, 'P')]

def doubleQuotedChar (c : Char) : List Char :=
  if isPrintable c && !isBreak c && c ≠ '"' && c ≠ '\\' then [c]
  else
    match letterEscapes.find? fun e => e.1 = c.toNat with
    | some (_, letter) => ['\\', letter]
    | none =>
        if c.toNat ≤ 0xFF then '\\' :: 'x' :: hexadecimal 2 c.toNat
        else if c.toNat ≤ 0xFFFF then '\\' :: 'u' :: hexadecimal 4 c.toNat
        else '\\' :: 'U' :: hexadecimal 8 c.toNat

/-- The marks after the bar of a literal text: an indentation if the text does not begin with a
visible character, and what becomes of the line breaks at its end. -/
def literalMarks (cs : List Char) : List Char :=
  let startsBlank := match cs.head? with
    | some c => c = ' ' || isBreak c
    | none => false
  let chomping := match cs.reverse with
    | last :: before =>
        if !isBreak last then ['-']
        else match before with
          | [] => ['+']
          | c :: _ => if isBreak c then ['+'] else []
    | [] => ['-']
  (if startsBlank then ['2'] else []) ++ chomping

/-- The lines of a literal text: each begins at the indentation, but an empty line has none. -/
def literalBody (indent : Nat) : Bool → List Char → List Char
  | _, [] => []
  | atLineStart, c :: rest =>
      if isBreak c then c :: literalBody indent true rest
      else (if atLineStart then spaces indent else []) ++ c :: literalBody indent false rest

/-- A text as a scalar that continues at the given indentation. -/
def scalarText (indent : Nat) (s : String) : String :=
  let cs := s.toList
  match styleOf s with
  | .plain => s
  | .singleQuoted => String.ofList ('\'' :: singleQuotedBody indent false cs ++ ['\''])
  | .doubleQuoted => String.ofList ('"' :: cs.flatMap doubleQuotedChar ++ ['"'])
  | .literal => String.ofList ('|' :: literalMarks cs ++ '\n' :: literalBody indent true cs)

/-- Whether a scalar leaves off at the beginning of a line. -/
def endsLine (s : String) : Bool :=
  styleOf s = .literal && (match s.toList.getLast? with
    | some c => isBreak c
    | none => false)

end Yaml

end SiteOperator
