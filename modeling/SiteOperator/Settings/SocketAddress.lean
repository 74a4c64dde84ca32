/-!
# Socket addresses

An address of the Internet protocol, version 4 or 6, with a port.  A version 6 address stands in
brackets, may leave out one run of zero groups, may end in a version 4 address and may have a
scope.
-/

namespace SiteOperator

/-- An address with a port. -/
inductive SocketAddress where
  | v4 (octets : List Nat) (port : Nat)
  | v6 (groups : List Nat) (scope : Nat) (port : Nat)
  deriving DecidableEq

namespace SocketAddress

def digit? (base : Nat) (c : Char) : Option Nat :=
  let value :=
    if c.isDigit then c.toNat - '0'.toNat
    else if 'a' ≤ c && c ≤ 'f' then c.toNat - 'a'.toNat + 10
    else if 'A' ≤ c && c ≤ 'F' then c.toNat - 'A'.toNat + 10
    else base
  if value < base then some value else none

/-- A number of at most `most` digits and below a bound, with the rest of the text. -/
def number? (base most bound : Nat) (zeroPadded : Bool) (cs : List Char) :
    Option (Nat × List Char) :=
  let digits := cs.takeWhile fun c => (digit? base c).isSome
  let value := digits.foldl (fun n c => n * base + (digit? base c).getD 0) 0
  if digits.isEmpty || most < digits.length || bound ≤ value then none
  else if !zeroPadded && digits.head? = some '0' && 1 < digits.length then none
  else some (value, cs.drop digits.length)

def after? (c : Char) : List Char → Option (List Char)
  | d :: rest => if d = c then some rest else none
  | [] => none

def octet? (cs : List Char) : Option (Nat × List Char) := number? 10 3 256 false cs

def octets? (cs : List Char) : Option (List Nat × List Char) := do
  let (a, cs) ← octet? cs
  let (b, cs) ← octet? (← after? '.' cs)
  let (c, cs) ← octet? (← after? '.' cs)
  let (d, cs) ← octet? (← after? '.' cs)
  return ([a, b, c, d], cs)

/-- A part of an address after the colon that separates it from the part before it. -/
def separated? (isFirst : Bool) (cs : List Char) : Option (List Char) :=
  if isFirst then some cs else after? ':' cs

/-- The groups at the beginning of a text, at most `most` of them, with the rest of the text.  The
last two may be four octets, and then nothing follows them. -/
def groups (isFirst : Bool) : Nat → List Char → List Nat × Bool × List Char
  | 0, cs => ([], false, cs)
  | most + 1, cs =>
      match (if most = 0 then none else (separated? isFirst cs).bind octets?) with
      | some ([a, b, c, d], rest) => ([a * 256 + b, c * 256 + d], true, rest)
      | _ => match (separated? isFirst cs).bind (number? 16 4 65536 true) with
          | none => ([], false, cs)
          | some (group, rest) =>
              let (more, embedded, rest) := groups false most rest
              (group :: more, embedded, rest)

/-- The eight groups of an address, with the rest of the text. -/
def address6? (cs : List Char) : Option (List Nat × List Char) :=
  let (head, embedded, rest) := groups true 8 cs
  if head.length = 8 then some (head, rest)
  else if embedded then none
  else do
    let rest ← after? ':' rest
    let rest ← after? ':' rest
    let (tail, _, rest) := groups true (7 - head.length) rest
    return (head ++ List.replicate (8 - head.length - tail.length) 0 ++ tail, rest)

def port? (cs : List Char) : Option Nat := do
  let (port, rest) ← number? 10 cs.length 65536 true (← after? ':' cs)
  if rest.isEmpty then some port else none

def parse4? (cs : List Char) : Option SocketAddress := do
  let (octets, rest) ← octets? cs
  return .v4 octets (← port? rest)

def parse6? (cs : List Char) : Option SocketAddress := do
  let (groups, rest) ← address6? (← after? '[' cs)
  let (scope, rest) ← match rest with
    | '%' :: more => number? 10 more.length (Nat.pow 2 32) true more
    | _ => some (0, rest)
  return .v6 groups scope (← port? (← after? ']' rest))

def parse? (text : String) : Option SocketAddress :=
  (parse4? text.toList).or (parse6? text.toList)

def hexadecimal (n : Nat) : String := String.ofList (Nat.toDigits 16 n)

/-- The longest run of zeros, as its start and its length; of several the first. -/
def longestZeros : Nat → Nat × Nat → Nat × Nat → List Nat → Nat × Nat
  | _, _, longest, [] => longest
  | index, current, longest, group :: rest =>
      if group = 0 then
        let current := if current.2 = 0 then (index, 1) else (current.1, current.2 + 1)
        longestZeros (index + 1) current (if longest.2 < current.2 then current else longest) rest
      else longestZeros (index + 1) (0, 0) longest rest

def octetText (octets : List Nat) : String := ".".intercalate (octets.map toString)

/-- The text of eight groups: an embedded version 4 address is shown as one, and otherwise the
longest run of at least two zeros is left out. -/
def groupText (groups : List Nat) : String :=
  match groups with
  | [0, 0, 0, 0, 0, 0xFFFF, high, low] =>
      "::ffff:" ++ octetText [high / 256, high % 256, low / 256, low % 256]
  | _ =>
      let join (part : List Nat) : String := ":".intercalate (part.map hexadecimal)
      let (start, length) := longestZeros 0 (0, 0) (0, 0) groups
      if 1 < length then join (groups.take start) ++ "::" ++ join (groups.drop (start + length))
      else join groups

def text : SocketAddress → String
  | v4 octets port => octetText octets ++ ":" ++ toString port
  | v6 groups scope port =>
      "[" ++ groupText groups ++ (if scope = 0 then "" else "%" ++ toString scope) ++ "]:" ++
        toString port

end SocketAddress

end SiteOperator
