import SiteOperator.Decimal.Shortest
import SiteOperator.Json.Basic

/-!
# JSON texts

`Json.compact` writes a value without any space.  Only the quotation mark, the backslash and the
control characters below U+0020 are escaped in strings, and a double always shows a fraction or an
exponent.
-/

namespace SiteOperator

namespace Number

def text : Number → String
  | int n => toString n
  | double x => NumberLayout.json.render x

end Number

namespace Json

def hexDigits : List Char := "0123456789abcdef".toList

def hexByte (n : Nat) : List Char :=
  [hexDigits.getD (n / 16 % 16) '0', hexDigits.getD (n % 16) '0']

def escapeChar (c : Char) : List Char :=
  if c = '"' then ['\\', '"']
  else if c = '\\' then ['\\', '\\']
  else if c = '\n' then ['\\', 'n']
  else if c = '\t' then ['\\', 't']
  else if c = '\r' then ['\\', 'r']
  else if c.toNat = 8 then ['\\', 'b']
  else if c.toNat = 12 then ['\\', 'f']
  else if c.toNat < 32 then '\\' :: 'u' :: '0' :: '0' :: hexByte c.toNat
  else [c]

def quote (s : String) : String :=
  String.ofList ('"' :: (s.toList.flatMap escapeChar ++ ['"']))

mutual

def compact : Json → String
  | null => "null"
  | bool true => "true"
  | bool false => "false"
  | number n => n.text
  | string s => quote s
  | array items => "[" ++ String.intercalate "," (compactItems items) ++ "]"
  | object fields => "\x7b" ++ String.intercalate "," (compactFields fields) ++ "\x7d"

def compactItems : List Json → List String
  | [] => []
  | item :: rest => compact item :: compactItems rest

def compactFields : List (String × Json) → List String
  | [] => []
  | (key, value) :: rest => (quote key ++ ":" ++ compact value) :: compactFields rest

end

end Json

end SiteOperator
