import SealedGraph.Json.Number
import SealedGraph.Text.Digits

/-!
# Values of JSON and their texts

A value, and its text without any blanks. The members of an object keep their order, and a string
is written with the escapes that JSON demands and no others.
-/

namespace SealedGraph.Json

/-- A value. -/
inductive Value
  | null
  | bool (b : Bool)
  | number (n : Number)
  | string (s : String)
  | array (items : List Value)
  | object (members : List (String × Value))
  deriving Repr, Inhabited

namespace Value

/-- The text of a character in a string. -/
def escapeChar (c : Char) : List Char :=
  if c = '"' then ['\\', '"']
  else if c = '\\' then ['\\', '\\']
  else if c = '\n' then ['\\', 'n']
  else if c = '\r' then ['\\', 'r']
  else if c = '\t' then ['\\', 't']
  else if c.toNat = 0x08 then ['\\', 'b']
  else if c.toNat = 0x0C then ['\\', 'f']
  else if c.toNat < 0x20 then
    ['\\', 'u', '0', '0', Text.hexDigit (c.toNat / 16), Text.hexDigit (c.toNat % 16)]
  else [c]

/-- A string between quotes. -/
def quoted (s : String) : List Char := '"' :: s.toList.flatMap escapeChar ++ ['"']

mutual

/-- The text of a value. -/
def text : Value → List Char
  | .null => ['n', 'u', 'l', 'l']
  | .bool true => ['t', 'r', 'u', 'e']
  | .bool false => ['f', 'a', 'l', 's', 'e']
  | .number n => n.text
  | .string s => quoted s
  | .array items => '[' :: itemsText items ++ [']']
  | .object members => '{' :: membersText members ++ ['}']

/-- The items of an array with commas between them. -/
def itemsText : List Value → List Char
  | [] => []
  | [v] => text v
  | v :: w :: vs => text v ++ ',' :: itemsText (w :: vs)

/-- The members of an object with commas between them. -/
def membersText : List (String × Value) → List Char
  | [] => []
  | [(k, v)] => quoted k ++ ':' :: text v
  | (k, v) :: m :: ms => quoted k ++ ':' :: text v ++ ',' :: membersText (m :: ms)

end

/-- The text of a value as a string. -/
def render (v : Value) : String := String.ofList (text v)

end Value

end SealedGraph.Json
