import SealedGraph.Json.Number

/-!
# Tokens of JSON

A text as a list of tokens, scanned by a machine that reads one character at a time. Where the text
stops being JSON the list ends in `junk`, and nothing after that place is read. A string may name
a surrogate without its partner and a number may be too large for any double; the token says so,
and whoever only skips the token need not care.
-/

namespace SealedGraph.Json

/-- A token. -/
inductive Token
  | openArray
  | closeArray
  | openObject
  | closeObject
  | colon
  | comma
  | null
  | bool (b : Bool)
  /-- `none` is a number out of range -/
  | number (value : Option Number)
  /-- `none` is a string with a surrogate that has no partner -/
  | string (value : Option String)
  /-- the text goes on in a way that is no token -/
  | junk
  deriving DecidableEq, Repr

namespace Token

/-- A code of a string that needs a partner before or after it. -/
def isHigh (code : Nat) : Bool := 0xD800 ≤ code && code < 0xDC00

/-- A code of a string that needs a partner before it. -/
def isLow (code : Nat) : Bool := 0xDC00 ≤ code && code < 0xE000

/-- The character of two partners. -/
def pairChar (high low : Nat) : Char :=
  Char.ofNat (0x10000 + (high - 0xD800) * 1024 + (low - 0xDC00))

/-- The text of the codes of a string, unless one is without its partner. -/
def charsOfCodes : List Nat → Option (List Char)
  | [] => some []
  | [a] => if isHigh a || isLow a then none else some [Char.ofNat a]
  | a :: b :: codes =>
    if isHigh a then
      if isLow b then (charsOfCodes codes).map (pairChar a b :: ·) else none
    else if isLow a then none
    else (charsOfCodes (b :: codes)).map (Char.ofNat a :: ·)

/-- The string of the codes that were read, the latest first. -/
def ofCodes (codes : List Nat) : Token :=
  .string ((charsOfCodes codes.reverse).map String.ofList)

/-- What the machine is in the middle of. -/
inductive State
  /-- between tokens -/
  | between
  /-- a word of which these characters are still to come -/
  | word (rest : List Char) (token : Token)
  | number (phase : Number.Phase) (read : List Char)
  | string (codes : List Nat)
  | escape (codes : List Nat)
  /-- the digits of a code, some of them still to come -/
  | hex (codes : List Nat) (missing value : Nat)
  deriving DecidableEq, Repr

/-- The blanks between tokens. -/
def isSpace (c : Char) : Bool := c = ' ' || c = '\t' || c = '\n' || c = '\r'

/-- The code of a character after a backslash. -/
def escapeCode? : Char → Option Nat
  | '"' => some 0x22
  | '\\' => some 0x5C
  | '/' => some 0x2F
  | 'b' => some 0x08
  | 'f' => some 0x0C
  | 'n' => some 0x0A
  | 'r' => some 0x0D
  | 't' => some 0x09
  | _ => none

/-- What a character between tokens begins: tokens that it completes, and the state after it. -/
def start (c : Char) : List Token × Option State :=
  if isSpace c then ([], some .between)
  else match c with
    | '[' => ([.openArray], some .between)
    | ']' => ([.closeArray], some .between)
    | '{' => ([.openObject], some .between)
    | '}' => ([.closeObject], some .between)
    | ':' => ([.colon], some .between)
    | ',' => ([.comma], some .between)
    | '"' => ([], some (.string []))
    | 't' => ([], some (.word ['r', 'u', 'e'] (.bool true)))
    | 'f' => ([], some (.word ['a', 'l', 's', 'e'] (.bool false)))
    | 'n' => ([], some (.word ['u', 'l', 'l'] .null))
    | c => ([], (Number.Phase.first? c).map (.number · [c]))

/-- The tokens that a character completes, and the state after it, if there is any. -/
def step : State → Char → List Token × Option State
  | .between, c => start c
  | .word (w :: ws) token, c =>
    if c = w then if ws.isEmpty then ([token], some .between) else ([], some (.word ws token))
    else ([], none)
  | .word [] _, _ => ([], none)
  | .number phase read, c =>
    match phase.advance c with
    | .go phase => ([], some (.number phase (c :: read)))
    | .fail => ([], none)
    | .stop =>
      let (tokens, state) := start c
      (.number (Number.ofText read.reverse) :: tokens, state)
  | .string codes, c =>
    if c = '"' then ([ofCodes codes], some .between)
    else if c = '\\' then ([], some (.escape codes))
    else if c.toNat < 0x20 then ([], none)
    else ([], some (.string (c.toNat :: codes)))
  | .escape codes, c =>
    if c = 'u' then ([], some (.hex codes 4 0))
    else ([], (escapeCode? c).map fun code => .string (code :: codes))
  | .hex codes missing value, c =>
    match Text.hexDigit? c with
    | some d =>
      let value := value * 16 + d
      if missing ≤ 1 then ([], some (.string (value :: codes)))
      else ([], some (.hex codes (missing - 1) value))
    | none => ([], none)

/-- The tokens that the end of the text completes. -/
def finish : State → List Token
  | .between => []
  | .number phase read =>
    if phase.complete then [.number (Number.ofText read.reverse)] else [.junk]
  | _ => [.junk]

/-- The tokens of a text read from a state. -/
def scan : State → List Char → List Token
  | state, [] => finish state
  | state, c :: cs =>
    match step state c with
    | (tokens, some state) => tokens ++ scan state cs
    | (tokens, none) => tokens ++ [.junk]

/-- The tokens of a text. -/
def ofText (text : List Char) : List Token := scan .between text

end Token

end SealedGraph.Json
