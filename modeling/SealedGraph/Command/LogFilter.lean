import SealedGraph.Pattern.Reader
import SealedGraph.Text.Digits
import SealedGraph.Text.Split

/-!
# Filters of a log

Which texts say what is logged. A filter is a list of directives with commas between them, where
nothing between two commas is no directive. A directive is a level, or what it is about and perhaps
a level behind an equals sign; what it is about is the name of a part of the program, a span in
brackets, or both. A span may have a name and, in braces, a field, which may have a value: a number
or a pattern.

A directive is read without the blanks around it, but its parts are taken from the text with them,
between the same numbers of bytes. So blanks in front of a directive move all of its parts, and a
part may then start or end within a character.
-/

namespace SealedGraph.Command.LogFilter

/-- Why a text is no filter. -/
inductive Flaw
  | malformed
  /-- a part of it starts or ends within a character -/
  | torn
  deriving DecidableEq, Repr

/-! ## Parts of directives -/

/-- The words for levels. -/
def levelWords : List (List Char) :=
  ["error", "warn", "info", "debug", "trace", "off"].map String.toList

/-- The highest level that is written as a number. -/
def maxLevel : Nat := 5

/-- Whether a text is a level: a word in letters of either case, a number, or nothing. -/
def isLevel (cs : List Char) : Bool :=
  cs = [] || levelWords.contains (cs.map Char.toLower) ||
    (Text.readUnsigned 10 maxLevel cs).isSome

/-- A text without the sign in front of it. -/
def unsigned : List Char → List Char
  | '+' :: cs => cs
  | '-' :: cs => cs
  | cs => cs

/-- The words for numbers that have no digits. -/
def numberWords : List (List Char) := ["inf", "infinity", "nan"].map String.toList

/-- Whether a text is the exponent of a number, or nothing. -/
def isExponent : List Char → Bool
  | [] => true
  | c :: cs => (c = 'e' || c = 'E') && (Text.readBase 10 (unsigned cs)).isSome

/-- Whether a text is digits with a point among or beside them, and perhaps an exponent. -/
def isMagnitude (cs : List Char) : Bool :=
  let whole := cs.takeWhile Char.isDigit
  let (fraction, rest) := match cs.dropWhile Char.isDigit with
    | '.' :: rest => (rest.takeWhile Char.isDigit, rest.dropWhile Char.isDigit)
    | rest => ([], rest)
  !(whole ++ fraction).isEmpty && isExponent rest

/-- Whether a text is a number. -/
def isNumber (cs : List Char) : Bool :=
  numberWords.contains ((unsigned cs).map Char.toLower) || isMagnitude (unsigned cs)

/-- Whether a text is the value of a field. -/
def isValue (cs : List Char) : Bool :=
  isNumber cs || (Pattern.ofText? cs).any Pattern.isUsable

/-- Whether a text is a field: a name, and perhaps a value behind an equals sign; what follows one
more equals sign does not count. -/
def isField (cs : List Char) : Bool :=
  !cs.isEmpty && match Text.split '=' cs with
    | _ :: value :: _ => isValue value
    | _ => true

/-! ## Directives -/

/-- The text behind some bytes. -/
def behind? : (bytes : Nat) → List Char → Option (List Char)
  | 0, cs => some cs
  | _, [] => none
  | n, c :: cs => if c.utf8Size ≤ n then behind? (n - c.utf8Size) cs else none

/-- The text up to some bytes. -/
def upTo? : (bytes : Nat) → List Char → Option (List Char)
  | 0, _ => some []
  | _, [] => none
  | n, c :: cs =>
    if c.utf8Size ≤ n then (upTo? (n - c.utf8Size) cs).map (c :: ·) else none

/-- The part of a text that starts behind `start` bytes and ends before the byte `stop`. -/
def part (text : List Char) (start stop : Nat) : Except Flaw (List Char) :=
  match (behind? start text).bind (upTo? (stop - start)) with
  | some cs => .ok cs
  | none => .error .torn

/-- The part of a text that starts behind `start` bytes. -/
def partFrom (text : List Char) (start : Nat) : Except Flaw (List Char) :=
  match behind? start text with
  | some cs => .ok cs
  | none => .error .torn

/-- Fails unless a text is as it has to be. -/
def require (b : Bool) : Except Flaw Unit := if b then .ok () else .error .malformed

/-- What a directive is in the middle of, with the number of bytes before that. -/
inductive Place
  | start
  /-- a level or the name of a part of the program -/
  | name (start : Nat)
  | span (start : Nat)
  | field (start : Nat)
  | fieldEnd
  | spanEnd
  | level (start : Nat)
  deriving DecidableEq, Repr

/-- A character that a directive may start with, besides a bracket. -/
def isStart (c : Char) : Bool := Text.isAlphanumeric c || ['-', ':', '_'].contains c

/-- The place behind one more character, which has `i` bytes in front of it. -/
def Place.next (text : List Char) (i : Nat) (p : Place) (c : Char) : Except Flaw Place :=
  match p with
  | .start => do
    if c = '[' then return .span (i + 1)
    require (isStart c)
    return .name i
  | .name s => do
    if c = '=' then
      let _ ← part text s i
      return .level (i + 1)
    else if c = '[' then
      let _ ← part text s i
      return .span (i + 1)
    else return .name s
  | .span s => do
    if c = ']' then
      let _ ← part text s i
      return .spanEnd
    else if c = '{' then
      let _ ← part text s i
      return .field (i + 1)
    else return .span s
  | .field s => do
    if c = '}' then
      require (isField (← part text s i))
      return .fieldEnd
    else return .field s
  | .fieldEnd => if c = ']' then return .spanEnd else throw .malformed
  | .spanEnd => if c = '=' then return .level (i + 1) else throw .malformed
  | .level s => return .level s

/-- Whether a directive may end at a place. -/
def Place.finish (text : List Char) : Place → Except Flaw Unit
  | .name _ => .ok ()
  | .spanEnd => .ok ()
  | .level s => do require (isLevel (← partFrom text s))
  | _ => .error .malformed

/-- Reads a directive on from a place with `i` bytes in front of it. -/
def readFrom (text : List Char) : (i : Nat) → Place → List Char → Except Flaw Unit
  | _, p, [] => p.finish text
  | i, p, c :: cs => do readFrom text (i + c.utf8Size) (← p.next text i c) cs

/-- Reads a directive. -/
def readDirective (text : List Char) : Except Flaw Unit := readFrom text 0 .start (Text.trim text)

/-- Reads a filter. -/
def read (text : String) : Except Flaw Unit :=
  ((Text.split ',' text.toList).filter fun d => !d.isEmpty).forM readDirective

end SealedGraph.Command.LogFilter
