import SealedGraph.Text.Digits
import SealedGraph.Text.Start

/-!
# The meaning of plain scalars

What a text without quotes stands for: nothing, a truth value, a number, or itself. An integer is
decimal, or has a base of sixteen, eight or two in front of its digits. Digits behind a zero are a
text, not a number, and so is a decimal beyond what double precision reaches.
-/

namespace SealedGraph.Yaml

/-- The meaning of a text. -/
inductive Meaning
  | null
  | truth (b : Bool)
  /-- an integer that fits a word, signed if it is negative -/
  | integer (i : Int)
  /-- an integer that fits two words only -/
  | wide
  | decimal
  | text
  deriving DecidableEq, Repr

namespace Meaning

/-- The spellings of no value. -/
def nulls : List String := ["null", "Null", "NULL", "~"]

/-- The spellings of truth. -/
def truths : List String := ["true", "True", "TRUE"]

/-- The spellings of falsehood. -/
def falsehoods : List String := ["false", "False", "FALSE"]

/-- The truth value of a spelling. -/
def truth? (s : String) : Option Bool :=
  if truths.contains s then some true
  else if falsehoods.contains s then some false
  else none

/-- The bases that can be named, with what names them. -/
def bases : List (List Char × Nat) := [(['0', 'x'], 16), (['0', 'o'], 8), (['0', 'b'], 2)]

/-- Whether a text is digits behind a zero, perhaps with a sign. -/
def isPadded (cs : List Char) : Bool :=
  let body := match cs with
    | c :: rest => if c = '-' ∨ c = '+' then rest else cs
    | [] => []
  match body with
  | '0' :: d :: ds => (d :: ds).all Char.isDigit
  | _ => false

/-- The number that a text without a sign stands for. -/
def natural? (cs : List Char) : Option Nat :=
  match bases.findSome? fun (start, base) => (Text.after? start cs).bind (Text.readBase base) with
  | some n => some n
  | none => if isPadded cs then none else Text.readBase 10 cs

/-- The integer that a text stands for. -/
def integer? : List Char → Option Int
  | '-' :: cs => (natural? cs).map fun n => -(n : Int)
  | '+' :: cs => (natural? cs).map Int.ofNat
  | cs => (natural? cs).map Int.ofNat

/-- Whether an integer fits `n` words of sixty-four bits, signed if it is negative. -/
def fitsWords (n : Nat) (i : Int) : Bool :=
  Text.minSigned (64 * n) ≤ i && i ≤ Text.maxUnsigned (64 * n)

/-- The first number that double precision rounds to infinity. -/
def doubleLimit : Nat := Nat.pow 2 1024 - Nat.pow 2 970

/-- Whether `digits` times ten to the `exponent` rounds to a finite number. -/
def isFiniteDecimal (digits : Nat) (exponent : Int) : Bool :=
  let size := (Text.natText digits).length + exponent
  digits = 0 || size ≤ 308 || size ≤ 309 &&
    digits * Nat.pow 10 exponent.toNat < doubleLimit * Nat.pow 10 (-exponent).toNat

/-- The exponent that ends a decimal: none, or a sign and digits behind a letter. -/
def exponent? : List Char → Option Int
  | [] => some 0
  | c :: cs =>
    if c ≠ 'e' ∧ c ≠ 'E' then none
    else match cs with
      | '-' :: cs => (Text.readBase 10 cs).map fun n => -(n : Int)
      | '+' :: cs => (Text.readBase 10 cs).map Int.ofNat
      | cs => (Text.readBase 10 cs).map Int.ofNat

/-- Whether a text is digits with a point and an exponent as they may be, and finite. -/
def isMagnitude (cs : List Char) : Bool :=
  let whole := cs.takeWhile Char.isDigit
  let rest := cs.drop whole.length
  let (fraction, rest) := match rest with
    | '.' :: rest => (rest.takeWhile Char.isDigit, rest.dropWhile Char.isDigit)
    | rest => ([], rest)
  match Text.readBase 10 (whole ++ fraction), exponent? rest with
  | some digits, some exponent => isFiniteDecimal digits (exponent - fraction.length)
  | _, _ => false

/-- The spellings of infinity. -/
def infinities : List String := [".inf", ".Inf", ".INF"]

/-- The spellings of what is no number. -/
def undefineds : List String := [".nan", ".NaN", ".NAN"]

/-- Whether a text stands for a number of double precision. -/
def isDecimal (cs : List Char) : Bool :=
  let body := match cs with
    | c :: rest => if c = '-' ∨ c = '+' then rest else cs
    | [] => []
  isMagnitude body || infinities.contains (String.ofList body) ||
    undefineds.contains (String.ofList cs)

/-- The meaning of a text without quotes. -/
def ofPlain (s : String) : Meaning :=
  if s = "" ∨ nulls.contains s then .null
  else match truth? s with
    | some b => .truth b
    | none =>
      let other := if !isPadded s.toList && isDecimal s.toList then Meaning.decimal else .text
      match integer? s.toList with
      | some i => if fitsWords 1 i then .integer i else if fitsWords 2 i then .wide else other
      | none => other

end Meaning

end SealedGraph.Yaml
