import SealedGraph.Double.Shortest

/-!
# Numbers of JSON

The form of a number as states of a scan, the value of a scanned number, and the texts of values. A
number without a point and an exponent is an integer as long as it fits a word, signed below zero
and unsigned above; everything else, and a zero with a sign, has double precision. Digits beyond
those that fit a word only move the point.
-/

namespace SealedGraph.Json

/-- The value of a number. -/
inductive Number
  | integer (i : Int)
  | double (x : Double)
  deriving DecidableEq, Repr, Inhabited

namespace Number

/-- How far the scan of a number has come. -/
inductive Phase
  /-- behind the sign -/
  | sign
  /-- behind a zero in front -/
  | zero
  /-- within the whole part -/
  | whole
  /-- behind the point -/
  | point
  /-- within the part behind the point -/
  | fraction
  /-- behind the letter of the exponent -/
  | mark
  /-- behind the sign of the exponent -/
  | markSign
  /-- within the exponent -/
  | power
  deriving DecidableEq, Repr

/-- What the next character does to a scan. -/
inductive Advance
  | go (phase : Phase)
  /-- the number ended before this character -/
  | stop
  /-- no number goes on like this -/
  | fail
  deriving DecidableEq, Repr

namespace Phase

/-- The phase that a character begins, if a number can start with it. -/
def first? (c : Char) : Option Phase :=
  if c = '-' then some sign
  else if c = '0' then some zero
  else if c.isDigit then some whole
  else none

/-- Whether a number may end in the phase. -/
def complete : Phase → Bool
  | zero | whole | fraction | power => true
  | sign | point | mark | markSign => false

/-- The move that a character makes in a phase. -/
def advance (phase : Phase) (c : Char) : Advance :=
  let exponent := c = 'e' || c = 'E'
  match phase with
  | sign => if c = '0' then .go zero else if c.isDigit then .go whole else .fail
  | zero =>
    if c.isDigit then .fail else if c = '.' then .go point else if exponent then .go mark else .stop
  | whole =>
    if c.isDigit then .go whole
    else if c = '.' then .go point else if exponent then .go mark else .stop
  | point => if c.isDigit then .go fraction else .fail
  | fraction => if c.isDigit then .go fraction else if exponent then .go mark else .stop
  | mark => if c.isDigit then .go power else if c = '+' ∨ c = '-' then .go markSign else .fail
  | markSign => if c.isDigit then .go power else .fail
  | power => if c.isDigit then .go power else .stop

end Phase

/-- The largest significand. -/
def maxSignificand : Nat := Text.maxUnsigned 64

/-- The significand with the leading digits of `digits` behind it as far as they fit, and the digits
that do not. -/
def gather (significand : Nat) : List Char → Nat × List Char
  | [] => (significand, [])
  | c :: cs =>
    let next := significand * 10 + (c.toNat - '0'.toNat)
    if next ≤ maxSignificand then gather next cs else (significand, c :: cs)

/-- The value of the digits of an exponent with its sign. -/
def exponentOf : List Char → Int
  | '-' :: cs => -((Text.readBase 10 cs).getD 0 : Int)
  | '+' :: cs => ((Text.readBase 10 cs).getD 0 : Int)
  | cs => ((Text.readBase 10 cs).getD 0 : Int)

/-- The value of a number without its sign, if it is finite: its whole part, and what follows it. -/
def magnitude (whole rest : List Char) : Option Double :=
  let (significand, beyond) := gather 0 whole
  match rest with
  | '.' :: rest =>
    let digits := rest.takeWhile Char.isDigit
    let (significand, skipped) := gather significand digits
    let moved : Int := beyond.length - (digits.length - skipped.length : Nat)
    Double.ofDecimal significand (moved + exponentOf ((rest.drop digits.length).drop 1))
  | rest => Double.ofDecimal significand (beyond.length + exponentOf (rest.drop 1))

/-- The value of a scanned number, if it is finite. -/
def ofText (text : List Char) : Option Number :=
  let (negative, body) := match text with
    | '-' :: cs => (true, cs)
    | cs => (false, cs)
  let whole := body.takeWhile Char.isDigit
  let rest := body.drop whole.length
  let (n, beyond) := gather 0 whole
  if rest.isEmpty && beyond.isEmpty && !(negative && (n = 0 || -n < Text.minSigned 64)) then
    some (.integer (if negative then -n else n))
  else (magnitude whole rest).map fun x => .double (if negative then x.neg else x)

/-! ## Texts -/

/-- Digits with a point after the first `n`. -/
def pointed (n : Nat) (digits : List Char) : List Char := digits.take n ++ '.' :: digits.drop n

/-- A decimal: with a point and no exponent from ten to the minus five up to ten to the sixteen,
with one digit before the point and an exponent beyond. -/
def decimalText (d : Double.Decimal) : List Char :=
  let digits := Text.natText d.digits
  let point := digits.length + d.exponent
  if 0 ≤ d.exponent ∧ point ≤ 16 then
    digits ++ List.replicate d.exponent.toNat '0' ++ ['.', '0']
  else if 0 < point ∧ point ≤ 16 then pointed point.toNat digits
  else if -5 < point ∧ point ≤ 0 then '0' :: '.' :: List.replicate (-point).toNat '0' ++ digits
  else (if digits.length = 1 then digits else pointed 1 digits) ++ 'e' :: Text.intText (point - 1)

/-- The text of a double precision number; one that is not finite has none but `null`. -/
def doubleText (x : Double) : List Char :=
  if x.isFinite then
    let sign := if x.isNegative then ['-'] else []
    if x.exponentField = 0 ∧ x.fractionField = 0 then sign ++ ['0', '.', '0']
    else sign ++ decimalText x.shortest
  else ['n', 'u', 'l', 'l']

/-- The text of a number. -/
def text : Number → List Char
  | integer i => Text.intText i
  | double x => doubleText x

end Number

end SealedGraph.Json
