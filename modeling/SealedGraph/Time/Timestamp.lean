import SealedGraph.Text.Blank
import SealedGraph.Text.Digits
import SealedGraph.Time.Calendar

/-!
# Points in time

Seconds and nanoseconds since the start of 1970 in UTC, and their texts in the form of RFC 3339.
They are written in UTC, with no more digits of a second than needed, in groups of three. What is
read may also have a year of more or fewer than four digits, blanks between its parts, any offset
from UTC, and a leap second.
-/

namespace SealedGraph

/-- A point in time. -/
structure Timestamp where
  /-- seconds since the start of 1970 -/
  seconds : Int
  /-- nanoseconds after that second; a thousand million and more in a leap second -/
  nanos : Nat
  deriving DecidableEq, Repr, Inhabited

namespace Timestamp

open Text

/-- The number of seconds in a day. -/
def secondsOfDay : Int := 86400

/-- The number of nanoseconds in a second. -/
def nanosOfSecond : Nat := 1000000000

/-! ## Writing -/

/-- A year: four digits, and a sign if it needs more of them or is negative. -/
def yearText (year : Int) : List Char :=
  if 0 ≤ year ∧ year ≤ 9999 then padZero 4 (natText year.toNat)
  else if year < 0 then '-' :: padZero 4 (natText year.natAbs)
  else '+' :: padZero 4 (natText year.natAbs)

/-- The part of a second: nothing, or a dot and three, six or nine digits. -/
def fractionText (nanos : Nat) : List Char :=
  if nanos = 0 then []
  else if nanos % 1000000 = 0 then '.' :: padZero 3 (natText (nanos / 1000000))
  else if nanos % 1000 = 0 then '.' :: padZero 6 (natText (nanos / 1000))
  else '.' :: padZero 9 (natText nanos)

/-- Two digits. -/
def pairText (n : Nat) : List Char := padZero 2 (natText n)

/-- The text of a point in time. -/
def text (t : Timestamp) : List Char :=
  let date := Date.ofDays (t.seconds / secondsOfDay)
  let second := (t.seconds % secondsOfDay).toNat
  let (leap, nanos) :=
    if t.nanos < nanosOfSecond then (0, t.nanos) else (1, t.nanos - nanosOfSecond)
  yearText date.year ++ '-' :: pairText date.month ++ '-' :: pairText date.day ++
    'T' :: pairText (second / 3600) ++ ':' :: pairText (second / 60 % 60) ++
    ':' :: pairText (second % 60 + leap) ++ fractionText nanos ++ ['Z']

/-! ## Reading -/

/-- A number of at least one and at most `width` digits, after blanks. -/
def readNumber (width : Nat) (cs : List Char) : Option (Nat × List Char) := do
  let cs := trimStart cs
  let digits := (cs.take width).takeWhile fun c => (digit? c).isSome
  return (← readBase 10 digits, cs.drop digits.length)

/-- A year: at most four digits, or a sign and any number of them. -/
def readYear (cs : List Char) : Option (Int × List Char) :=
  let signed (sign : Int) (cs : List Char) := do
    let digits := cs.takeWhile fun c => (digit? c).isSome
    return (sign * (← readBase 10 digits), cs.drop digits.length)
  match trimStart cs with
  | '-' :: cs => signed (-1) cs
  | '+' :: cs => signed 1 cs
  | cs => (readNumber 4 cs).map fun (n, cs) => ((n : Int), cs)

/-- A number of one or two digits between `lo` and `hi`, after blanks. -/
def readPair (lo hi : Nat) (cs : List Char) : Option (Nat × List Char) := do
  let (n, cs) ← readNumber 2 cs
  if lo ≤ n ∧ n ≤ hi then some (n, cs) else none

/-- The rest of a text that starts with `c`, blanks before it skipped. -/
def expect (c : Char) (cs : List Char) : Option (List Char) :=
  match trimStart cs with
  | d :: cs => if c = d then some cs else none
  | [] => none

/-- The nanoseconds of a dot with digits after it, if there is a dot; digits after the ninth do
not count. -/
def readFraction : List Char → Option (Nat × List Char)
  | '.' :: cs => do
    let digits := cs.takeWhile fun c => (digit? c).isSome
    let kept := digits.take 9
    return ((← readBase 10 kept) * Nat.pow 10 (9 - kept.length), cs.drop digits.length)
  | cs => some (0, cs)

/-- The three letters of UTC in either case. -/
def isUtc (a b c : Char) : Bool :=
  (a = 'U' || a = 'u') && (b = 'T' || b = 't') && (c = 'C' || c = 'c')

/-- Two digits, the first at most `hi`, and what follows them. -/
def readTwo (hi : Nat) : List Char → Option (Nat × List Char)
  | a :: b :: cs => do
    let a ← digit? a
    let b ← digit? b
    if a ≤ hi then some (a * 10 + b, cs) else none
  | _ => none

/-- An offset from UTC in seconds: a sign, two digits for hours, and two for minutes, between which
colons and blanks may stand. -/
def readOffset (cs : List Char) : Option (Int × List Char) :=
  let signed (sign : Int) (cs : List Char) := do
    let (hours, cs) ← readTwo 9 cs
    let (minutes, cs) ← readTwo 5 (cs.dropWhile fun c => c = ':' || isBlank c)
    return (sign * (hours * 3600 + minutes * 60), cs)
  match cs with
  | 'Z' :: cs => some (0, cs)
  | 'z' :: cs => some (0, cs)
  | '+' :: cs => signed 1 cs
  | '-' :: cs => signed (-1) cs
  | '−' :: cs => signed (-1) cs
  | a :: b :: c :: cs => if isUtc a b c then some (0, cs) else none
  | _ => none

/-- The years that a date can have. -/
def minYear : Int := -262143

/-- The years that a date can have. -/
def maxYear : Int := 262142

/-- The first point in time. -/
def minSeconds : Int := (Date.mk minYear 1 1).toDays * secondsOfDay

/-- The last second in time. -/
def maxSeconds : Int := ((Date.mk maxYear 12 31).toDays + 1) * secondsOfDay - 1

/-- The point in time of a text. -/
def parse? (cs : List Char) : Option Timestamp := do
  let (year, cs) ← readYear cs
  let (month, cs) ← readPair 1 12 (← expect '-' cs)
  let (day, cs) ← readPair 1 31 (← expect '-' cs)
  let cs ← match cs with
    | c :: cs => if c = 'T' ∨ c = 't' ∨ c = ' ' then some cs else none
    | [] => none
  let (hour, cs) ← readPair 0 23 cs
  let (minute, cs) ← readPair 0 59 (← expect ':' cs)
  let (second, cs) ← readPair 0 60 (← expect ':' cs)
  let (nanos, cs) ← readFraction cs
  let (offset, cs) ← readOffset (trimStart cs)
  let date : Date := ⟨year, month, day⟩
  let wall := date.toDays * secondsOfDay + (hour * 3600 + minute * 60 + min second 59 : Nat)
  let seconds := wall - offset
  if trimStart cs = [] ∧ minYear ≤ year ∧ year ≤ maxYear ∧ date.isValid = true ∧
      offset.natAbs < secondsOfDay.toNat ∧ minSeconds ≤ seconds ∧ seconds ≤ maxSeconds then
    some ⟨seconds, if second = 60 then nanos + nanosOfSecond else nanos⟩
  else none

end Timestamp

end SealedGraph
