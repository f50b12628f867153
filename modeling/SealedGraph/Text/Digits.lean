/-!
# Numbers as text

Natural numbers and integers in decimal, natural numbers in hexadecimal, and the decimal texts of
numbers that have to fit a range. A sign is optional where it is allowed at all, leading zeros are
free, and nothing but digits may follow.

* `natText_ne_nil`: a number has at least one digit.
-/

namespace SealedGraph.Text

/-- The value of a decimal digit. -/
def digit? (c : Char) : Option Nat :=
  if '0' ≤ c ∧ c ≤ '9' then some (c.toNat - '0'.toNat) else none

/-- The value of a hexadecimal digit of either case. -/
def hexDigit? (c : Char) : Option Nat :=
  if '0' ≤ c ∧ c ≤ '9' then some (c.toNat - '0'.toNat)
  else if 'a' ≤ c ∧ c ≤ 'f' then some (c.toNat - 'a'.toNat + 10)
  else if 'A' ≤ c ∧ c ≤ 'F' then some (c.toNat - 'A'.toNat + 10)
  else none

/-- The digit of a value below sixteen, in lower case. -/
def hexDigit (n : Nat) : Char :=
  if n < 10 then Char.ofNat ('0'.toNat + n) else Char.ofNat ('a'.toNat + (n - 10))

/-- The digits of `n` in base `b`, at most `fuel` of them, in front of `acc`. -/
def digitsAux (b : Nat) : Nat → Nat → List Char → List Char
  | 0, _, acc => acc
  | fuel + 1, n, acc =>
    let acc := hexDigit (n % b) :: acc
    if n / b = 0 then acc else digitsAux b fuel (n / b) acc

/-- The decimal digits of a number. -/
def natText (n : Nat) : List Char := digitsAux 10 (n + 1) n []

/-- The hexadecimal digits of a number, in lower case. -/
def hexText (n : Nat) : List Char := digitsAux 16 (n + 1) n []

/-- An integer in decimal, with a sign if it is negative. -/
def intText : Int → List Char
  | .ofNat n => natText n
  | .negSucc n => '-' :: natText (n + 1)

/-- At least `width` characters, filled up with zeros in front. -/
def padZero (width : Nat) (cs : List Char) : List Char :=
  List.replicate (width - cs.length) '0' ++ cs

/-- The value of the digits `cs` in base `b`, after digits of value `acc`. -/
def readDigits (b : Nat) : List Char → Nat → Option Nat
  | [], acc => some acc
  | c :: cs, acc =>
    match hexDigit? c with
    | some d => if d < b then readDigits b cs (acc * b + d) else none
    | none => none

/-- A number in base `b`: one digit at least, and digits only. -/
def readBase (b : Nat) : List Char → Option Nat
  | [] => none
  | c :: cs => readDigits b (c :: cs) 0

/-- A number of base `b` at most `hi`, with an optional plus sign. -/
def readUnsigned (b hi : Nat) (cs : List Char) : Option Nat :=
  let body := match cs with
    | '+' :: cs => cs
    | cs => cs
  (readBase b body).filter (· ≤ hi)

/-- A number of base `b` between `lo` and `hi`, with an optional sign. -/
def readSigned (b : Nat) (lo hi : Int) (cs : List Char) : Option Int :=
  let value := match cs with
    | '-' :: cs => (readBase b cs).map fun n => -(n : Int)
    | '+' :: cs => (readBase b cs).map Int.ofNat
    | cs => (readBase b cs).map Int.ofNat
  value.filter fun i => lo ≤ i ∧ i ≤ hi

/-- The largest value of an unsigned word of `w` bits. -/
def maxUnsigned (w : Nat) : Nat := Nat.pow 2 w - 1

/-- The largest value of a signed word of `w` bits. -/
def maxSigned (w : Nat) : Int := (Nat.pow 2 (w - 1) : Nat) - 1

/-- The smallest value of a signed word of `w` bits. -/
def minSigned (w : Nat) : Int := -(Nat.pow 2 (w - 1) : Nat)

/-- A decimal number that fits an unsigned word of `w` bits. -/
def readWord (w : Nat) (cs : List Char) : Option Nat := readUnsigned 10 (maxUnsigned w) cs

/-- A decimal number that fits a signed word of sixty-four bits. -/
def readInt64 (cs : List Char) : Option Int64 :=
  (readSigned 10 (minSigned 64) (maxSigned 64) cs).map Int64.ofInt

/-- The text of a signed word. -/
def int64Text (i : Int64) : List Char := intText i.toInt

/-- A byte as two hexadecimal digits. -/
def byteHex (b : UInt8) : List Char := [hexDigit (b.toNat / 16), hexDigit (b.toNat % 16)]

/-- Bytes as pairs of hexadecimal digits. -/
def bytesHex (bs : List UInt8) : List Char := bs.flatMap byteHex

/-- The bytes of pairs of hexadecimal digits. -/
def readBytesHex : List Char → Option (List UInt8)
  | [] => some []
  | [_] => none
  | x :: y :: cs => do
    let x ← hexDigit? x
    let y ← hexDigit? y
    (readBytesHex cs).map (UInt8.ofNat (x * 16 + y) :: ·)

theorem digitsAux_ne_nil (b fuel n : Nat) (acc : List Char) (h : fuel ≠ 0) :
    digitsAux b fuel n acc ≠ [] := by
  induction fuel generalizing n acc with
  | zero => exact absurd rfl h
  | succ fuel ih =>
    unfold digitsAux
    split
    · simp
    · cases fuel with
      | zero => simp [digitsAux]
      | succ fuel => exact ih _ _ (by simp)

theorem natText_ne_nil (n : Nat) : natText n ≠ [] := digitsAux_ne_nil _ _ _ _ (by simp)

end SealedGraph.Text

namespace SealedGraph

/-- A number in decimal, as a string. -/
def decimal (n : Nat) : String := String.ofList (Text.natText n)

end SealedGraph
