/-!
# Double precision numbers

Numbers of sixty-four bits, kept as their bits so that two of them are equal when nothing can tell
them apart. A decimal is read as a significand that fits a word and a power of ten; the power is
applied in one multiplication or division where the powers of ten reach that far.
-/

namespace SealedGraph

/-- A double precision number. -/
structure Double where
  bits : UInt64
  deriving DecidableEq, Repr, Inhabited

namespace Double

/-- The number of the machine's own kind. -/
def toFloat (x : Double) : Float := Float.ofBits x.bits

/-- The number with the bits of the machine's own kind. -/
def ofFloat (x : Float) : Double := ⟨x.toBits⟩

/-- The number nearest to a word. -/
def ofNat (n : Nat) : Double := ofFloat (UInt64.ofNat n).toFloat

/-- The same number with the other sign. -/
def neg (x : Double) : Double := ⟨x.bits ^^^ 0x8000000000000000⟩

/-- A number below zero, or the zero that is written with a sign. -/
def isNegative (x : Double) : Bool := x.bits >>> 63 = 1

/-- The bits between the sign and the fraction. -/
def exponentField (x : Double) : Nat := (x.bits >>> 52).toNat % 2048

/-- The bits of the fraction. -/
def fractionField (x : Double) : Nat := x.bits.toNat % Nat.pow 2 52

/-- Neither infinite nor no number at all. -/
def isFinite (x : Double) : Bool := x.exponentField ≠ 2047

/-- The largest exponent of a power of ten below infinity. -/
def maxPower : Nat := 308

/-- A power of ten. -/
def power (n : Nat) : Float := Float.ofScientific 1 false n

/-- `f` times the power of ten with a negative exponent `-n`, in as many divisions as needed. -/
def divideByPower : Nat → Float → Nat → Float
  | 0, f, _ => f
  | fuel + 1, f, n =>
    if n ≤ maxPower then f / power n
    else if f == 0 then f
    else divideByPower fuel (f / power maxPower) (n - maxPower)

/-- `significand` times ten to the `exponent`, unless that is infinite. -/
def ofDecimal (significand : Nat) (exponent : Int) : Option Double :=
  let f := (UInt64.ofNat significand).toFloat
  match exponent with
  | .ofNat n =>
    if n ≤ maxPower then
      let f := f * power n
      if f.isInf then none else some (ofFloat f)
    else if f == 0 then some (ofFloat f) else none
  | .negSucc n => some (ofFloat (divideByPower (n / maxPower + 1) f (n + 1)))

end Double

end SealedGraph
