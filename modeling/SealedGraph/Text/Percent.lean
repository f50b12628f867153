import SealedGraph.Text.Digits

/-!
# Percent encoding

A percent sign with two hexadecimal digits stands for one byte; a percent sign with anything else
after it stands for itself.
-/

namespace SealedGraph.Percent

/-- The bytes that a text of a path stands for. -/
def decode : List UInt8 → List UInt8
  | [] => []
  | [a] => [a]
  | [a, b] => [a, b]
  | a :: x :: y :: rest =>
    if a.toNat = 37 then
      match Text.hexDigit? (Char.ofNat x.toNat), Text.hexDigit? (Char.ofNat y.toNat) with
      | some x, some y => UInt8.ofNat (x * 16 + y) :: decode rest
      | _, _ => a :: decode (x :: y :: rest)
    else a :: decode (x :: y :: rest)

end SealedGraph.Percent
