import SealedGraph.Base64Url
import SealedGraph.Text.Digits

/-!
# Fresh identifiers

Names made from random bytes: session ids, group ids and first passwords.
-/

namespace SealedGraph.Fresh

/-- The bytes of a number, the lowest first. -/
def leBytes : Nat → Nat → List UInt8
  | 0, _ => []
  | n + 1, x => UInt8.ofNat (x % 256) :: leBytes n (x / 256)

/-- Sixteen random bytes with the marks of a random identifier: version four, variant one. -/
def marked (random : List UInt8) : List UInt8 :=
  let random := random.modify 6 fun b => UInt8.ofNat (b.toNat % 16 + 0x40)
  random.modify 8 fun b => UInt8.ofNat (b.toNat % 64 + 0x80)

/-- A session id: sixteen marked bytes in hexadecimal. -/
def sessionId (random : List UInt8) : String := String.ofList (Text.bytesHex (marked random))

/-- A group id: the low six bytes of the clock in milliseconds, then random bytes. -/
def groupId (millis : Nat) (random : List UInt8) : String :=
  String.ofList (Base64Url.encode (leBytes 6 millis ++ random))

/-- A password of eighteen random bytes. -/
def password (random : List UInt8) : String := String.ofList (Base64Url.encode random)

end SealedGraph.Fresh
