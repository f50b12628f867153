/-!
# The SHA-2 hashes

One algorithm over words of `w` bits, with the two variants that are used here: SHA-256 over words
of 32 bits and SHA-512/256 over words of 64 bits. Messages and digests are lists of bytes.

* `length_pad`: a padded message fills whole blocks.
* `length_sha256`, `length_sha512_256`: both digests have 32 bytes.
-/

namespace SealedGraph.Sha2

/-- The eight working words. -/
structure State (w : Nat) where
  a : BitVec w
  b : BitVec w
  c : BitVec w
  d : BitVec w
  e : BitVec w
  f : BitVec w
  g : BitVec w
  h : BitVec w
  deriving DecidableEq, Repr

namespace State

variable {w : Nat}

/-- Wordwise sum. -/
def add (s t : State w) : State w :=
  ⟨s.a + t.a, s.b + t.b, s.c + t.c, s.d + t.d, s.e + t.e, s.f + t.f, s.g + t.g, s.h + t.h⟩

/-- The words in order. -/
def words (s : State w) : List (BitVec w) := [s.a, s.b, s.c, s.d, s.e, s.f, s.g, s.h]

end State

/-- Three amounts for one mixing function of a word. -/
structure Mix where
  first : Nat
  second : Nat
  third : Nat
  deriving DecidableEq, Repr

/-- Three rotations of a word, combined by exclusive or. -/
def Mix.big {w : Nat} (m : Mix) (x : BitVec w) : BitVec w :=
  x.rotateRight m.first ^^^ x.rotateRight m.second ^^^ x.rotateRight m.third

/-- Two rotations and one shift of a word, combined by exclusive or. -/
def Mix.small {w : Nat} (m : Mix) (x : BitVec w) : BitVec w :=
  x.rotateRight m.first ^^^ x.rotateRight m.second ^^^ (x >>> m.third)

/-- What tells one variant of the family from another. -/
structure Variant (w : Nat) where
  /-- the state before the first block -/
  initial : State w
  /-- one constant a round -/
  constants : List (BitVec w)
  bigA : Mix
  bigE : Mix
  smallOld : Mix
  smallNew : Mix

variable {w : Nat}

/-- Bitwise, the second word where the first has a one, else the third. -/
def choose (x y z : BitVec w) : BitVec w := (x &&& y) ^^^ (~~~x &&& z)

/-- Bitwise, what at least two of the words have. -/
def majority (x y z : BitVec w) : BitVec w := (x &&& y) ^^^ (x &&& z) ^^^ (y &&& z)

/-- One round with round constant `k` and schedule word `m`. -/
def round (v : Variant w) (k m : BitVec w) (s : State w) : State w :=
  let t₁ := s.h + v.bigE.big s.e + choose s.e s.f s.g + k + m
  let t₂ := v.bigA.big s.a + majority s.a s.b s.c
  ⟨t₁ + t₂, s.a, s.b, s.c, s.d + t₁, s.e, s.f, s.g⟩

/-- The word of the schedule that follows the sixteen words of `window`. -/
def nextWord (v : Variant w) (window : List (BitVec w)) : BitVec w :=
  window.getD 0 0 + v.smallOld.small (window.getD 1 0) + window.getD 9 0
    + v.smallNew.small (window.getD 14 0)

/-- The rounds for the constants `ks`; `window` holds the next sixteen words of the schedule. -/
def rounds (v : Variant w) : List (BitVec w) → List (BitVec w) → State w → State w
  | [], _, s => s
  | k :: ks, window, s =>
    rounds v ks (window.tail ++ [nextWord v window]) (round v k (window.getD 0 0) s)

/-- The state after one block of sixteen words. -/
def compress (v : Variant w) (s : State w) (block : List (BitVec w)) : State w :=
  s.add (rounds v v.constants block s)

/-- The number of bytes in a word. -/
def wordBytes (w : Nat) : Nat := w / 8

/-- The number of bytes in a block. -/
def blockBytes (w : Nat) : Nat := 16 * wordBytes w

/-- The last `n` bytes of a number, the highest first. -/
def beBytes : Nat → Nat → List UInt8
  | 0, _ => []
  | n + 1, x => beBytes n (x / 256) ++ [UInt8.ofNat (x % 256)]

/-- The number with the bytes `bs`, the highest first. -/
def beNat (bs : List UInt8) : Nat := bs.foldl (fun n b => n * 256 + b.toNat) 0

/-- The number of zero bytes that fill up a message of `n` bytes. -/
def zeroBytes (w n : Nat) : Nat :=
  (blockBytes w - (n + 1 + 2 * wordBytes w) % blockBytes w) % blockBytes w

/-- A message with a one bit, zeros, and its length in bits, so that it fills whole blocks. -/
def pad (w : Nat) (msg : List UInt8) : List UInt8 :=
  msg ++ 0x80 :: List.replicate (zeroBytes w msg.length) 0
    ++ beBytes (2 * wordBytes w) (8 * msg.length)

/-- The first `count` pieces of `n` elements each. -/
def chunks {α : Type} (n : Nat) : Nat → List α → List (List α)
  | 0, _ => []
  | count + 1, xs => xs.take n :: chunks n count (xs.drop n)

/-- The words of a block. -/
def blockWords (w : Nat) (block : List UInt8) : List (BitVec w) :=
  (chunks (wordBytes w) 16 block).map fun bs => BitVec.ofNat w (beNat bs)

/-- The blocks of a padded message. -/
def blocks (w : Nat) (msg : List UInt8) : List (List (BitVec w)) :=
  (chunks (blockBytes w) (msg.length / blockBytes w) msg).map (blockWords w)

/-- The first 32 bytes of the final state. -/
def digest (v : Variant w) (msg : List UInt8) : List UInt8 :=
  let final := (blocks w (pad w msg)).foldl (compress v) v.initial
  (final.words.flatMap fun x => beBytes (wordBytes w) x.toNat).take 32

/-- The first 64 bits of the fractional parts of the cube roots of the first eighty primes. -/
def cubeRoots : List (BitVec 64) :=
  [0x428a2f98d728ae22, 0x7137449123ef65cd, 0xb5c0fbcfec4d3b2f, 0xe9b5dba58189dbbc,
   0x3956c25bf348b538, 0x59f111f1b605d019, 0x923f82a4af194f9b, 0xab1c5ed5da6d8118,
   0xd807aa98a3030242, 0x12835b0145706fbe, 0x243185be4ee4b28c, 0x550c7dc3d5ffb4e2,
   0x72be5d74f27b896f, 0x80deb1fe3b1696b1, 0x9bdc06a725c71235, 0xc19bf174cf692694,
   0xe49b69c19ef14ad2, 0xefbe4786384f25e3, 0x0fc19dc68b8cd5b5, 0x240ca1cc77ac9c65,
   0x2de92c6f592b0275, 0x4a7484aa6ea6e483, 0x5cb0a9dcbd41fbd4, 0x76f988da831153b5,
   0x983e5152ee66dfab, 0xa831c66d2db43210, 0xb00327c898fb213f, 0xbf597fc7beef0ee4,
   0xc6e00bf33da88fc2, 0xd5a79147930aa725, 0x06ca6351e003826f, 0x142929670a0e6e70,
   0x27b70a8546d22ffc, 0x2e1b21385c26c926, 0x4d2c6dfc5ac42aed, 0x53380d139d95b3df,
   0x650a73548baf63de, 0x766a0abb3c77b2a8, 0x81c2c92e47edaee6, 0x92722c851482353b,
   0xa2bfe8a14cf10364, 0xa81a664bbc423001, 0xc24b8b70d0f89791, 0xc76c51a30654be30,
   0xd192e819d6ef5218, 0xd69906245565a910, 0xf40e35855771202a, 0x106aa07032bbd1b8,
   0x19a4c116b8d2d0c8, 0x1e376c085141ab53, 0x2748774cdf8eeb99, 0x34b0bcb5e19b48a8,
   0x391c0cb3c5c95a63, 0x4ed8aa4ae3418acb, 0x5b9cca4f7763e373, 0x682e6ff3d6b2b8a3,
   0x748f82ee5defb2fc, 0x78a5636f43172f60, 0x84c87814a1f0ab72, 0x8cc702081a6439ec,
   0x90befffa23631e28, 0xa4506cebde82bde9, 0xbef9a3f7b2c67915, 0xc67178f2e372532b,
   0xca273eceea26619c, 0xd186b8c721c0c207, 0xeada7dd6cde0eb1e, 0xf57d4f7fee6ed178,
   0x06f067aa72176fba, 0x0a637dc5a2c898a6, 0x113f9804bef90dae, 0x1b710b35131c471b,
   0x28db77f523047d84, 0x32caab7b40c72493, 0x3c9ebe0a15c9bebc, 0x431d67c49c100d4c,
   0x4cc5d4becb3e42b6, 0x597f299cfc657e2a, 0x5fcb6fab3ad6faec, 0x6c44198c4a475817]

/-- The first 64 bits of the fractional parts of the square roots of the first eight primes. -/
def squareRoots : State 64 :=
  ⟨0x6a09e667f3bcc908, 0xbb67ae8584caa73b, 0x3c6ef372fe94f82b, 0xa54ff53a5f1d36f1,
   0x510e527fade682d1, 0x9b05688c2b3e6c1f, 0x1f83d9abfb41bd6b, 0x5be0cd19137e2179⟩

/-- The upper half of a word of 64 bits. -/
def upperHalf (x : BitVec 64) : BitVec 32 := x.extractLsb' 32 32

/-- The upper halves of the words of a state. -/
def State.upperHalves (s : State 64) : State 32 :=
  ⟨upperHalf s.a, upperHalf s.b, upperHalf s.c, upperHalf s.d,
   upperHalf s.e, upperHalf s.f, upperHalf s.g, upperHalf s.h⟩

/-- SHA-256. -/
def variant256 : Variant 32 where
  initial := squareRoots.upperHalves
  constants := (cubeRoots.take 64).map upperHalf
  bigA := ⟨2, 13, 22⟩
  bigE := ⟨6, 11, 25⟩
  smallOld := ⟨7, 18, 3⟩
  smallNew := ⟨17, 19, 10⟩

/-- SHA-512/256. -/
def variant512 : Variant 64 where
  initial :=
    ⟨0x22312194fc2bf72c, 0x9f555fa3c84c64c2, 0x2393b86b6f53b151, 0x963877195940eabd,
     0x96283ee2a88effe3, 0xbe5e1e2553863992, 0x2b0199fc2c85b8aa, 0x0eb72ddc81c52ca2⟩
  constants := cubeRoots
  bigA := ⟨28, 34, 39⟩
  bigE := ⟨14, 18, 41⟩
  smallOld := ⟨1, 8, 7⟩
  smallNew := ⟨19, 61, 6⟩

theorem length_beBytes (n x : Nat) : (beBytes n x).length = n := by
  induction n generalizing x with
  | zero => rfl
  | succ n ih => simp [beBytes, ih]

theorem length_pad (msg : List UInt8) (h : 0 < blockBytes w) :
    (pad w msg).length % blockBytes w = 0 := by
  have hp : (pad w msg).length
      = msg.length + 1 + 2 * wordBytes w + zeroBytes w msg.length := by
    simp [pad, length_beBytes]; omega
  rw [hp, zeroBytes, Nat.add_mod, Nat.mod_mod]
  have hlt := Nat.mod_lt (msg.length + 1 + 2 * wordBytes w) h
  rcases Nat.eq_zero_or_pos ((msg.length + 1 + 2 * wordBytes w) % blockBytes w) with h0 | h0
  · simp [h0]
  · rw [Nat.mod_eq_of_lt (a := blockBytes w - _) (by omega), Nat.add_sub_cancel' (by omega)]
    exact Nat.mod_self _

end SealedGraph.Sha2

namespace SealedGraph

/-- The SHA-256 digest of a message. -/
def sha256 (msg : List UInt8) : List UInt8 := Sha2.digest Sha2.variant256 msg

/-- The SHA-512/256 digest of a message. -/
def sha512_256 (msg : List UInt8) : List UInt8 := Sha2.digest Sha2.variant512 msg

theorem length_sha256 (msg : List UInt8) : (sha256 msg).length = 32 := by
  simp [sha256, Sha2.digest, Sha2.State.words, Sha2.length_beBytes, Sha2.wordBytes]

theorem length_sha512_256 (msg : List UInt8) : (sha512_256 msg).length = 32 := by
  simp [sha512_256, Sha2.digest, Sha2.State.words, Sha2.length_beBytes, Sha2.wordBytes]

end SealedGraph
