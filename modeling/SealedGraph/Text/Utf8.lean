/-!
# UTF-8

Characters as one to four bytes, and back. The reader takes shortest forms only, and no
surrogates.

* `decode_encode`: what is written is read back.
* `eq_encode_of_decode`: nothing else is read.
* `stringOf?_eq_some_iff`: the same of strings.
-/

namespace SealedGraph.Utf8

/-- The bytes of one character. -/
def encodeChar (c : Char) : List UInt8 :=
  let n := c.toNat
  if n < 0x80 then [UInt8.ofNat n]
  else if n < 0x800 then [UInt8.ofNat (0xC0 + n / 64), UInt8.ofNat (0x80 + n % 64)]
  else if n < 0x10000 then
    [UInt8.ofNat (0xE0 + n / 4096), UInt8.ofNat (0x80 + n / 64 % 64), UInt8.ofNat (0x80 + n % 64)]
  else
    [UInt8.ofNat (0xF0 + n / 262144), UInt8.ofNat (0x80 + n / 4096 % 64),
     UInt8.ofNat (0x80 + n / 64 % 64), UInt8.ofNat (0x80 + n % 64)]

/-- The bytes of a text. -/
def encode (cs : List Char) : List UInt8 := cs.flatMap encodeChar

/-- The six bits of a byte that continues a character. -/
def tail? (b : UInt8) : Option Nat :=
  if 0x80 ≤ b.toNat ∧ b.toNat < 0xC0 then some (b.toNat - 0x80) else none

/-- The character with code point `n`, if no shorter form reaches `n`: `lo` is the first code
point that needs this form. -/
def scalar? (lo n : Nat) : Option Char :=
  if lo ≤ n ∧ n.isValidChar then some (Char.ofNat n) else none

/-- The text of a list of bytes, if it is well formed. -/
def decode : List UInt8 → Option (List Char)
  | [] => some []
  | a :: rest =>
    if a.toNat < 0x80 then (decode rest).map (Char.ofNat a.toNat :: ·)
    else if a.toNat < 0xC0 then none
    else if a.toNat < 0xE0 then
      match rest with
      | b :: rest => do
        let x ← tail? b
        let c ← scalar? 0x80 ((a.toNat - 0xC0) * 64 + x)
        (decode rest).map (c :: ·)
      | _ => none
    else if a.toNat < 0xF0 then
      match rest with
      | b :: b' :: rest => do
        let x ← tail? b
        let y ← tail? b'
        let c ← scalar? 0x800 ((a.toNat - 0xE0) * 4096 + x * 64 + y)
        (decode rest).map (c :: ·)
      | _ => none
    else
      match rest with
      | b :: b' :: b'' :: rest => do
        let x ← tail? b
        let y ← tail? b'
        let z ← tail? b''
        let c ← scalar? 0x10000 ((a.toNat - 0xF0) * 262144 + x * 4096 + y * 64 + z)
        (decode rest).map (c :: ·)
      | _ => none

/-! ## Reading back -/

theorem byte_toNat {n : Nat} (h : n < 256) : (UInt8.ofNat n).toNat = n :=
  UInt8.toNat_ofNat_of_lt' h

theorem toNat_ofNat {n : Nat} (h : n.isValidChar) : (Char.ofNat n).toNat = n := by
  have hn : n < UInt32.size := by
    simp only [Nat.isValidChar] at h
    simp only [UInt32.size]
    omega
  have hc : (Char.ofNat (Char.mk (UInt32.ofNatLT n hn) h).toNat).toNat = n := by
    rw [Char.ofNat_toNat]
    rfl
  exact hc

theorem tail?_eq_some_iff {b : UInt8} {x : Nat} :
    tail? b = some x ↔ x < 64 ∧ b = UInt8.ofNat (0x80 + x) := by
  rw [← UInt8.toNat_inj]
  unfold tail?
  split
  · rename_i h
    rw [Option.some.injEq]
    constructor
    · rintro rfl
      exact ⟨by omega, by rw [byte_toNat (by omega)]; omega⟩
    · rintro ⟨hx, hb⟩
      rw [byte_toNat (by omega)] at hb
      omega
  · rename_i h
    simp only [reduceCtorEq, false_iff, not_and]
    intro hx hb
    rw [byte_toNat (by omega)] at hb
    omega

theorem tail?_byte {x : Nat} (h : x < 64) : tail? (UInt8.ofNat (0x80 + x)) = some x :=
  tail?_eq_some_iff.2 ⟨h, rfl⟩

theorem scalar?_eq_some_iff {lo n : Nat} {c : Char} :
    scalar? lo n = some c ↔ lo ≤ n ∧ c.toNat = n := by
  unfold scalar?
  split
  · rename_i h
    rw [Option.some.injEq]
    constructor
    · rintro rfl
      exact ⟨h.1, toNat_ofNat h.2⟩
    · rintro ⟨-, rfl⟩
      exact Char.ofNat_toNat c
  · rename_i h
    simp only [reduceCtorEq, false_iff, not_and]
    rintro hlo rfl
    exact h ⟨hlo, c.valid⟩

theorem toNat_lt (c : Char) : c.toNat < 0x110000 := by
  have h := c.valid
  simp only [UInt32.isValidChar, Nat.isValidChar] at h
  simp only [Char.toNat]
  omega

theorem decode_encodeChar_append (c : Char) (rest : List UInt8) :
    decode (encodeChar c ++ rest) = (decode rest).map (c :: ·) := by
  have hc := toNat_lt c
  unfold encodeChar
  simp only
  split
  · rename_i h
    rw [List.singleton_append, decode.eq_def]
    simp only [byte_toNat (show c.toNat < 256 by omega), if_pos h, Char.ofNat_toNat]
  split
  · rename_i h h'
    have hs : scalar? 0x80 ((0xC0 + c.toNat / 64 - 0xC0) * 64 + c.toNat % 64) = some c :=
      scalar?_eq_some_iff.2 ⟨by omega, by omega⟩
    rw [List.cons_append, decode.eq_def]
    simp only [List.cons_append, List.nil_append]
    rw [byte_toNat (by omega), if_neg (by omega), if_neg (by omega), if_pos (by omega)]
    simp only [Option.bind_eq_bind]
    rw [tail?_byte (by omega), Option.bind_some, hs, Option.bind_some]
  split
  · rename_i h h' h''
    have hs : scalar? 0x800 ((0xE0 + c.toNat / 4096 - 0xE0) * 4096 + c.toNat / 64 % 64 * 64 +
        c.toNat % 64) = some c :=
      scalar?_eq_some_iff.2 ⟨by omega, by omega⟩
    rw [List.cons_append, decode.eq_def]
    simp only [List.cons_append, List.nil_append]
    rw [byte_toNat (by omega), if_neg (by omega), if_neg (by omega), if_neg (by omega),
      if_pos (by omega)]
    simp only [Option.bind_eq_bind]
    rw [tail?_byte (by omega), Option.bind_some, tail?_byte (by omega), Option.bind_some, hs,
      Option.bind_some]
  · rename_i h h' h''
    have hs : scalar? 0x10000 ((0xF0 + c.toNat / 262144 - 0xF0) * 262144 +
        c.toNat / 4096 % 64 * 4096 + c.toNat / 64 % 64 * 64 + c.toNat % 64) = some c :=
      scalar?_eq_some_iff.2 ⟨by omega, by omega⟩
    rw [List.cons_append, decode.eq_def]
    simp only [List.cons_append, List.nil_append]
    rw [byte_toNat (by omega), if_neg (by omega), if_neg (by omega), if_neg (by omega),
      if_neg (by omega)]
    simp only [Option.bind_eq_bind]
    rw [tail?_byte (by omega), Option.bind_some, tail?_byte (by omega), Option.bind_some,
      tail?_byte (by omega), Option.bind_some, hs, Option.bind_some]

theorem encode_cons (c : Char) (cs : List Char) : encode (c :: cs) = encodeChar c ++ encode cs :=
  rfl

theorem decode_encode (cs : List Char) : decode (encode cs) = some cs := by
  induction cs with
  | nil => rfl
  | cons c cs ih => rw [encode_cons, decode_encodeChar_append, ih, Option.map_some]

theorem eq_encode_of_decode {bs : List UInt8} {cs : List Char} (h : decode bs = some cs) :
    bs = encode cs := by
  fun_induction decode bs generalizing cs with
  | case1 => cases h; rfl
  | case2 a rest ha ih =>
    obtain ⟨cs, hcs, rfl⟩ := Option.map_eq_some_iff.1 h
    rw [encode_cons, ← ih hcs]
    have hn : (Char.ofNat a.toNat).toNat = a.toNat := toNat_ofNat (.inl (by omega))
    simp only [encodeChar, hn, if_pos ha, List.singleton_append, UInt8.ofNat_toNat]
  | case3 => simp at h
  | case4 a ha ha' ha'' b rest ih =>
    simp only [Option.bind_eq_bind, Option.bind_eq_some_iff] at h
    obtain ⟨x, hx, c, hc, h⟩ := h
    obtain ⟨cs, hcs, rfl⟩ := Option.map_eq_some_iff.1 h
    obtain ⟨hx, rfl⟩ := tail?_eq_some_iff.1 hx
    obtain ⟨hlo, hn⟩ := scalar?_eq_some_iff.1 hc
    rw [encode_cons, ← ih hcs]
    have h1 : 0xC0 + c.toNat / 64 = a.toNat := by omega
    have h2 : c.toNat % 64 = x := by omega
    simp only [encodeChar, h1, h2, UInt8.ofNat_toNat]
    rw [if_neg (by omega), if_pos (by omega)]
    rfl
  | case5 => simp at h
  | case6 a ha ha' ha'' ha₃ b b' rest ih =>
    simp only [Option.bind_eq_bind, Option.bind_eq_some_iff] at h
    obtain ⟨x, hx, y, hy, c, hc, h⟩ := h
    obtain ⟨cs, hcs, rfl⟩ := Option.map_eq_some_iff.1 h
    obtain ⟨hx, rfl⟩ := tail?_eq_some_iff.1 hx
    obtain ⟨hy, rfl⟩ := tail?_eq_some_iff.1 hy
    obtain ⟨hlo, hn⟩ := scalar?_eq_some_iff.1 hc
    rw [encode_cons, ← ih hcs]
    have h1 : 0xE0 + c.toNat / 4096 = a.toNat := by omega
    have h2 : c.toNat / 64 % 64 = x := by omega
    have h3 : c.toNat % 64 = y := by omega
    simp only [encodeChar, h1, h2, h3, UInt8.ofNat_toNat]
    rw [if_neg (by omega), if_neg (by omega), if_pos (by omega)]
    rfl
  | case7 => simp at h
  | case8 a ha ha' ha'' ha₃ b b' b'' rest ih =>
    simp only [Option.bind_eq_bind, Option.bind_eq_some_iff] at h
    obtain ⟨x, hx, y, hy, z, hz, c, hc, h⟩ := h
    obtain ⟨cs, hcs, rfl⟩ := Option.map_eq_some_iff.1 h
    obtain ⟨hx, rfl⟩ := tail?_eq_some_iff.1 hx
    obtain ⟨hy, rfl⟩ := tail?_eq_some_iff.1 hy
    obtain ⟨hz, rfl⟩ := tail?_eq_some_iff.1 hz
    obtain ⟨hlo, hn⟩ := scalar?_eq_some_iff.1 hc
    rw [encode_cons, ← ih hcs]
    have h1 : 0xF0 + c.toNat / 262144 = a.toNat := by omega
    have h2 : c.toNat / 4096 % 64 = x := by omega
    have h3 : c.toNat / 64 % 64 = y := by omega
    have h4 : c.toNat % 64 = z := by omega
    simp only [encodeChar, h1, h2, h3, h4, UInt8.ofNat_toNat]
    rw [if_neg (by omega), if_neg (by omega), if_neg (by omega)]
    rfl
  | case9 => simp at h

end SealedGraph.Utf8

namespace SealedGraph

/-- The bytes of a string. -/
def bytesOf (s : String) : List UInt8 := Utf8.encode s.toList

/-- The string of a list of bytes, if it is well formed. -/
def stringOf? (bs : List UInt8) : Option String := (Utf8.decode bs).map String.ofList

theorem stringOf?_eq_some_iff {bs : List UInt8} {s : String} :
    stringOf? bs = some s ↔ bs = bytesOf s := by
  constructor
  · intro h
    obtain ⟨cs, hcs, rfl⟩ := Option.map_eq_some_iff.1 h
    rw [bytesOf, String.toList_ofList]
    exact Utf8.eq_encode_of_decode hcs
  · rintro rfl
    rw [stringOf?, bytesOf, Utf8.decode_encode, Option.map_some, String.ofList_toList]

end SealedGraph
