/-!
# Base64 for URLs

Bytes in groups of three as four characters of the alphabet `A`–`Z`, `a`–`z`, `0`–`9`, `-`, `_`.
A last group of one or two bytes has two or three characters, and there is no padding. The reader
takes only what the writer gives: the bits of a last character that no byte needs are zero.

* `decode_encode`: what is written is read back.
* `eq_encode_of_decode`: nothing else is read, so each list of bytes has one text.
-/

namespace SealedGraph.Base64Url

/-- The character for six bits. -/
def symbol (n : Nat) : Char :=
  if n < 26 then Char.ofNat (65 + n)
  else if n < 52 then Char.ofNat (97 + (n - 26))
  else if n < 62 then Char.ofNat (48 + (n - 52))
  else if n = 62 then '-'
  else '_'

/-- The six bits of a character of the alphabet. -/
def value? (c : Char) : Option Nat :=
  let n := c.toNat
  if 65 ≤ n ∧ n ≤ 90 then some (n - 65)
  else if 97 ≤ n ∧ n ≤ 122 then some (n - 97 + 26)
  else if 48 ≤ n ∧ n ≤ 57 then some (n - 48 + 52)
  else if c = '-' then some 62
  else if c = '_' then some 63
  else none

/-- The text of a list of bytes. -/
def encode : List UInt8 → List Char
  | [] => []
  | [a] => [symbol (a.toNat / 4), symbol (a.toNat % 4 * 16)]
  | [a, b] =>
    [symbol (a.toNat / 4), symbol (a.toNat % 4 * 16 + b.toNat / 16), symbol (b.toNat % 16 * 4)]
  | a :: b :: c :: rest =>
    symbol (a.toNat / 4) :: symbol (a.toNat % 4 * 16 + b.toNat / 16) ::
      symbol (b.toNat % 16 * 4 + c.toNat / 64) :: symbol (c.toNat % 64) :: encode rest

/-- The bytes of a text, if it is the text of some bytes. -/
def decode : List Char → Option (List UInt8)
  | [] => some []
  | [_] => none
  | [x, y] => do
    let x ← value? x
    let y ← value? y
    if y % 16 = 0 then some [UInt8.ofNat (x * 4 + y / 16)] else none
  | [x, y, z] => do
    let x ← value? x
    let y ← value? y
    let z ← value? z
    if z % 4 = 0 then
      some [UInt8.ofNat (x * 4 + y / 16), UInt8.ofNat (y % 16 * 16 + z / 4)]
    else none
  | x :: y :: z :: u :: rest => do
    let x ← value? x
    let y ← value? y
    let z ← value? z
    let u ← value? u
    let rest ← decode rest
    some (UInt8.ofNat (x * 4 + y / 16) :: UInt8.ofNat (y % 16 * 16 + z / 4) ::
      UInt8.ofNat (z % 4 * 64 + u) :: rest)

theorem value?_symbol : ∀ n < 64, value? (symbol n) = some n := by decide

theorem symbol_ne_dot : ∀ n < 64, symbol n ≠ '.' := by decide

theorem symbol_of_value? {c : Char} {n : Nat} (h : value? c = some n) : symbol n = c ∧ n < 64 := by
  have hc : Char.ofNat c.toNat = c := Char.ofNat_toNat c
  unfold value? at h
  simp only at h
  split at h
  · simp only [Option.some.injEq] at h
    subst h
    unfold symbol
    refine ⟨?_, by omega⟩
    rw [if_pos (by omega), ← hc]
    congr 1
    rw [hc]; omega
  · split at h
    · simp only [Option.some.injEq] at h
      subst h
      unfold symbol
      refine ⟨?_, by omega⟩
      rw [if_neg (by omega), if_pos (by omega), ← hc]
      congr 1
      rw [hc]; omega
    · split at h
      · simp only [Option.some.injEq] at h
        subst h
        unfold symbol
        refine ⟨?_, by omega⟩
        rw [if_neg (by omega), if_neg (by omega), if_pos (by omega), ← hc]
        congr 1
        rw [hc]; omega
      · split at h
        · rename_i e
          subst e
          cases h
          exact ⟨rfl, by decide⟩
        · split at h
          · rename_i e
            subst e
            cases h
            exact ⟨rfl, by decide⟩
          · simp at h

theorem decode_encode (bs : List UInt8) : decode (encode bs) = some bs := by
  fun_induction encode bs with
  | case1 => rfl
  | case2 a =>
    have := a.toNat_lt
    simp only [decode, value?_symbol _ (show a.toNat / 4 < 64 by omega),
      value?_symbol _ (show a.toNat % 4 * 16 < 64 by omega), Option.bind_eq_bind, Option.bind_some]
    rw [if_pos (by omega)]
    simp only [Option.some.injEq, List.cons.injEq, and_true]
    rw [show a.toNat / 4 * 4 + a.toNat % 4 * 16 / 16 = a.toNat by omega, UInt8.ofNat_toNat]
  | case3 a b =>
    have := a.toNat_lt
    have := b.toNat_lt
    simp only [decode, value?_symbol _ (show a.toNat / 4 < 64 by omega),
      value?_symbol _ (show a.toNat % 4 * 16 + b.toNat / 16 < 64 by omega),
      value?_symbol _ (show b.toNat % 16 * 4 < 64 by omega), Option.bind_eq_bind, Option.bind_some]
    rw [if_pos (by omega)]
    simp only [Option.some.injEq, List.cons.injEq, and_true]
    rw [show a.toNat / 4 * 4 + (a.toNat % 4 * 16 + b.toNat / 16) / 16 = a.toNat by omega,
      show (a.toNat % 4 * 16 + b.toNat / 16) % 16 * 16 + b.toNat % 16 * 4 / 4 = b.toNat by omega,
      UInt8.ofNat_toNat, UInt8.ofNat_toNat]
    exact ⟨rfl, rfl⟩
  | case4 a b c rest ih =>
    have := a.toNat_lt
    have := b.toNat_lt
    have := c.toNat_lt
    simp only [decode, value?_symbol _ (show a.toNat / 4 < 64 by omega),
      value?_symbol _ (show a.toNat % 4 * 16 + b.toNat / 16 < 64 by omega),
      value?_symbol _ (show b.toNat % 16 * 4 + c.toNat / 64 < 64 by omega),
      value?_symbol _ (show c.toNat % 64 < 64 by omega), ih, Option.bind_eq_bind, Option.bind_some]
    rw [show a.toNat / 4 * 4 + (a.toNat % 4 * 16 + b.toNat / 16) / 16 = a.toNat by omega,
      show (a.toNat % 4 * 16 + b.toNat / 16) % 16 * 16 + (b.toNat % 16 * 4 + c.toNat / 64) / 4
        = b.toNat by omega,
      show (b.toNat % 16 * 4 + c.toNat / 64) % 4 * 64 + c.toNat % 64 = c.toNat by omega,
      UInt8.ofNat_toNat, UInt8.ofNat_toNat, UInt8.ofNat_toNat]

theorem toNat_ofNat_byte {n : Nat} (h : n < 256) : (UInt8.ofNat n).toNat = n := by
  simp [UInt8.toNat_ofNat']
  omega

theorem eq_encode_of_decode {cs : List Char} {bs : List UInt8} (h : decode cs = some bs) :
    cs = encode bs := by
  fun_induction decode cs generalizing bs with
  | case1 => cases h; rfl
  | case2 => simp at h
  | case3 x y =>
    simp only [Option.bind_eq_bind, Option.bind_eq_some_iff] at h
    obtain ⟨i, hi, j, hj, h⟩ := h
    obtain ⟨rfl, hi⟩ := symbol_of_value? hi
    obtain ⟨rfl, hj⟩ := symbol_of_value? hj
    split at h
    · cases h
      rw [encode, toNat_ofNat_byte (by omega), show (i * 4 + j / 16) / 4 = i by omega,
        show (i * 4 + j / 16) % 4 * 16 = j by omega]
    · simp at h
  | case4 x y z =>
    simp only [Option.bind_eq_bind, Option.bind_eq_some_iff] at h
    obtain ⟨i, hi, j, hj, k, hk, h⟩ := h
    obtain ⟨rfl, hi⟩ := symbol_of_value? hi
    obtain ⟨rfl, hj⟩ := symbol_of_value? hj
    obtain ⟨rfl, hk⟩ := symbol_of_value? hk
    split at h
    · cases h
      rw [encode, toNat_ofNat_byte (by omega), toNat_ofNat_byte (by omega),
        show (i * 4 + j / 16) / 4 = i by omega,
        show (i * 4 + j / 16) % 4 * 16 + (j % 16 * 16 + k / 4) / 16 = j by omega,
        show (j % 16 * 16 + k / 4) % 16 * 4 = k by omega]
    · simp at h
  | case5 x y z u rest ih =>
    simp only [Option.bind_eq_bind, Option.bind_eq_some_iff] at h
    obtain ⟨i, hi, j, hj, k, hk, l, hl, tail, ht, h⟩ := h
    obtain ⟨rfl, hi⟩ := symbol_of_value? hi
    obtain ⟨rfl, hj⟩ := symbol_of_value? hj
    obtain ⟨rfl, hk⟩ := symbol_of_value? hk
    obtain ⟨rfl, hl⟩ := symbol_of_value? hl
    cases h
    rw [encode, toNat_ofNat_byte (by omega), toNat_ofNat_byte (by omega),
      toNat_ofNat_byte (by omega), ← ih ht,
      show (i * 4 + j / 16) / 4 = i by omega,
      show (i * 4 + j / 16) % 4 * 16 + (j % 16 * 16 + k / 4) / 16 = j by omega,
      show (j % 16 * 16 + k / 4) % 16 * 4 + (k % 4 * 64 + l) / 64 = k by omega,
      show (k % 4 * 64 + l) % 64 = l by omega]

end SealedGraph.Base64Url
