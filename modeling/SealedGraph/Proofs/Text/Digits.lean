import Mathlib.Algebra.Group.Nat.Defs
import SealedGraph.Text.Digits

/-!
# Numbers as text, read back

* `readDigits_digitsAux`: the digits of a number in any base up to sixteen have its value.
* `hexText_injective`: two numbers have two texts.
* `hexText_eq_toDigits`: the texts are those of the library.
* `readInt64_int64Text`: a signed word is read back from its decimal text.
* `dot_not_mem_hexText` and its like: there is no dot in any of these texts.
-/

namespace SealedGraph.Text

/-! ### Digits -/

theorem hexDigit?_hexDigit : ∀ n < 16, hexDigit? (hexDigit n) = some n := by decide

theorem hexDigit_ne_mark : ∀ n < 16, hexDigit n ≠ '.' ∧ hexDigit n ≠ '-' ∧ hexDigit n ≠ '+' := by
  decide

variable {b : Nat}

theorem digitsAux_append (fuel n : Nat) (acc : List Char) :
    digitsAux b fuel n acc = digitsAux b fuel n [] ++ acc := by
  induction fuel generalizing n acc with
  | zero => rfl
  | succ fuel ih =>
    unfold digitsAux
    simp only
    split
    · rfl
    · rw [ih _ (hexDigit (n % b) :: acc), ih _ [hexDigit (n % b)], List.append_assoc]
      rfl

theorem readDigits_append (xs ys : List Char) (a : Nat) :
    readDigits b (xs ++ ys) a = (readDigits b xs a).bind (readDigits b ys) := by
  induction xs generalizing a with
  | nil => rfl
  | cons x xs ih =>
    simp only [List.cons_append, readDigits]
    split
    · split
      · exact ih _
      · rfl
    · rfl

theorem readDigits_hexDigit {d a : Nat} (hd : d < b) (hb : b ≤ 16) :
    readDigits b [hexDigit d] a = some (a * b + d) := by
  simp only [readDigits, hexDigit?_hexDigit d (by omega), if_pos hd]

/-- **The digits of a number have its value.** -/
theorem readDigits_digitsAux (hb : 2 ≤ b) (hb' : b ≤ 16) (fuel n : Nat) (h : n < b ^ fuel) :
    readDigits b (digitsAux b fuel n []) 0 = some n := by
  induction fuel generalizing n with
  | zero =>
    have : n = 0 := by simpa using h
    rw [this]
    rfl
  | succ fuel ih =>
    have hm : n % b < b := Nat.mod_lt _ (by omega)
    have hn : n / b * b + n % b = n := Nat.div_add_mod' n b
    unfold digitsAux
    simp only
    split
    · rename_i h0
      rw [readDigits_hexDigit hm hb']
      rw [h0] at hn
      rw [hn]
    · rw [digitsAux_append, readDigits_append, ih]
      · rw [Option.bind_some, readDigits_hexDigit hm hb', hn]
      · rw [Nat.pow_succ] at h
        exact Nat.div_lt_of_lt_mul (by rwa [Nat.mul_comm])

theorem lt_pow_succ (hb : 2 ≤ b) (n : Nat) : n < b ^ (n + 1) :=
  Nat.lt_trans (Nat.lt_succ_self n) (Nat.lt_pow_self (by omega))

theorem mem_digitsAux (hb : 0 < b) {fuel n : Nat} {c : Char} {acc : List Char}
    (h : c ∈ digitsAux b fuel n acc) : (∃ d < b, c = hexDigit d) ∨ c ∈ acc := by
  induction fuel generalizing n acc with
  | zero => exact .inr h
  | succ fuel ih =>
    unfold digitsAux at h
    simp only at h
    have hc : c ∈ hexDigit (n % b) :: acc → (∃ d < b, c = hexDigit d) ∨ c ∈ acc := by
      intro hc
      rcases List.mem_cons.1 hc with rfl | hc
      · exact .inl ⟨_, Nat.mod_lt _ hb, rfl⟩
      · exact .inr hc
    split at h
    · exact hc h
    · rcases ih h with h | h
      · exact .inl h
      · exact hc h

/-! ### Hexadecimal texts -/

theorem hexText_injective {m n : Nat} (h : hexText m = hexText n) : m = n := by
  have hm := readDigits_digitsAux (b := 16) (by omega) (by omega) _ _ (lt_pow_succ (by omega) m)
  have hn := readDigits_digitsAux (b := 16) (by omega) (by omega) _ _ (lt_pow_succ (by omega) n)
  unfold hexText at h
  rw [h, hn] at hm
  exact (Option.some.inj hm).symm

theorem hexDigit_eq_digitChar : ∀ d < 16, hexDigit d = Nat.digitChar d := by decide

/-- **Hexadecimal texts** have the usual digits, in lower case. -/
theorem hexText_eq_toDigits (n : Nat) : hexText n = Nat.toDigits 16 n := by
  have hcore : ∀ fuel n acc, digitsAux 16 fuel n acc = Nat.toDigitsCore 16 fuel n acc := by
    intro fuel
    induction fuel with
    | zero => exact fun n acc => rfl
    | succ fuel ih =>
      intro n acc
      unfold digitsAux Nat.toDigitsCore
      simp only [hexDigit_eq_digitChar (n % 16) (Nat.mod_lt _ (by omega)), ih]
  exact hcore (n + 1) n []

theorem dot_not_mem_hexText (n : Nat) : '.' ∉ hexText n := by
  intro h
  rcases mem_digitsAux (by omega) h with ⟨d, hd, e⟩ | h
  · exact (hexDigit_ne_mark d hd).1 e.symm
  · cases h

theorem dot_not_mem_bytesHex (bs : List UInt8) : '.' ∉ bytesHex bs := by
  unfold bytesHex byteHex
  rw [List.mem_flatMap]
  rintro ⟨b, -, h⟩
  have := b.toNat_lt
  simp only [List.mem_cons, List.not_mem_nil, or_false] at h
  rcases h with h | h
  · exact (hexDigit_ne_mark _ (by omega)).1 h.symm
  · exact (hexDigit_ne_mark _ (by omega)).1 h.symm

/-! ### Decimal texts -/

theorem natText_ne_mark {n : Nat} {c : Char} (h : c ∈ natText n) : c ≠ '.' ∧ c ≠ '-' ∧ c ≠ '+' := by
  rcases mem_digitsAux (by omega) h with ⟨d, hd, rfl⟩ | h
  · exact hexDigit_ne_mark d (by omega)
  · cases h

theorem readBase_natText (n : Nat) : readBase 10 (natText n) = some n := by
  have h := readDigits_digitsAux (b := 10) (by omega) (by omega) _ _ (lt_pow_succ (by omega) n)
  obtain ⟨c, cs, e⟩ := List.exists_cons_of_ne_nil (natText_ne_nil n)
  rw [e, readBase, ← e]
  exact h

theorem readSigned_intText {lo hi i : Int} (hlo : lo ≤ i) (hhi : i ≤ hi) :
    readSigned 10 lo hi (intText i) = some i := by
  have hf : (some i).filter (fun i => decide (lo ≤ i ∧ i ≤ hi)) = some i := by
    simp [hlo, hhi]
  cases i with
  | ofNat n =>
    obtain ⟨c, cs, e⟩ := List.exists_cons_of_ne_nil (natText_ne_nil n)
    have hc := natText_ne_mark (n := n) (c := c) (by simp [e])
    have hr := readBase_natText n
    unfold readSigned intText
    rw [e] at hr
    simp only [e]
    split
    · rename_i h
      exact absurd (List.cons.inj h).1 hc.2.1
    · rename_i h
      exact absurd (List.cons.inj h).1 hc.2.2
    · rw [hr]
      exact hf
  | negSucc n =>
    have hr := readBase_natText (n + 1)
    unfold readSigned intText
    simp only [hr]
    exact hf

/-- **A signed word is read back from its text.** -/
theorem readInt64_int64Text (i : Int64) : readInt64 (int64Text i) = some i := by
  have hlo : minSigned 64 ≤ i.toInt := i.le_toInt
  have hhi : i.toInt ≤ maxSigned 64 := by
    have hm : maxSigned 64 = 2 ^ 63 - 1 := rfl
    have := i.toInt_lt
    omega
  rw [readInt64, int64Text, readSigned_intText hlo hhi, Option.map_some, Int64.ofInt_toInt]

theorem dot_not_mem_int64Text (i : Int64) : '.' ∉ int64Text i := by
  unfold int64Text intText
  intro h
  split at h
  · exact (natText_ne_mark h).1 rfl
  · rcases List.mem_cons.1 h with h | h
    · cases h
    · exact (natText_ne_mark h).1 rfl

end SealedGraph.Text
