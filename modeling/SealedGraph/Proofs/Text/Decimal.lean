import SealedGraph.Proofs.Text.Digits

/-!
# What a decimal text denotes

The reader of signed words takes a text for the number that it denotes by the rules of arithmetic,
with leading zeros and either sign, and refuses all other texts and all numbers that do not fit.

* `readBase_eq_some_iff`: digits and their value.
* `readInt64_eq_some_iff`: signed words.
-/

namespace SealedGraph.Text

/-- A decimal digit. -/
def IsDecimal (c : Char) : Prop := '0' ≤ c ∧ c ≤ '9'

/-- One decimal digit at least, and nothing else. -/
def IsNumeral (cs : List Char) : Prop := cs ≠ [] ∧ ∀ c ∈ cs, IsDecimal c

/-- The value of decimal digits that come after some others. -/
def decimalValue (before : Nat) (cs : List Char) : Nat :=
  cs.foldl (fun n c => n * 10 + (c.toNat - '0'.toNat)) before

/-- A text denotes an integer: it is a numeral, or a sign and a numeral. -/
inductive Denotes : List Char → Int → Prop
  | plain {ds : List Char} (h : IsNumeral ds) : Denotes ds (decimalValue 0 ds)
  | plus {ds : List Char} (h : IsNumeral ds) : Denotes ('+' :: ds) (decimalValue 0 ds)
  | minus {ds : List Char} (h : IsNumeral ds) : Denotes ('-' :: ds) (-(decimalValue 0 ds : Int))

theorem not_isDecimal_sign : ¬ IsDecimal '+' ∧ ¬ IsDecimal '-' := by
  unfold IsDecimal
  decide

theorem isDecimal_iff {c : Char} : IsDecimal c ↔ 48 ≤ c.toNat ∧ c.toNat ≤ 57 := Iff.rfl

/-- The digits of base ten among those of base sixteen. -/
theorem hexDigit?_lt_ten_iff {c : Char} {d : Nat} :
    hexDigit? c = some d ∧ d < 10 ↔ IsDecimal c ∧ d = c.toNat - '0'.toNat := by
  have zero : '0'.toNat = 48 := rfl
  by_cases h : '0' ≤ c ∧ c ≤ '9'
  · have bounds := isDecimal_iff.1 h
    rw [hexDigit?, if_pos h, Option.some.injEq, zero]
    constructor
    · rintro ⟨rfl, -⟩
      exact ⟨h, rfl⟩
    · rintro ⟨-, rfl⟩
      exact ⟨rfl, by omega⟩
  · refine iff_of_false ?_ fun hd => h hd.1
    rintro ⟨hd, hlt⟩
    rw [hexDigit?, if_neg h] at hd
    split at hd
    · cases hd
      omega
    · split at hd
      · cases hd
        omega
      · cases hd

theorem readDigits_eq_some_iff {cs : List Char} {before n : Nat} :
    readDigits 10 cs before = some n ↔ (∀ c ∈ cs, IsDecimal c) ∧ n = decimalValue before cs := by
  induction cs generalizing before with
  | nil => simp [readDigits, decimalValue, eq_comm]
  | cons c cs ih =>
    rw [List.forall_mem_cons, readDigits]
    by_cases h : IsDecimal c
    · obtain ⟨hd, hlt⟩ := hexDigit?_lt_ten_iff.2 ⟨h, rfl⟩
      simp only [hd, if_pos hlt, ih, h, true_and]
      rfl
    · refine iff_of_false (fun hn => h ?_) fun hn => h hn.1.1
      split at hn
      · rename_i d hd
        split at hn
        · rename_i hlt
          exact (hexDigit?_lt_ten_iff.1 ⟨hd, hlt⟩).1
        · cases hn
      · cases hn

/-- **A numeral is read as its value**, and nothing else is read. -/
theorem readBase_eq_some_iff {cs : List Char} {n : Nat} :
    readBase 10 cs = some n ↔ IsNumeral cs ∧ n = decimalValue 0 cs := by
  unfold IsNumeral
  cases cs with
  | nil => simp [readBase]
  | cons c cs => rw [readBase, readDigits_eq_some_iff]; simp

/-- **A signed number is read as what it denotes**, if that is within the bounds. -/
theorem readSigned_eq_some_iff {lo hi i : Int} {cs : List Char} :
    readSigned 10 lo hi cs = some i ↔ Denotes cs i ∧ lo ≤ i ∧ i ≤ hi := by
  unfold readSigned
  simp only [Option.filter_eq_some_iff, decide_eq_true_eq]
  refine and_congr_left fun _ => ?_
  split
  · rename_i ds
    simp only [Option.map_eq_some_iff, Option.bind_eq_bind, Option.bind_eq_some_iff,
      Option.pure_def, Option.some.injEq, readBase_eq_some_iff]
    constructor
    · rintro ⟨_, ⟨n, ⟨h, rfl⟩, rfl⟩, rfl⟩
      exact .minus h
    · intro h
      cases h with
      | plain h => exact absurd (h.2 '-' List.mem_cons_self) not_isDecimal_sign.2
      | minus h => exact ⟨_, ⟨_, ⟨h, rfl⟩, rfl⟩, rfl⟩
  · rename_i ds
    simp only [Option.map_eq_some_iff, readBase_eq_some_iff]
    constructor
    · rintro ⟨n, ⟨h, rfl⟩, rfl⟩
      exact .plus h
    · intro h
      cases h with
      | plain h => exact absurd (h.2 '+' List.mem_cons_self) not_isDecimal_sign.1
      | plus h => exact ⟨_, ⟨h, rfl⟩, rfl⟩
  · rename_i hminus hplus
    simp only [Option.map_eq_some_iff, readBase_eq_some_iff]
    constructor
    · rintro ⟨n, ⟨h, rfl⟩, rfl⟩
      exact .plain h
    · intro h
      cases h with
      | plain h => exact ⟨_, ⟨h, rfl⟩, rfl⟩
      | plus _ => exact absurd rfl (hplus _)
      | minus _ => exact absurd rfl (hminus _)

/-- **A signed word is read from the texts that denote it**, and from no others. -/
theorem readInt64_eq_some_iff {cs : List Char} {t : Int64} :
    readInt64 cs = some t ↔ Denotes cs t.toInt := by
  have bounds : minSigned 64 ≤ t.toInt ∧ t.toInt ≤ maxSigned 64 := by
    have hmax : maxSigned 64 = 2 ^ 63 - 1 := rfl
    have := t.toInt_lt
    exact ⟨t.le_toInt, by omega⟩
  rw [readInt64, Option.map_eq_some_iff]
  constructor
  · rintro ⟨i, hi, rfl⟩
    obtain ⟨h, hlo, hhi⟩ := readSigned_eq_some_iff.1 hi
    have hmax : maxSigned 64 = 2 ^ 63 - 1 := rfl
    rw [Int64.toInt_ofInt_of_le hlo (by omega)]
    exact h
  · exact fun h => ⟨t.toInt, readSigned_eq_some_iff.2 ⟨h, bounds⟩, Int64.ofInt_toInt t⟩

end SealedGraph.Text
