import SealedGraph.Proofs.Text.Decimal
import SealedGraph.Time.Timestamp

/-!
# Points in time, read back

A point in time in a year of four digits, and not within a leap second, is read back from its text
to the nanosecond.

* `readNumber_padZero`: a number filled up with zeros is read to its last digit and no further.
* `readFraction_fractionText`: the part of a second, with as many digits as it has.
* `parse?_text`: a whole point in time.
-/

namespace SealedGraph

/-! ### Numbers of fixed width -/

namespace Text

theorem isSome_digit?_iff {c : Char} : (digit? c).isSome = true ↔ IsDecimal c := by
  unfold digit? IsDecimal
  split
  · rename_i h
    exact iff_of_true rfl h
  · rename_i h
    exact iff_of_false Bool.false_ne_true h

theorem IsDecimal.not_isBlank {c : Char} (h : IsDecimal c) : isBlank c = false := by
  have hbounds := isDecimal_iff.1 h
  simp only [isBlank, blankRanges, Ranges.has, List.any_cons, List.any_nil, Bool.or_eq_false_iff,
    Bool.and_eq_false_iff, decide_eq_false_iff_not, and_true]
  omega

theorem length_digitsAux_le {fuel n width : Nat} (h : n < 10 ^ (width + 1)) :
    (digitsAux 10 fuel n []).length ≤ width + 1 := by
  induction width generalizing fuel n with
  | zero =>
    cases fuel with
    | zero => exact Nat.zero_le _
    | succ fuel =>
      have hn : n / 10 = 0 := by omega
      simp [digitsAux, hn]
  | succ width ih =>
    cases fuel with
    | zero => exact Nat.zero_le _
    | succ fuel =>
      unfold digitsAux
      simp only
      split
      · exact Nat.succ_le_succ (Nat.zero_le _)
      · have hrest : (digitsAux 10 fuel (n / 10) []).length ≤ width + 1 := by
          refine ih ?_
          rw [Nat.pow_succ] at h
          exact Nat.div_lt_of_lt_mul (by rwa [Nat.mul_comm])
        rw [digitsAux_append, List.length_append]
        exact Nat.succ_le_succ hrest

section Padded

variable {width n : Nat}

/-- A number filled up with zeros, if it fits, has exactly the width. -/
theorem length_padZero (hw : width ≠ 0) (h : n < 10 ^ width) :
    (padZero width (natText n)).length = width := by
  obtain ⟨w, rfl⟩ := Nat.exists_eq_succ_of_ne_zero hw
  have hlength : (natText n).length ≤ w + 1 := length_digitsAux_le h
  unfold padZero
  rw [List.length_append, List.length_replicate]
  omega

theorem isDecimal_of_mem_padZero {c : Char} (h : c ∈ padZero width (natText n)) : IsDecimal c := by
  have hdigit : ∀ d < 10, IsDecimal (hexDigit d) := by
    unfold IsDecimal
    decide
  rcases List.mem_append.1 h with h | h
  · rw [List.eq_of_mem_replicate h]
    exact hdigit 0 (by decide)
  · rcases mem_digitsAux (by decide) h with ⟨d, hd, rfl⟩ | h
    · exact hdigit d hd
    · cases h

/-- A number filled up with zeros begins with a digit. -/
theorem exists_padZero_eq_cons (width n : Nat) :
    ∃ c cs, padZero width (natText n) = c :: cs ∧ IsDecimal c := by
  obtain ⟨c, cs, hcs⟩ : ∃ c cs, padZero width (natText n) = c :: cs := by
    refine List.exists_cons_of_ne_nil fun h => natText_ne_nil n ?_
    exact (List.append_eq_nil_iff.1 h).2
  exact ⟨c, cs, hcs, isDecimal_of_mem_padZero (by rw [hcs]; exact List.mem_cons_self)⟩

theorem readBase_padZero (width n : Nat) : readBase 10 (padZero width (natText n)) = some n := by
  have hzeros : ∀ k cs, readDigits 10 (List.replicate k '0' ++ cs) 0 = readDigits 10 cs 0 := by
    intro k cs
    induction k with
    | zero => rfl
    | succ k ih => exact ih
  have hread := readBase_natText n
  obtain ⟨c, cs, hcs⟩ := List.exists_cons_of_ne_nil (natText_ne_nil n)
  rw [hcs, readBase, ← hcs] at hread
  obtain ⟨d, ds, hds, -⟩ := exists_padZero_eq_cons width n
  rw [hds, readBase, ← hds, padZero, hzeros, hread]

theorem takeWhile_digit_padZero (width n : Nat) {r : List Char}
    (h : ∀ c ∈ r.head?, ¬ IsDecimal c) :
    (padZero width (natText n) ++ r).takeWhile (fun c => (digit? c).isSome) =
      padZero width (natText n) := by
  rw [List.takeWhile_append_of_pos fun c hc => isSome_digit?_iff.2 (isDecimal_of_mem_padZero hc)]
  cases r with
  | nil => simp
  | cons c r =>
    have hc : ¬ (digit? c).isSome = true := fun hc => h c rfl (isSome_digit?_iff.1 hc)
    rw [List.takeWhile_cons, if_neg hc, List.append_nil]

theorem trimStart_padZero (rest : List Char) :
    trimStart (padZero width (natText n) ++ rest) = padZero width (natText n) ++ rest := by
  obtain ⟨c, cs, hcs, hc⟩ := exists_padZero_eq_cons width n
  unfold trimStart
  rw [hcs, List.cons_append, List.dropWhile_cons_of_neg (by simp [hc.not_isBlank])]

end Padded

end Text

namespace Timestamp

open Text

variable {width n : Nat}

/-- **A number filled up with zeros** is read to its last digit and no further. -/
theorem readNumber_padZero (hw : width ≠ 0) (h : n < 10 ^ width) (rest : List Char) :
    readNumber width (padZero width (natText n) ++ rest) = some (n, rest) := by
  have htake : (padZero width (natText n) ++ rest).take width = padZero width (natText n) :=
    List.take_left' (length_padZero hw h)
  have hdigits : (padZero width (natText n)).takeWhile (fun c => (digit? c).isSome) =
      padZero width (natText n) := by
    have h := takeWhile_digit_padZero width n (r := []) nofun
    rwa [List.append_nil] at h
  unfold readNumber
  simp only [trimStart_padZero, htake, hdigits, readBase_padZero, List.drop_left]
  rfl

theorem readPair_pairText {lo hi : Nat} (hlo : lo ≤ n) (hhi : n ≤ hi) (h : n < 100)
    (rest : List Char) : readPair lo hi (pairText n ++ rest) = some (n, rest) := by
  unfold readPair pairText
  rw [readNumber_padZero (by decide) h]
  exact if_pos ⟨hlo, hhi⟩

theorem readYear_yearText {year : Int} (hlo : 0 ≤ year) (hhi : year ≤ 9999) (rest : List Char) :
    readYear (yearText year ++ rest) = some (year, rest) := by
  have hfits : year.toNat < 10 ^ 4 := by omega
  have hnumber := readNumber_padZero (by decide) hfits rest
  obtain ⟨c, cs, hcs, hc⟩ := exists_padZero_eq_cons 4 year.toNat
  unfold readYear yearText
  rw [if_pos ⟨hlo, hhi⟩, trimStart_padZero]
  rw [hcs, List.cons_append] at hnumber ⊢
  split
  · rename_i h
    exact absurd ((List.cons.inj h).1 ▸ hc) not_isDecimal_sign.2
  · rename_i h
    exact absurd ((List.cons.inj h).1 ▸ hc) not_isDecimal_sign.1
  · rw [hnumber]
    exact congrArg (fun y => some (y, rest)) (Int.toNat_of_nonneg hlo)

/-- Digits behind a dot, as many as are kept. -/
theorem readFraction_padZero (hw : width ≠ 0) (hwidth : width ≤ 9) (h : n < 10 ^ width) :
    readFraction ('.' :: padZero width (natText n) ++ ['Z']) =
      some (n * 10 ^ (9 - width), ['Z']) := by
  have hend : ∀ c ∈ ['Z'].head?, ¬ IsDecimal c := by
    intro c hc
    rw [← Option.some.inj hc]
    unfold IsDecimal
    decide
  have hdigits := takeWhile_digit_padZero width n hend
  have hlength := length_padZero hw h
  have hkept : (padZero width (natText n)).take 9 = padZero width (natText n) :=
    List.take_of_length_le (by rw [hlength]; exact hwidth)
  rw [List.cons_append, readFraction]
  simp only [hdigits, hkept, readBase_padZero, hlength, List.drop_left' hlength]
  rfl

/-- **The part of a second** is read back from as many digits as it has. -/
theorem readFraction_fractionText {nanos : Nat} (h : nanos < nanosOfSecond) :
    readFraction (fractionText nanos ++ ['Z']) = some (nanos, ['Z']) := by
  have hsecond : nanosOfSecond = 10 ^ 9 := rfl
  unfold fractionText
  split
  · rename_i h0
    rw [h0]
    rfl
  split
  · rename_i h6
    rw [readFraction_padZero (by decide) (by decide) (by omega)]
    have hnanos : nanos / 1000000 * 10 ^ (9 - 3) = nanos :=
      Nat.div_mul_cancel (Nat.dvd_of_mod_eq_zero h6)
    rw [hnanos]
  split
  · rename_i h3
    rw [readFraction_padZero (by decide) (by decide) (by omega)]
    have hnanos : nanos / 1000 * 10 ^ (9 - 6) = nanos :=
      Nat.div_mul_cancel (Nat.dvd_of_mod_eq_zero h3)
    rw [hnanos]
  · rw [readFraction_padZero (by decide) (by decide) (by omega)]
    exact congrArg (fun m => some (m, ['Z'])) (Nat.mul_one nanos)

/-! ### Whole points in time -/

/-- The date of a point in time. -/
def date (t : Timestamp) : Date := Date.ofDays (t.seconds / secondsOfDay)

/-- In a year of four digits, and not within a leap second. -/
def IsOrdinary (t : Timestamp) : Prop :=
  0 ≤ t.date.year ∧ t.date.year ≤ 9999 ∧ t.nanos < nanosOfSecond

instance : DecidablePred IsOrdinary := fun t =>
  inferInstanceAs (Decidable (0 ≤ t.date.year ∧ t.date.year ≤ 9999 ∧ t.nanos < nanosOfSecond))

theorem bounds_of_isValid {d : Date} (h : d.isValid = true) :
    (1 ≤ d.month ∧ d.month ≤ 12) ∧ 1 ≤ d.day ∧ d.day ≤ 31 := by
  unfold Date.isValid at h
  simp only [Bool.and_eq_true, decide_eq_true_eq] at h
  obtain ⟨⟨⟨hm, hm'⟩, hd⟩, hd'⟩ := h
  have hlast : Date.daysIn d.year d.month ≤ 31 := by
    unfold Date.daysIn
    split
    · split
      · decide
      · decide
    · split
      · decide
      · decide
  exact ⟨⟨hm, hm'⟩, hd, Nat.le_trans hd' hlast⟩

/-- The days of the years of four digits, roughly. -/
theorem toDays_bounds {d : Date} (hlo : 0 ≤ d.year) (hhi : d.year ≤ 9999)
    (h : d.isValid = true) : -800000 ≤ d.toDays ∧ d.toDays ≤ 4000000 := by
  obtain ⟨⟨hm, hm'⟩, hd, hd'⟩ := bounds_of_isValid h
  unfold Date.toDays Date.daysBefore Date.epoch
  simp only
  split
  · omega
  · omega

/-- The second of the day that a point in time is in. -/
theorem exists_second (t : Timestamp) : ∃ second : Nat, second < 86400 ∧
    (t.seconds % secondsOfDay).toNat = second ∧
      t.date.toDays * secondsOfDay + second = t.seconds := by
  have hdays : t.date.toDays = t.seconds / 86400 := Date.toDays_ofDays _
  have hday : secondsOfDay = 86400 := rfl
  rw [hday, hdays]
  exact ⟨_, by omega, rfl, by omega⟩

/-- The years of four digits are well within the range of times. -/
theorem seconds_bounds {t : Timestamp} (hlo : 0 ≤ t.date.year) (hhi : t.date.year ≤ 9999) :
    minSeconds ≤ t.seconds ∧ t.seconds ≤ maxSeconds := by
  obtain ⟨hfrom, hto⟩ := toDays_bounds hlo hhi (Date.isValid_ofDays _)
  obtain ⟨second, hclock, -, hseconds⟩ := exists_second t
  have hrange : minSeconds ≤ -800000 * 86400 ∧ 4000001 * 86400 ≤ maxSeconds := by decide
  have hday : secondsOfDay = 86400 := rfl
  rw [hday] at hseconds
  omega

theorem expect_cons {c : Char} (h : isBlank c = false) (cs : List Char) :
    expect c (c :: cs) = some cs := by
  unfold expect trimStart
  rw [List.dropWhile_cons_of_neg (by simp [h])]
  exact if_pos rfl

/-- **A point in time is read back** from its text to the nanosecond. -/
theorem parse?_text {t : Timestamp} (h : t.IsOrdinary) : parse? t.text = some t := by
  obtain ⟨hlo, hhi, hnanos⟩ := h
  have hvalid : t.date.isValid = true := Date.isValid_ofDays _
  obtain ⟨⟨hm, hm'⟩, hd, hd'⟩ := bounds_of_isValid hvalid
  obtain ⟨hfirst, hlast⟩ := seconds_bounds hlo hhi
  obtain ⟨second, hclock, hsecond, hseconds⟩ := exists_second t
  have htext : t.text = yearText t.date.year ++ ('-' :: (pairText t.date.month ++
      ('-' :: (pairText t.date.day ++ ('T' :: (pairText (second / 3600) ++
        (':' :: (pairText (second / 60 % 60) ++ (':' :: (pairText (second % 60) ++
          (fractionText t.nanos ++ ['Z']))))))))))) := by
    unfold text
    simp only [if_pos hnanos, hsecond, List.append_assoc, List.cons_append]
    rfl
  have hhour : ∀ cs, readPair 0 23 (pairText (second / 3600) ++ cs) = some (second / 3600, cs) :=
    readPair_pairText (Nat.zero_le _) (by omega) (by omega)
  have hminute : ∀ cs, readPair 0 59 (pairText (second / 60 % 60) ++ cs) =
      some (second / 60 % 60, cs) := readPair_pairText (Nat.zero_le _) (by omega) (by omega)
  have hsixtieth : ∀ cs, readPair 0 60 (pairText (second % 60) ++ cs) = some (second % 60, cs) :=
    readPair_pairText (Nat.zero_le _) (by omega) (by omega)
  have hdash : ∀ cs, expect '-' ('-' :: cs) = some cs := expect_cons (by decide)
  have hcolon : ∀ cs, expect ':' (':' :: cs) = some cs := expect_cons (by decide)
  have hoffset : readOffset (trimStart ['Z']) = some (0, []) := by decide
  rw [htext]
  unfold parse?
  -- the parts of the text in their order; each is taken off what is left of it
  rw [readYear_yearText hlo hhi]
  dsimp only [bind, Option.bind]
  rw [hdash]
  dsimp only
  rw [readPair_pairText hm hm' (by omega)]
  dsimp only
  rw [hdash]
  dsimp only
  rw [readPair_pairText hd hd' (by omega)]
  dsimp only
  rw [if_pos (Or.inl rfl), hhour]
  dsimp only
  rw [hcolon]
  dsimp only
  rw [hminute]
  dsimp only
  rw [hcolon]
  dsimp only
  rw [hsixtieth]
  dsimp only
  rw [readFraction_fractionText hnanos]
  dsimp only
  rw [hoffset]
  dsimp only
  have hwall : t.date.toDays * secondsOfDay +
      (second / 3600 * 3600 + second / 60 % 60 * 60 + min (second % 60) 59 : Nat) - 0 =
        t.seconds := by
    have hsum : second / 3600 * 3600 + second / 60 % 60 * 60 + min (second % 60) 59 = second := by
      omega
    rw [hsum, Int.sub_zero, hseconds]
  have hsixty : second % 60 ≠ 60 := by omega
  have hrange : minYear ≤ 0 ∧ 9999 ≤ maxYear := by decide
  rw [hwall, if_neg hsixty]
  exact if_pos ⟨rfl, Int.le_trans hrange.1 hlo, Int.le_trans hhi hrange.2, hvalid, by decide,
    hfirst, hlast⟩

end Timestamp

end SealedGraph
