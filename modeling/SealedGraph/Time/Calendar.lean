/-!
# The calendar

Days since 1 January 1970 and dates of the proleptic Gregorian calendar. A year is counted from
March, so that the leap day is its last one; four hundred years have 146097 days, one hundred have
36524 and four have 1461, the last of each kind a day more or less.

* `Date.toDays_ofDays`: the date of a day leads back to that day.
* `Date.isValid_ofDays`: and it is one that the calendar has.
-/

namespace SealedGraph

/-- A day of the calendar. -/
structure Date where
  year : Int
  month : Nat
  day : Nat
  deriving DecidableEq, Repr

namespace Date

/-- A year with a leap day. -/
def isLeap (year : Int) : Bool := year % 4 = 0 && (year % 100 ≠ 0 || year % 400 = 0)

/-- The number of days in a month. -/
def daysIn (year : Int) (month : Nat) : Nat :=
  if month = 2 then if isLeap year then 29 else 28
  else if month = 4 ∨ month = 6 ∨ month = 9 ∨ month = 11 then 30
  else 31

/-- A date that the calendar has. -/
def isValid (d : Date) : Bool :=
  1 ≤ d.month && d.month ≤ 12 && 1 ≤ d.day && d.day ≤ daysIn d.year d.month

/-- The number of days between 1 March of year 0 and 1 January 1970. -/
def epoch : Int := 719468

/-- The days before the month with a number counted from March, within its year. -/
def daysBefore (month : Int) : Int := (153 * month + 2) / 5

/-- The days since 1 January 1970. -/
def toDays (d : Date) : Int :=
  let year := if d.month ≤ 2 then d.year - 1 else d.year
  let month : Int := if d.month ≤ 2 then d.month + 9 else d.month - 3
  let ofCycle := year % 400
  year / 400 * 146097 + (ofCycle * 365 + ofCycle / 4 - ofCycle / 100)
    + (daysBefore month + d.day - 1) - epoch

/-- The year of a day within four hundred years, and the day within that year. -/
def splitCycle (day : Int) : Int × Int :=
  let century := min 3 (day / 36524)
  let day := day - century * 36524
  let four := day / 1461
  let day := day - four * 1461
  let single := min 3 (day / 365)
  (century * 100 + four * 4 + single, day - single * 365)

/-- The date that many days after 1 January 1970. -/
def ofDays (days : Int) : Date :=
  let days := days + epoch
  let (ofCycle, ofYear) := splitCycle (days % 146097)
  let month := (5 * ofYear + 2) / 153
  let day := ofYear - daysBefore month + 1
  let year := days / 146097 * 400 + ofCycle
  if month < 10 then ⟨year, (month + 3).toNat, day.toNat⟩
  else ⟨year + 1, (month - 9).toNat, day.toNat⟩

theorem splitCycle_bounds {day : Int} (h : 0 ≤ day) (h' : day < 146097) :
    0 ≤ (splitCycle day).1 ∧ (splitCycle day).1 < 400 ∧
      0 ≤ (splitCycle day).2 ∧ (splitCycle day).2 ≤ 365 := by
  simp only [splitCycle]
  omega

theorem splitCycle_sum {day : Int} (h : 0 ≤ day) (h' : day < 146097) :
    (splitCycle day).1 * 365 + (splitCycle day).1 / 4 - (splitCycle day).1 / 100
      + (splitCycle day).2 = day := by
  simp only [splitCycle]
  generalize hc : min 3 (day / 36524) = century
  generalize hf : (day - century * 36524) / 1461 = four
  generalize hs : min 3 ((day - century * 36524 - four * 1461) / 365) = single
  have hs' : 0 ≤ single ∧ single ≤ 3 := by omega
  have hf' : 0 ≤ four ∧ four ≤ 24 := by omega
  have h4 : (century * 100 + four * 4 + single) / 4 = century * 25 + four := by omega
  have h100 : (century * 100 + four * 4 + single) / 100 = century := by omega
  rw [h4, h100]
  omega

theorem toDays_ofDays (days : Int) : (ofDays days).toDays = days := by
  have lo : 0 ≤ (days + epoch) % 146097 := by omega
  have hi : (days + epoch) % 146097 < 146097 := by omega
  have bound := splitCycle_bounds lo hi
  have sum := splitCycle_sum lo hi
  simp only [ofDays]
  generalize splitCycle ((days + epoch) % 146097) = p at *
  obtain ⟨year, day⟩ := p
  simp only at bound sum ⊢
  have hm : 0 ≤ (5 * day + 2) / 153 ∧ (5 * day + 2) / 153 ≤ 11 := by omega
  have hd : 1 ≤ day - daysBefore ((5 * day + 2) / 153) + 1 := by simp only [daysBefore]; omega
  have hq : ((days + epoch) / 146097 * 400 + year) / 400 = (days + epoch) / 146097 := by omega
  have hr : ((days + epoch) / 146097 * 400 + year) % 400 = year := by omega
  generalize (5 * day + 2) / 153 = month at *
  split
  · have e : ((month + 3).toNat : Int) - 3 = month := by omega
    have n : ¬ (month + 3).toNat ≤ 2 := by omega
    simp only [toDays, n, if_false, e, hq, hr]
    omega
  · have e : ((month - 9).toNat : Int) + 9 = month := by omega
    have n : (month - 9).toNat ≤ 2 := by omega
    simp only [toDays, n, if_true, e, Int.add_sub_cancel, hq, hr]
    omega

theorem splitCycle_leap {day : Int} (h : 0 ≤ day) (h' : day < 146097)
    (last : (splitCycle day).2 = 365) :
    ((splitCycle day).1 + 1) % 4 = 0 ∧
      (((splitCycle day).1 + 1) % 100 ≠ 0 ∨ (splitCycle day).1 = 399) := by
  revert last
  simp only [splitCycle]
  generalize hc : min 3 (day / 36524) = century
  generalize hf : (day - century * 36524) / 1461 = four
  generalize hs : min 3 ((day - century * 36524 - four * 1461) / 365) = single
  have hf' : 0 ≤ four ∧ four ≤ 24 := by omega
  intro last
  have hs' : single = 3 := by omega
  subst hs'
  exact ⟨by omega, by omega⟩

theorem isValid_ofDays (days : Int) : (ofDays days).isValid = true := by
  have lo : 0 ≤ (days + epoch) % 146097 := by omega
  have hi : (days + epoch) % 146097 < 146097 := by omega
  have bound := splitCycle_bounds lo hi
  have leap := splitCycle_leap lo hi
  simp only [ofDays]
  generalize splitCycle ((days + epoch) % 146097) = p at *
  obtain ⟨year, day⟩ := p
  simp only at bound leap ⊢
  have hd : 1 ≤ day - daysBefore ((5 * day + 2) / 153) + 1 := by simp only [daysBefore]; omega
  generalize hk : (5 * day + 2) / 153 = month at *
  have cases : month = 11 ∨ month = 0 ∨ month = 1 ∨ month = 2 ∨ month = 3 ∨ month = 4 ∨
      month = 5 ∨ month = 6 ∨ month = 7 ∨ month = 8 ∨ month = 9 ∨ month = 10 := by omega
  rcases cases with rfl | rest
  · simp only [daysBefore] at *
    simp only [isValid, daysIn, isLeap]
    by_cases last : day = 365
    · have := leap last
      simp
      split <;> omega
    · simp
      split <;> omega
  · rcases rest with rfl | rfl | rfl | rfl | rfl | rfl | rfl | rfl | rfl | rfl | rfl <;>
      simp only [daysBefore] at * <;> simp [isValid, daysIn] <;> omega

end Date

end SealedGraph
