import SealedGraph.Proofs.Index
import SealedGraph.Proofs.Registry.Link

/-!
# How many failed logins count

A name has at most one entry, with a count and the time of its last failure, and the whole count
expires a window after that. To enter a failure first drops what has expired under all names. So
what expires under one name is never missed, and no name loses failures by those of another.

* `failureCount_eq_of_ne_zero`: as long as any failures count, all of them do.
* `le_failureCount_prune`, `failureCount_prune_le`: to drop what has expired changes no count later.
* `le_failureCount_noted`, `failureCount_noted_le`, `failureCount_noted_of_ne`: one failure more.
-/

namespace SealedGraph.Registry.Table

variable {t t' : Table} {u w : String} {now t₀ : Nat}

/-! ### In the course of time -/

theorem failureCount_of_find? {f : Failures} (h : t.failures.find? u = some f) :
    t.failureCount u now = if t.isCurrent now f then f.count else 0 := by
  unfold failureCount
  rw [h]

theorem failureCount_of_find?_eq_none (h : t.failures.find? u = none) :
    t.failureCount u now = 0 := by
  unfold failureCount
  rw [h]

theorem isCurrent_iff {f : Failures} : t.isCurrent now f = true ↔ now - f.last < t.window :=
  decide_eq_true_iff

theorem isCurrent_of_le {f : Failures} (ht : t₀ ≤ now) (h : t.isCurrent now f = true) :
    t.isCurrent t₀ f = true := by
  rw [isCurrent_iff] at h ⊢
  omega

/-- Failures that count have an entry that has not expired. -/
theorem exists_of_failureCount_ne_zero (h : t.failureCount u now ≠ 0) :
    ∃ f, t.failures.find? u = some f ∧ t.isCurrent now f = true ∧
      t.failureCount u now = f.count := by
  cases hf : t.failures.find? u with
  | none => exact absurd (failureCount_of_find?_eq_none hf) h
  | some f =>
    rw [failureCount_of_find? hf] at h ⊢
    split
    · rename_i hc
      exact ⟨f, rfl, hc, rfl⟩
    · rename_i hc
      rw [if_neg hc] at h
      exact absurd rfl h

/-- **As long as any failures count, all do** that did before. -/
theorem failureCount_eq_of_ne_zero (ht : t₀ ≤ now) (h : t.failureCount u now ≠ 0) :
    t.failureCount u t₀ = t.failureCount u now := by
  obtain ⟨f, hf, hc, hn⟩ := exists_of_failureCount_ne_zero h
  rw [hn, failureCount_of_find? hf, if_pos (isCurrent_of_le ht hc)]

/-- In the course of time failures only cease to count. -/
theorem failureCount_le_of_le (ht : t₀ ≤ now) : t.failureCount u now ≤ t.failureCount u t₀ := by
  by_cases h : t.failureCount u now = 0
  · rw [h]
    exact Nat.zero_le _
  · exact Nat.le_of_eq (failureCount_eq_of_ne_zero ht h).symm

theorem failureCount_congr (hf : t'.failures = t.failures) (hw : t'.window = t.window) :
    t'.failureCount u now = t.failureCount u now := by
  unfold failureCount isCurrent
  rw [hf, hw]

/-- An operation that does not write failures changes no count. -/
theorem failureCount_apply {k : Kind} (op : Operation k) (h : op.writes ≠ some .failures)
    (t₀ now : Nat) : (op.apply t₀ t).2.failureCount u now = t.failureCount u now :=
  failureCount_congr (op.same_apply h t₀ t) (op.window_apply t₀ t)

/-! ### Cleared failures -/

theorem failureCount_resetFailures :
    (t.resetFailures w).failureCount u now = if u = w then 0 else t.failureCount u now := by
  by_cases h : u = w
  · rw [if_pos h]
    exact failureCount_of_find?_eq_none (by simp [resetFailures, h])
  · rw [if_neg h]
    unfold failureCount resetFailures isCurrent
    simp only [Index.find?_erase, if_neg h]

/-! ### Expired failures -/

/-- **Nothing that still counts is dropped.** -/
theorem le_failureCount_prune (ht : t₀ ≤ now) :
    t.failureCount u now ≤ (t.prune t₀).failureCount u now := by
  by_cases h : t.failureCount u now = 0
  · rw [h]
    exact Nat.zero_le _
  · obtain ⟨f, hf, hc, hn⟩ := exists_of_failureCount_ne_zero h
    have hf' : (t.prune t₀).failures.find? u = some f :=
      Index.find?_keep_of_find? hf (isCurrent_of_le ht hc)
    have hc' : (t.prune t₀).isCurrent now f = true := hc
    have hcount : (t.prune t₀).failureCount u now = f.count := by
      rw [failureCount_of_find? hf', if_pos hc']
    exact Nat.le_of_eq (hn.trans hcount.symm)

theorem failureCount_prune_le (hn : t.failures.keys.Nodup) :
    (t.prune t₀).failureCount u now ≤ t.failureCount u now := by
  by_cases h : (t.prune t₀).failureCount u now = 0
  · rw [h]
    exact Nat.zero_le _
  · obtain ⟨f, hf, hc, hcount⟩ := exists_of_failureCount_ne_zero h
    have hc : t.isCurrent now f = true := hc
    have hsame : t.failureCount u now = f.count := by
      rw [failureCount_of_find? (Index.find?_of_find?_keep hn hf), if_pos hc]
    exact Nat.le_of_eq (hcount.trans hsame.symm)

/-! ### One failure more -/

/-- **The next count** is one more than those that count, as far as counts go. -/
theorem nextCount_eq (hu : u ≠ "") :
    t.nextCount u now = min (t.failureCount u now + 1) maxCount := by
  have hmax : 1 ≤ maxCount := by decide
  unfold nextCount
  rw [if_neg (by simpa using hu)]
  cases hf : t.failures.find? u with
  | none =>
    rw [failureCount_of_find?_eq_none hf]
    exact (Nat.min_eq_left hmax).symm
  | some f =>
    rw [failureCount_of_find? hf]
    simp only
    split
    · rfl
    · exact (Nat.min_eq_left hmax).symm

theorem failureCount_recordFailure_self (hu : u ≠ "") :
    (t.recordFailure u t₀).failureCount u now =
      if now - t₀ < t.window then t.nextCount u t₀ else 0 := by
  unfold recordFailure
  rw [if_neg (by simpa using hu)]
  rw [failureCount_of_find? (f := ⟨t.nextCount u t₀, t₀⟩) (by simp)]
  simp only [isCurrent, decide_eq_true_eq]

theorem failureCount_recordFailure_of_ne (h : u ≠ w) :
    (t.recordFailure w t₀).failureCount u now = t.failureCount u now := by
  unfold recordFailure
  split
  · rfl
  · unfold failureCount isCurrent
    simp only [Index.find?_insert, if_neg h]

/-- The table once a failure with a name was entered at a time. -/
def noted (t : Table) (username : String) (now : Nat) : Table :=
  (t.prune now).recordFailure username now

/-- **A failure that is entered counts for a window.** -/
theorem le_failureCount_noted (hu : u ≠ "") (ht : t₀ ≤ now) (hnow : now < t₀ + t.window) :
    min (t.failureCount u t₀ + 1) maxCount ≤ (t.noted u t₀).failureCount u now := by
  have hwindow : now - t₀ < (t.prune t₀).window := by
    show now - t₀ < t.window
    omega
  have hprune : t.failureCount u t₀ ≤ (t.prune t₀).failureCount u t₀ :=
    le_failureCount_prune (Nat.le_refl t₀)
  rw [noted, failureCount_recordFailure_self hu, if_pos hwindow, nextCount_eq hu]
  omega

/-- **A failure is one more and not two.** -/
theorem failureCount_noted_le (hu : u ≠ "") (hn : t.failures.keys.Nodup) :
    (t.noted u t₀).failureCount u now ≤ t.failureCount u t₀ + 1 := by
  have hprune : (t.prune t₀).failureCount u t₀ ≤ t.failureCount u t₀ := failureCount_prune_le hn
  rw [noted, failureCount_recordFailure_self hu, nextCount_eq hu]
  split
  · omega
  · omega

/-- **Failures with another name** lose what has expired, and that is all. -/
theorem failureCount_noted_of_ne (h : u ≠ w) :
    (t.noted w t₀).failureCount u now = (t.prune t₀).failureCount u now := by
  rw [noted, failureCount_recordFailure_of_ne h]

theorem nodup_keys_noted (hn : t.failures.keys.Nodup) :
    (t.noted w t₀).failures.keys.Nodup := by
  have hprune : (t.prune t₀).failures.keys.Nodup := Index.nodup_keys_keep hn _
  unfold noted recordFailure
  split
  · exact hprune
  · exact Index.nodup_keys_insert hprune _ _

end SealedGraph.Registry.Table

namespace SealedGraph.Registry

/-- **A name has one entry at most.** -/
theorem Operation.nodup_failures {k : Kind} (op : Operation k) (now : Nat) {t : Table}
    (h : t.failures.keys.Nodup) : (op.apply now t).2.failures.keys.Nodup := by
  by_cases hw : op.writes = some .failures
  · cases op with
    | recordFailure username => exact Table.nodup_keys_noted h
    | resetFailures username => exact Index.nodup_keys_erase h username
    | _ => cases hw
  · have hsame : (op.apply now t).2.failures = t.failures := op.same_apply hw now t
    rw [hsame]
    exact h

end SealedGraph.Registry
