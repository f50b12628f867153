import Mathlib.Data.List.Induction
import Mathlib.Order.Bounds.Defs
import SealedGraph.Proofs.Registry.Failures
import SealedGraph.Proofs.Registry.Sets

/-!
# Counts of failures and their history

How many failures count with a name at a time can be read off the times at which there were
failures with it: those since the name was last cleared, as far back as each came within a window of
the one before it, and none of them once the last has expired. That expired failures of all names
are dropped whenever one is entered can be seen in no answer.

* `failureTimes`: the times of the failures with a name since it was last cleared.
* `isGreatest_streak`: the failures that count together are the longest final run without a gap.
* `CountsFrom`: a table counts what a history says, from a time on; one law for each operation.
* `failures_exact`: so it is after any operations, and as well if nothing is ever dropped.
-/

namespace SealedGraph.Registry

/-! ### Histories -/

namespace Operation

/-- Whether the operation enters a failure with a name; nobody has the empty one. -/
def fails (u : String) : {k : Kind} → Operation k → Bool
  | _, .recordFailure w => w = u && !u.isEmpty
  | _, _ => false

/-- Whether the operation clears the failures with a name. -/
def clears (u : String) : {k : Kind} → Operation k → Bool
  | _, .resetFailures w => w = u
  | _, _ => false

end Operation

/-- The times of the failures with a name since it was last cleared, the latest first. -/
def failureTimes (u : String) (acts : List Act) : List Nat :=
  ((acts.reverse.takeWhile fun a => !a.op.clears u).filter fun a => a.op.fails u).map Act.now

/-- How many failures with these times, the latest first, come each within the window of the one
before it. -/
def streak (window : Nat) : List Nat → Nat
  | [] => 0
  | [_] => 1
  | t :: t' :: ts => if t - t' < window then streak window (t' :: ts) + 1 else 1

/-- How many failures with these times, the latest first, count at a time: none once the last one
has expired, and no more than a word can count. -/
def countAt (window : Nat) (times : List Nat) (now : Nat) : Nat :=
  match times with
  | [] => 0
  | last :: _ => if now - last < window then min (streak window times) (2 ^ 32 - 1) else 0

section Times

variable {window now : Nat}

theorem failureTimes_concat (u : String) (acts : List Act) (a : Act) :
    failureTimes u (acts ++ [a]) =
    if a.op.clears u then []
    else if a.op.fails u then a.now :: failureTimes u acts else failureTimes u acts := by
  unfold failureTimes
  rw [List.reverse_append, List.reverse_singleton, List.singleton_append, List.takeWhile_cons]
  by_cases hc : a.op.clears u = true
  · simp [hc]
  · by_cases hf : a.op.fails u = true
    · simp [hc, hf]
    · simp [hc, hf]

theorem streak_pos {ts : List Nat} (h : ts ≠ []) : 0 < streak window ts := by
  fun_cases streak window ts with
  | case1 => exact absurd rfl h
  | case2 => exact Nat.one_pos
  | case3 => exact Nat.succ_pos _
  | case4 => exact Nat.one_pos

/-- **The streak is the longest final run**: of all numbers of last failures between which every gap
is below the window it is the greatest. -/
theorem isGreatest_streak (window : Nat) (ts : List Nat) :
    IsGreatest {n | n ≤ ts.length ∧
      (ts.take n).IsChain fun later earlier => later - earlier < window} (streak window ts) := by
  induction ts with
  | nil => exact ⟨⟨Nat.le_refl 0, List.isChain_nil⟩, fun n hn => hn.1⟩
  | cons t ts ih =>
    cases ts with
    | nil => exact ⟨⟨Nat.le_refl 1, List.isChain_singleton t⟩, fun n hn => hn.1⟩
    | cons t' ts =>
      by_cases h : t - t' < window
      · have hstreak : streak window (t :: t' :: ts) = streak window (t' :: ts) + 1 := if_pos h
        obtain ⟨⟨hle, hchain⟩, hub⟩ := ih
        rw [hstreak]
        refine ⟨⟨Nat.succ_le_succ hle, ?_⟩, ?_⟩
        · obtain ⟨k, hk⟩ : ∃ k, streak window (t' :: ts) = k + 1 :=
            Nat.exists_eq_succ_of_ne_zero (streak_pos (List.cons_ne_nil t' ts)).ne'
          rw [hk, List.take_succ_cons] at hchain
          rw [hk, List.take_succ_cons, List.take_succ_cons]
          exact List.isChain_cons_cons.2 ⟨h, hchain⟩
        · rintro (_ | n) ⟨hn, hc⟩
          · exact Nat.zero_le _
          · rw [List.take_succ_cons] at hc
            exact Nat.succ_le_succ (hub ⟨Nat.le_of_succ_le_succ hn, hc.tail⟩)
      · have hstreak : streak window (t :: t' :: ts) = 1 := if_neg h
        rw [hstreak]
        refine ⟨⟨Nat.succ_le_succ (Nat.zero_le _), List.isChain_singleton t⟩, ?_⟩
        rintro (_ | _ | n) ⟨-, hc⟩
        · exact Nat.zero_le 1
        · exact Nat.le_refl 1
        · rw [List.take_succ_cons, List.take_succ_cons] at hc
          exact absurd (List.isChain_cons_cons.1 hc).1 h

/-- One failure more: it joins those that count at its time. -/
theorem countAt_cons (t : Nat) (ts : List Nat) : countAt window (t :: ts) now =
    if now - t < window then min (countAt window ts t + 1) maxCount else 0 := by
  have hmax : maxCount = 2 ^ 32 - 1 := rfl
  rw [hmax]
  cases ts with
  | nil => rfl
  | cons t' ts =>
    unfold countAt
    simp only [streak]
    by_cases h : t - t' < window
    · simp only [if_pos h]
      split
      · omega
      · rfl
    · simp only [if_neg h]

theorem failureTimes_empty (acts : List Act) : failureTimes "" acts = [] := by
  unfold failureTimes
  rw [List.map_eq_nil_iff, List.filter_eq_nil_iff]
  rintro ⟨now, op⟩ -
  cases op with
  | recordFailure w => simp [Operation.fails]
  | _ => exact Bool.false_ne_true

end Times

/-! ### Tables -/

theorem window_recordFailure (t : Table) (u : String) (now : Nat) :
    (t.recordFailure u now).window = t.window := by
  unfold Table.recordFailure
  split
  · rfl
  · rfl

/-- From a time on the table counts with each name what a history says. -/
def CountsFrom (start : Nat) (acts : List Act) (t : Table) : Prop :=
  ∀ u now, start ≤ now → t.failureCount u now = countAt t.window (failureTimes u acts) now

namespace CountsFrom

variable {start now : Nat} {acts : List Act} {t : Table}

theorem empty (window : Nat) : CountsFrom 0 [] (Table.empty window) := fun _ _ _ => rfl

theorem mono (h : CountsFrom start acts t) (hs : start ≤ now) : CountsFrom now acts t :=
  fun u later hlater => h u later (Nat.le_trans hs hlater)

/-- **To drop what has expired changes no count** from then on. -/
theorem prune (h : CountsFrom start acts t) (hn : t.failures.keys.Nodup) (hs : start ≤ now) :
    CountsFrom now acts (t.prune now) := by
  intro u later hlater
  have hsame : (t.prune now).failureCount u later = t.failureCount u later :=
    Nat.le_antisymm (Table.failureCount_prune_le hn) (Table.le_failureCount_prune hlater)
  rw [hsame]
  exact h.mono hs u later hlater

theorem recordFailure (h : CountsFrom now acts t) (w : String) :
    CountsFrom now (acts ++ [⟨now, .recordFailure w⟩]) (t.recordFailure w now) := by
  intro u later hlater
  rw [window_recordFailure, failureTimes_concat]
  by_cases hu : u = ""
  · subst hu
    have hsame : (t.recordFailure w now).failureCount "" later = t.failureCount "" later := by
      by_cases hw : w = ""
      · rw [hw]
        rfl
      · exact Table.failureCount_recordFailure_of_ne (Ne.symm hw)
    rw [hsame, h "" later hlater]
    simp [Operation.clears, Operation.fails]
  · by_cases hw : w = u
    · subst hw
      rw [Table.failureCount_recordFailure_self hu, Table.nextCount_eq hu,
        h w now (Nat.le_refl now)]
      simp [Operation.clears, Operation.fails, hu, countAt_cons]
    · rw [Table.failureCount_recordFailure_of_ne (Ne.symm hw), h u later hlater]
      simp [Operation.clears, Operation.fails, hw]

theorem resetFailures (h : CountsFrom now acts t) (w : String) :
    CountsFrom now (acts ++ [⟨now, .resetFailures w⟩]) (t.resetFailures w) := by
  intro u later hlater
  have hwindow : (t.resetFailures w).window = t.window := rfl
  rw [hwindow, failureTimes_concat, Table.failureCount_resetFailures]
  by_cases hw : w = u
  · simp [Operation.clears, hw, countAt]
  · rw [if_neg (Ne.symm hw), h u later hlater]
    simp [Operation.clears, Operation.fails, hw]

/-- An operation that does not write failures has no part in the history. -/
theorem aside (h : CountsFrom now acts t) {k : Kind} {op : Operation k}
    (hop : op.writes ≠ some .failures) :
    CountsFrom now (acts ++ [⟨now, op⟩]) (op.apply now t).2 := by
  intro u later hlater
  have hclears : op.clears u = false := by
    cases op with
    | resetFailures w => exact absurd rfl hop
    | _ => rfl
  have hfails : op.fails u = false := by
    cases op with
    | recordFailure w => exact absurd rfl hop
    | _ => rfl
  rw [Table.failureCount_apply op hop, h u later hlater, op.window_apply, failureTimes_concat]
  simp only [hclears, hfails, Bool.false_eq_true, if_false]

/-- **One operation** of the registry. -/
theorem apply (h : CountsFrom start acts t) (hn : t.failures.keys.Nodup) {k : Kind}
    (op : Operation k) (hs : start ≤ now) :
    CountsFrom now (acts ++ [⟨now, op⟩]) (op.apply now t).2 := by
  cases op with
  | recordFailure w => exact (h.prune hn hs).recordFailure w
  | resetFailures w => exact (h.mono hs).resetFailures w
  | _ => exact (h.mono hs).aside nofun

end CountsFrom

/-! ### Nothing dropped -/

/-- The answer of an operation done at a time, and the table after it, if what no longer counts is
not dropped. -/
def Operation.applyLazily (now : Nat) : {k : Kind} → Operation k → Table → k.Value × Table
  | _, .recordFailure username, t => (t.nextCount username now, t.recordFailure username now)
  | _, op, t => op.apply now t

/-- The table after some operations, one after the other, if nothing is dropped. -/
def Table.afterLazily (t : Table) (acts : List Act) : Table :=
  acts.foldl (fun t a => (a.op.applyLazily a.now t).2) t

theorem afterLazily_concat (t : Table) (acts : List Act) (a : Act) :
    t.afterLazily (acts ++ [a]) = (a.op.applyLazily a.now (t.afterLazily acts)).2 := by
  simp [Table.afterLazily]

theorem CountsFrom.applyLazily {start now : Nat} {acts : List Act} {t : Table}
    (h : CountsFrom start acts t) {k : Kind} (op : Operation k) (hs : start ≤ now) :
    CountsFrom now (acts ++ [⟨now, op⟩]) (op.applyLazily now t).2 := by
  cases op with
  | recordFailure w => exact (h.mono hs).recordFailure w
  | resetFailures w => exact (h.mono hs).resetFailures w
  | _ => exact (h.mono hs).aside nofun

/-- The table with other failures. -/
def Table.withFailures (t : Table) (failures : Index Failures) : Table :=
  { t with failures := failures }

/-- **Whatever failures are kept**, an operation that is not about them does the same. -/
theorem applyLazily_withFailures {k : Kind} (op : Operation k) (now : Nat) (t : Table)
    (failures : Index Failures) : ∃ failures',
      (op.applyLazily now (t.withFailures failures)).2 =
        (op.apply now t).2.withFailures failures' := by
  cases op with
  | addSession uid session =>
    simp only [Operation.applyLazily, Operation.apply, Table.addSession]
    split
    · exact ⟨failures, rfl⟩
    · exact ⟨failures, rfl⟩
  | allow uid list =>
    simp only [Operation.applyLazily, Operation.apply, Table.allow]
    split
    · exact ⟨failures, rfl⟩
    · exact ⟨failures, rfl⟩
  | recordFailure w =>
    simp only [Operation.applyLazily, Operation.apply, Table.recordFailure]
    split
    · exact ⟨failures, rfl⟩
    · exact ⟨_, rfl⟩
  | _ => exact ⟨_, rfl⟩

/-! ### Whole histories -/

/-- Operations in the order of their times, and none of them after a time. -/
def InOrder (acts : List Act) (now : Nat) : Prop :=
  (acts.Pairwise fun a b => a.now ≤ b.now) ∧ ∀ a ∈ acts, a.now ≤ now

instance (acts : List Act) (now : Nat) : Decidable (InOrder acts now) :=
  inferInstanceAs (Decidable ((acts.Pairwise fun a b => a.now ≤ b.now) ∧ ∀ a ∈ acts, a.now ≤ now))

section Whole

variable {window now : Nat} {acts : List Act} {a : Act}

theorem InOrder.of_concat (h : InOrder (acts ++ [a]) now) : InOrder acts a.now ∧ a.now ≤ now := by
  obtain ⟨hpairs, hnow⟩ := h
  rw [List.pairwise_append] at hpairs
  refine ⟨⟨hpairs.1, fun b hb => hpairs.2.2 b hb a (List.mem_singleton_self a)⟩, ?_⟩
  exact hnow a (List.mem_append_right _ (List.mem_singleton_self a))

theorem window_after (t : Table) (acts : List Act) : (t.after acts).window = t.window := by
  induction acts using List.reverseRecOn with
  | nil => rfl
  | append_singleton acts a ih => rw [after_concat, a.op.window_apply, ih]

theorem nodup_failures_after (window : Nat) (acts : List Act) :
    ((Table.empty window).after acts).failures.keys.Nodup := by
  induction acts using List.reverseRecOn with
  | nil => exact List.nodup_nil
  | append_singleton acts a ih =>
    rw [after_concat]
    exact a.op.nodup_failures a.now ih

/-- **A table counts what its history says**, and so does one from which nothing is dropped; but for
the failures they keep they are the same. -/
theorem countsFrom_after (window : Nat) (h : InOrder acts now) :
    CountsFrom now acts ((Table.empty window).after acts) ∧
      CountsFrom now acts ((Table.empty window).afterLazily acts) ∧
      ∃ failures, (Table.empty window).afterLazily acts =
        ((Table.empty window).after acts).withFailures failures := by
  induction acts using List.reverseRecOn generalizing now with
  | nil =>
    have hempty := (CountsFrom.empty window).mono (Nat.zero_le now)
    exact ⟨hempty, hempty, _, rfl⟩
  | append_singleton acts a ih =>
    obtain ⟨hacts, ha⟩ := h.of_concat
    obtain ⟨heager, hlazy, failures, hsame⟩ := ih hacts
    rw [after_concat, afterLazily_concat]
    refine ⟨?_, ?_, ?_⟩
    · exact (heager.apply (nodup_failures_after window acts) a.op (Nat.le_refl _)).mono ha
    · exact (hlazy.applyLazily a.op (Nat.le_refl _)).mono ha
    · rw [hsame]
      exact applyLazily_withFailures a.op a.now _ failures

/-- What entering a failure answers is what then counts. -/
theorem nextCount_of_countsFrom {t : Table} (h : CountsFrom now acts t) (hw : 0 < t.window)
    (u : String) : t.nextCount u now =
      countAt t.window (failureTimes u (acts ++ [⟨now, .recordFailure u⟩])) now := by
  by_cases hu : u = ""
  · rw [hu, failureTimes_empty]
    rfl
  · rw [← window_recordFailure t u now, ← h.recordFailure u u now (Nat.le_refl now),
      Table.failureCount_recordFailure_self hu, if_pos (by omega)]

/-- **Nothing that has expired is left** once a failure was entered. -/
theorem current_of_mem_recordFailure {t : Table} (hw : 0 < t.window) {u : String} {f : Failures}
    (hf : f ∈ ((t.prune now).recordFailure u now).failures.values) : now - f.last < t.window := by
  have hkept : ∀ e ∈ (t.prune now).failures.entries, now - e.2.last < t.window := by
    intro e he
    exact Table.isCurrent_iff.1 (List.mem_filter.1 he).2
  obtain ⟨e, he, rfl⟩ := List.mem_map.1 hf
  unfold Table.recordFailure at he
  split at he
  · exact hkept e he
  · rcases Index.mem_of_mem_insert he with rfl | he
    · show now - now < t.window
      omega
    · exact hkept e he

end Whole

/-- What can be said of the failures that a registry counts at a time, from the operations that were
done to it. -/
structure Tally (window : Nat) (acts : List Act) (now : Nat) (t lazily : Table) : Prop where
  /-- failures count together as far back as no gap between two of them is a window long -/
  longest (u : String) : IsGreatest {n | n ≤ (failureTimes u acts).length ∧
      ((failureTimes u acts).take n).IsChain fun later earlier => later - earlier < window}
    (streak window (failureTimes u acts))
  count (u : String) : u ≠ "" → ((Operation.failureCount u).apply now t).1 =
    countAt window (failureTimes u acts) now
  record (u : String) : u ≠ "" → ((Operation.recordFailure u).apply now t).1 =
    countAt window (failureTimes u (acts ++ [⟨now, .recordFailure u⟩])) now
  nameless : ((Operation.recordFailure "").apply now t).1 = 0 ∧ ∀ u later, now ≤ later →
    ((Operation.recordFailure "").apply now t).2.failureCount u later = t.failureCount u later
  /-- no answer tells whether anything is ever dropped -/
  unseen {k : Kind} (op : Operation k) : (op.apply now t).1 = (op.applyLazily now lazily).1
  dropped (u : String) : ∀ f ∈ ((Operation.recordFailure u).apply now t).2.failures.values,
    now - f.last < window

/-- **Failures are counted as their history says.** Let any operations be done to an empty registry
in the order of their times, and let the window be positive. The failures that count with a name are
none if there was none since the name was last cleared or the last one is a window old; else they
are those of the longest final run without a gap of a window, as far as a word can count. To enter a
failure answers what then counts, and leaves nothing that has expired; with the empty name it
answers zero and counts nothing. All answers are the same if nothing is ever dropped. -/
theorem failures_exact {window : Nat} (hw : 0 < window) {acts : List Act} {now : Nat}
    (h : InOrder acts now) : Tally window acts now ((Table.empty window).after acts)
      ((Table.empty window).afterLazily acts) := by
  obtain ⟨heager, hlazy, failures, hsame⟩ := countsFrom_after window h
  have hwindow : ((Table.empty window).after acts).window = window := window_after _ acts
  have hwindow' : ((Table.empty window).afterLazily acts).window = window := by
    rw [hsame]
    exact hwindow
  set t := (Table.empty window).after acts
  set lazily := (Table.empty window).afterLazily acts
  have hpruned : CountsFrom now acts (t.prune now) :=
    heager.prune (nodup_failures_after window acts) (Nat.le_refl now)
  have hcount : ∀ u, t.failureCount u now = countAt window (failureTimes u acts) now := by
    intro u
    rw [heager u now (Nat.le_refl now), hwindow]
  have hrecord : ∀ u, (t.prune now).nextCount u now =
      countAt window (failureTimes u (acts ++ [⟨now, .recordFailure u⟩])) now := by
    intro u
    have hpositive : 0 < (t.prune now).window := hwindow.symm ▸ hw
    rw [nextCount_of_countsFrom hpruned hpositive u]
    exact congrArg (countAt · _ _) hwindow
  refine ⟨fun u => isGreatest_streak window _, fun u _ => hcount u, fun u _ => hrecord u,
    ⟨?_, ?_⟩, ?_, ?_⟩
  · rfl
  · intro u later hlater
    show (t.prune now).failureCount u later = t.failureCount u later
    rw [hpruned u later hlater, heager u later hlater]
    rfl
  · intro k op
    cases op with
    | recordFailure u =>
      show (t.prune now).nextCount u now = lazily.nextCount u now
      rw [hrecord, nextCount_of_countsFrom hlazy (by rw [hwindow']; exact hw), hwindow']
    | failureCount u =>
      show t.failureCount u now = lazily.failureCount u now
      rw [hcount, hlazy u now (Nat.le_refl now), hwindow']
    | _ => exact hsame ▸ rfl
  · intro u f hf
    rw [← hwindow]
    exact current_of_mem_recordFailure (by rw [hwindow]; exact hw) hf

/-- Two failures with one name, the second just within the window, and one with another name when
the first name's have expired. -/
theorem failures_exact_at_the_edge :
    let acts : List Act :=
      [⟨0, .recordFailure "ann"⟩, ⟨9, .recordFailure "ann"⟩, ⟨19, .recordFailure "bob"⟩]
    (0 < 10 ∧ InOrder acts 19) ∧
      Tally 10 acts 19 ((Table.empty 10).after acts) ((Table.empty 10).afterLazily acts) ∧
      countAt 10 (failureTimes "ann" acts) 18 = 2 ∧
      countAt 10 (failureTimes "ann" acts) 19 = 0 := by
  intro acts
  have hw : 0 < 10 := by decide
  have horder : InOrder acts 19 := by decide
  exact ⟨⟨hw, horder⟩, failures_exact hw horder, by decide, by decide⟩

end SealedGraph.Registry
