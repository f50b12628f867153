import SealedGraph.Registry.Link

/-!
# Calls to a registry that may fail

A link says beforehand which of its next calls fail, so whether a number of questions can all be put
is known from the link alone.

* `failureWithin_add`: some questions, and then more, fail where the first or the second ones do.
* `call_fst`, `table_call`: any call, whether it fails or not.
* `call_hasGroup`: a question about a group is answered from the table, or fails as foreseen; the
  table stays.
* `call_of_isResponsive`: a responsive link does every operation and stays responsive.
* `Told`: any calls that write some parts of the table only; the other parts stay (`Told.same`).
-/

namespace SealedGraph.Registry

/-- The error that a call with this fate gives to its caller. -/
def Fate.error? : Fate → Option Error
  | .answered => none
  | .failed e _ => some e

/-! ### The parts of the table -/

/-- The parts of the table. -/
inductive Part
  | sessions
  | groups
  | failures
  deriving DecidableEq

/-- A part is the same in two tables. -/
def Part.Same (t t' : Table) : Part → Prop
  | .sessions => t'.sessions = t.sessions
  | .groups => t'.groups = t.groups
  | .failures => t'.failures = t.failures

namespace Operation

/-- The part of the table that an operation writes, if it writes any. -/
def writes : {k : Kind} → Operation k → Option Part
  | _, .addSession _ _ => some .sessions
  | _, .deleteSession _ _ => some .sessions
  | _, .purgeSessions _ => some .sessions
  | _, .allow _ _ => some .groups
  | _, .revoke _ _ => some .groups
  | _, .recordFailure _ => some .failures
  | _, .resetFailures _ => some .failures
  | _, .hasSession _ _ => none
  | _, .hasGroup _ _ => none
  | _, .failureCount _ => none

variable {k : Kind}

/-- **An operation leaves the parts alone that it does not write.** -/
theorem same_apply (op : Operation k) {p : Part} (h : op.writes ≠ some p) (now : Nat) (t : Table) :
    p.Same t (op.apply now t).2 := by
  cases op with
  | addSession uid session =>
    simp only [apply, Table.addSession]
    cases p with
    | sessions => exact absurd rfl h
    | groups | failures =>
      simp only [Part.Same]
      split
      · rfl
      · rfl
  | allow uid list =>
    simp only [apply, Table.allow]
    cases p with
    | groups => exact absurd rfl h
    | sessions | failures =>
      simp only [Part.Same]
      split
      · rfl
      · rfl
  | recordFailure username =>
    simp only [apply, Table.recordFailure]
    cases p with
    | failures => exact absurd rfl h
    | sessions | groups =>
      simp only [Part.Same]
      split
      · rfl
      · rfl
  | deleteSession uid session | purgeSessions uid =>
    cases p with
    | sessions => exact absurd rfl h
    | groups | failures => rfl
  | revoke uid list =>
    cases p with
    | groups => exact absurd rfl h
    | sessions | failures => rfl
  | resetFailures username =>
    cases p with
    | failures => exact absurd rfl h
    | sessions | groups => rfl
  | hasSession uid session | hasGroup uid group | failureCount username =>
    cases p with
    | sessions | groups | failures => rfl

theorem window_apply (op : Operation k) (now : Nat) (t : Table) :
    (op.apply now t).2.window = t.window := by
  cases op with
  | addSession uid session =>
    simp only [apply, Table.addSession]
    split
    · rfl
    · rfl
  | allow uid list =>
    simp only [apply, Table.allow]
    split
    · rfl
    · rfl
  | recordFailure username =>
    simp only [apply, Table.recordFailure]
    split
    · rfl
    · rfl
  | _ => rfl

end Operation

namespace Link

/-- The link after `n` more calls, whatever they were, none of which changed the table. -/
def after (l : Link) (n : Nat) : Link := { l with fates := l.fates.drop n }

/-- The error of the first of the next `n` calls that fails. -/
def failureWithin (l : Link) (n : Nat) : Option Error :=
  if l.closed then (if n = 0 then none else some .closed)
  else (l.fates.take n).findSome? Fate.error?

theorem after_after (l : Link) (n k : Nat) : (l.after n).after k = l.after (n + k) := by
  simp [after, List.drop_drop]

@[simp] theorem failureWithin_zero (l : Link) : l.failureWithin 0 = none := by
  simp [failureWithin]

theorem failureWithin_add (l : Link) (n k : Nat) :
    l.failureWithin (n + k) = (l.failureWithin n).or ((l.after n).failureWithin k) := by
  unfold failureWithin after
  cases hc : l.closed with
  | true =>
    by_cases hn : n = 0
    · simp [hn]
    · simp [hn]
  | false =>
    simp only [Bool.false_eq_true, if_false]
    rw [List.take_add, List.findSome?_append]

/-! ### Calls -/

section Call

variable {k : Kind} (l : Link) (now : Nat) (op : Operation k)

/-- **A call is answered or fails**, as foreseen. -/
theorem call_fst : (l.call now op).1 =
    match l.nextFate with
    | .answered => .ok (op.apply now l.table).1
    | .failed e _ => .error e := by
  unfold call
  rcases l.nextFate with _ | ⟨e, _ | _⟩
  · rfl
  · rfl
  · rfl

theorem closed_call : (l.call now op).2.closed = l.closed := by
  unfold call
  rcases l.nextFate with _ | ⟨e, _ | _⟩
  · rfl
  · rfl
  · rfl

/-- **What a call does** is its operation, or nothing. -/
theorem table_call : (l.call now op).2.table = l.table ∨
    (l.call now op).2.table = (op.apply now l.table).2 := by
  unfold call
  rcases l.nextFate with _ | ⟨e, _ | _⟩
  · exact .inr rfl
  · exact .inl rfl
  · exact .inr rfl

end Call

/-! ### Questions about groups -/

/-- **A question about a group.** -/
theorem call_hasGroup (l : Link) (now : Nat) (uid group : String) :
    (l.failureWithin 1 = none →
      l.call now (.hasGroup uid group) = (.ok (l.table.hasGroup uid group), l.after 1)) ∧
    ∀ e, l.failureWithin 1 = some e →
      ∃ l', l.call now (.hasGroup uid group) = (.error e, l') ∧ l'.table = l.table := by
  unfold failureWithin call nextFate after Operation.apply
  cases hc : l.closed with
  | true => simp
  | false =>
    rcases hf : l.fates with _ | ⟨fate, fates⟩
    · simp
    · rcases fate with _ | ⟨e, _ | _⟩ <;> simp [Fate.error?]

/-! ### Responsive links -/

theorem isResponsive_iff {l : Link} :
    l.isResponsive = true ↔ l.closed = false ∧ ∀ f ∈ l.fates, f = .answered := by
  simp [isResponsive]

/-- **A responsive link does every operation**, answers it, and stays responsive. -/
theorem call_of_isResponsive {k : Kind} {l : Link} (h : l.isResponsive = true) (now : Nat)
    (op : Operation k) :
    ∃ l', l.call now op = (.ok (op.apply now l.table).1, l') ∧
      l'.table = (op.apply now l.table).2 ∧ l'.isResponsive = true := by
  obtain ⟨hc, hf⟩ := isResponsive_iff.1 h
  have hn : l.nextFate = .answered := by
    unfold nextFate
    rw [hc]
    rcases hl : l.fates with _ | ⟨f, fs⟩
    · rfl
    · exact hf f (by simp [hl])
  refine ⟨{ l with table := (op.apply now l.table).2, fates := l.fates.drop 1 }, ?_, rfl, ?_⟩
  · simp [call, hn]
  · exact isResponsive_iff.2 ⟨hc, fun f hm => hf f (List.mem_of_mem_drop hm)⟩

/-! ### Calls that write some parts only -/

/-- What is left of a link after some calls, answered or not, that write nothing but these parts of
the table. -/
inductive Told (parts : List Part) : Link → Link → Prop
  | nothing (l : Link) : Told parts l l
  | call {l l' : Link} (h : Told parts l l') {k : Kind} (now : Nat) (op : Operation k)
    (hop : ∀ p, op.writes = some p → p ∈ parts) : Told parts l (l'.call now op).2

namespace Told

variable {parts : List Part} {l l' l'' : Link}

theorem trans (h : Told parts l l') (h' : Told parts l' l'') : Told parts l l'' := by
  induction h' with
  | nothing => exact h
  | call _ now op hop ih => exact .call ih now op hop

theorem mono {more : List Part} (h : Told parts l l') (hsub : parts ⊆ more) : Told more l l' := by
  induction h with
  | nothing => exact .nothing l
  | call _ now op hop ih => exact .call ih now op fun p hp => hsub (hop p hp)

theorem isResponsive (h : Told parts l l') (hr : l.isResponsive = true) :
    l'.isResponsive = true := by
  induction h with
  | nothing => exact hr
  | call _ now op hop ih =>
    obtain ⟨l'', hl, -, hr''⟩ := call_of_isResponsive ih now op
    rw [hl]
    exact hr''

/-- **What is not written stays.** -/
theorem same (h : Told parts l l') {p : Part} (hp : p ∉ parts) : p.Same l.table l'.table := by
  have htrans : ∀ {t t' t'' : Table}, p.Same t t' → p.Same t' t'' → p.Same t t'' := by
    intro t t' t'' h h'
    cases p with
    | sessions | groups | failures => exact h'.trans h
  have hrefl : ∀ t : Table, p.Same t t := by
    intro t
    cases p with
    | sessions | groups | failures => rfl
  induction h with
  | nothing => exact hrefl _
  | @call l' _ k now op hop ih =>
    have hw : op.writes ≠ some p := fun e => hp (hop p e)
    rcases table_call l' now op with ht | ht
    · rw [ht]
      exact ih
    · rw [ht]
      exact htrans ih (op.same_apply hw now l'.table)

theorem window (h : Told parts l l') : l'.table.window = l.table.window := by
  induction h with
  | nothing => rfl
  | @call l' _ k now op hop ih =>
    rcases table_call l' now op with ht | ht
    · rw [ht, ih]
    · rw [ht, op.window_apply, ih]

end Told

end Link

end SealedGraph.Registry
