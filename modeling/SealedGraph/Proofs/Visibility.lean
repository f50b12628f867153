import Mathlib.Algebra.GroupWithZero.Nat
import SealedGraph.Proofs.Attempt
import SealedGraph.Proofs.Registry.Link
import SealedGraph.Server.Basic

/-!
# What the filter lets through

An answer is filtered node by node and child by child, and a question to the registry may fail at
any point of that. Which questions are put depends on the table alone, so that it can be said at
once what comes out: the first failure among these questions, or all that the caller can view.

* `settles_filterVisible`: the two nested loops, with failures anywhere.
* `pack_exact`: an answer of the server holds only the nodes and children the caller can view,
  each with a token for the caller, and the counter of hidden nodes goes up by the number of the
  others.
-/

namespace SealedGraph

open Registry (Link Table)

/-! ### Inquiries whose questions are known -/

/-- The inquiry puts `n` questions to the link, and gives `a` unless one of them fails. -/
structure Settles {α : Type} (x : Inquiry α) (l : Link) (n : Nat) (a : α) : Prop where
  answered : l.failureWithin n = none → x.run l = (.ok a, l.after n)
  failed : ∀ e, l.failureWithin n = some e → ∃ l', x.run l = (.error e, l') ∧ l'.table = l.table

section Settles

variable {α β : Type} {l : Link}

theorem settles_pure (a : α) : Settles (pure a) l 0 a where
  answered _ := rfl
  failed e h := by simp at h

/-- **One inquiry after the other** puts the questions of both. -/
theorem Settles.bind {x : Inquiry α} {f : α → Inquiry β} {n k : Nat} {a : α} {b : β}
    (hx : Settles x l n a) (hf : Settles (f a) (l.after n) k b) :
    Settles (x >>= f) l (n + k) b where
  answered h := by
    rw [Link.failureWithin_add, Option.or_eq_none_iff] at h
    rw [Attempt.run_bind, hx.answered h.1]
    simp only
    rw [hf.answered h.2, Link.after_after]
  failed e h := by
    -- What fails first is a question of the first inquiry, or all of these are answered.
    rw [Link.failureWithin_add] at h
    cases hn : l.failureWithin n with
    | some e' =>
      rw [hn, Option.some_or, Option.some.injEq] at h
      subst h
      obtain ⟨l', hr, ht⟩ := hx.failed e' hn
      exact ⟨l', by rw [Attempt.run_bind, hr], ht⟩
    | none =>
      rw [hn, Option.none_or] at h
      obtain ⟨l', hr, ht⟩ := hf.failed e h
      refine ⟨l', ?_, ht⟩
      rw [Attempt.run_bind, hx.answered hn]
      exact hr

theorem Settles.map {x : Inquiry α} {n : Nat} {a : α} (hx : Settles x l n a) (f : α → β) :
    Settles (x >>= fun a => pure (f a)) l n (f a) := by
  have h := hx.bind (f := fun a => pure (f a)) (settles_pure (f a))
  rwa [Nat.add_zero] at h

end Settles

/-! ### What a caller can view -/

namespace Caller

variable {c : Caller}

/-- A caller can view a node: as an administrator, as its owner, or if it is readable and its group
is open to the caller. -/
def CanView (c : Caller) (t : Table) (n : Node) : Prop :=
  c.role = adminRole ∨ n.owner = some c.uid ∨
    (n.permissions.read = true ∧ ∃ g, n.group = some g ∧ g ≠ "" ∧
      g ∈ (t.groups.find? c.uid).getD [])

theorem bypasses_iff {owner : Option String} :
    c.bypasses owner = true ↔ c.role = adminRole ∨ owner = some c.uid := by
  simp [bypasses, isAdmin, isOwner]

theorem group?_eq_some_iff {n : Node} {g : String} :
    n.group? = some g ↔ n.group = some g ∧ g ≠ "" := by
  simp [Node.group?, Option.filter_eq_some_iff]

/-- The group about which the registry has to be asked before it is known whether the caller can
view a node. -/
def question? (c : Caller) (n : Node) : Option String :=
  if c.bypasses n.owner || !n.permissions.read then none else n.group?

theorem canView_iff {t : Table} {n : Node} :
    c.CanView t n ↔ c.bypasses n.owner = true ∨
      (n.permissions.read = true ∧ ∃ g, n.group? = some g ∧ t.hasGroup c.uid g = true) := by
  rw [CanView, bypasses_iff, or_assoc]
  refine or_congr_right (or_congr_right (and_congr_right fun _ => exists_congr fun g => ?_))
  rw [group?_eq_some_iff, Registry.Table.hasGroup, Bool.and_eq_true, List.contains_iff_mem]
  simp only [Bool.not_eq_true', String.isEmpty_eq_false_iff]
  constructor
  · rintro ⟨hg, hne, hm⟩
    exact ⟨⟨hg, hne⟩, hne, hm⟩
  · rintro ⟨⟨hg, hne⟩, -, hm⟩
    exact ⟨hg, hne, hm⟩

instance (t : Table) (n : Node) : Decidable (c.CanView t n) :=
  decidable_of_iff
    (c.bypasses n.owner = true ∨
      (n.permissions.read = true ∧ ∃ g ∈ n.group?, t.hasGroup c.uid g = true)) canView_iff.symm

/-- **Looking at one node** puts at most one question. -/
theorem settles_canSee (c : Caller) (now : Nat) (l : Link) (n : Node) :
    Settles (c.canSee now n) l (c.question? n).toList.length (decide (c.CanView l.table n)) := by
  unfold canSee question?
  by_cases hb : c.bypasses n.owner = true
  · have hv : c.CanView l.table n := canView_iff.2 (.inl hb)
    simp only [hb, if_true, Bool.true_or, Option.toList_none, List.length_nil, hv, decide_true]
    exact settles_pure true
  by_cases hr : n.permissions.read = true
  · cases hg : n.group? with
    | none =>
      have hv : ¬ c.CanView l.table n := by
        rw [canView_iff]
        rintro (h | ⟨-, g, h, -⟩)
        · exact hb h
        · rw [hg] at h; cases h
      simp only [hb, hr, hv, Bool.not_true, Bool.or_false, Bool.false_eq_true, if_false,
        Option.toList_none, List.length_nil, decide_false]
      exact settles_pure false
    | some g =>
      have hv : decide (c.CanView l.table n) = l.table.hasGroup c.uid g := by
        rw [Bool.eq_iff_iff, decide_eq_true_iff, canView_iff, hg]
        simp [hb, hr]
      obtain ⟨hok, hfail⟩ := l.call_hasGroup now c.uid g
      simp only [hb, hr, hv, Bool.not_true, Bool.or_false, Bool.false_eq_true, if_false,
        Option.toList_some, List.length_singleton]
      exact ⟨hok, hfail⟩
  · have hv : ¬ c.CanView l.table n := by
      rw [canView_iff]
      rintro (h | ⟨h, -⟩)
      · exact hb h
      · exact hr h
    simp only [hb, hr, hv, Bool.not_false, Bool.or_true, if_true, if_false, Bool.false_eq_true,
      Option.toList_none, List.length_nil, decide_false]
    exact settles_pure false

/-! ### The loops -/

/-- The groups that are asked about when nodes are looked at without their children. -/
def questions (c : Caller) (nodes : List Node) : List String :=
  nodes.flatMap fun n => (c.question? n).toList

/-- The nodes that the caller can view. -/
def viewable (c : Caller) (t : Table) (nodes : List Node) : List Node :=
  nodes.filter fun n => c.CanView t n

/-- The number of nodes that the caller cannot view. -/
def hiddenCount (c : Caller) (t : Table) (nodes : List Node) : Nat :=
  nodes.countP fun n => ¬ c.CanView t n

section Lists

variable {t : Table} {n : Node} {ns : List Node}

theorem questions_cons : c.questions (n :: ns) = (c.question? n).toList ++ c.questions ns := rfl

theorem viewable_cons : c.viewable t (n :: ns) =
    if c.CanView t n then n :: c.viewable t ns else c.viewable t ns := by
  simp [viewable, List.filter_cons]

theorem hiddenCount_cons : c.hiddenCount t (n :: ns) =
    c.hiddenCount t ns + if c.CanView t n then 0 else 1 := by
  by_cases h : c.CanView t n <;> simp [hiddenCount, h]

end Lists

/-- **The inner loop**, over the children of one node. -/
theorem settles_seen (c : Caller) (now : Nat) (t : Table) (nodes : List Node) :
    ∀ l : Link, l.table = t →
      Settles (c.seen now nodes) l (c.questions nodes).length
        (c.viewable t nodes, c.hiddenCount t nodes) := by
  induction nodes with
  | nil => exact fun l _ => settles_pure _
  | cons n ns ih =>
    rintro l rfl
    rw [questions_cons, List.length_append, viewable_cons, hiddenCount_cons]
    refine (settles_canSee c now l n).bind ?_
    have hns := ih (l.after (c.question? n).toList.length) rfl
    by_cases hv : c.CanView l.table n
    · simp only [hv, if_true, decide_true]
      exact hns.map fun r => (n :: r.1, r.2)
    · simp only [hv, if_false, decide_false, Bool.false_eq_true]
      exact hns.map fun r => (r.1, r.2 + 1)

/-- The groups that are asked about when nodes are looked at, and the children of those among them
that the caller can view. -/
def allQuestions (c : Caller) (t : Table) (nodes : List Node) : List String :=
  nodes.flatMap fun n =>
    (c.question? n).toList ++ if c.CanView t n then c.questions n.children else []

/-- A node with those of its children that the caller can view. -/
def pruned (c : Caller) (t : Table) (n : Node) : Node :=
  { n with children := c.viewable t n.children }

/-- The number of nodes that the caller cannot view, and of such children of the others. -/
def hiddenTotal (c : Caller) (t : Table) (nodes : List Node) : Nat :=
  c.hiddenCount t nodes +
    ((c.viewable t nodes).map fun n => c.hiddenCount t n.children).sum

theorem hiddenTotal_cons {t : Table} {n : Node} {ns : List Node} :
    c.hiddenTotal t (n :: ns) =
      (if c.CanView t n then c.hiddenCount t n.children else 1) + c.hiddenTotal t ns := by
  unfold hiddenTotal
  rw [viewable_cons, hiddenCount_cons]
  by_cases h : c.CanView t n
  · simp only [h, if_true, List.map_cons, List.sum_cons]
    omega
  · simp only [h, if_false]
    omega

/-- **The two nested loops.** -/
theorem settles_filterVisible (c : Caller) (now : Nat) (t : Table) (nodes : List Node) :
    ∀ l : Link, l.table = t →
      Settles (c.filterVisible now nodes) l (c.allQuestions t nodes).length
        ((c.viewable t nodes).map (c.pruned t), c.hiddenTotal t nodes) := by
  induction nodes with
  | nil => exact fun l _ => settles_pure _
  | cons n ns ih =>
    rintro l rfl
    rw [allQuestions, List.flatMap_cons, List.length_append, List.length_append, Nat.add_assoc]
    refine (settles_canSee c now l n).bind ?_
    rw [viewable_cons, hiddenTotal_cons]
    -- The children are looked at only if the node itself is shown.
    by_cases hv : c.CanView l.table n
    · simp only [hv, if_true, decide_true]
      refine (settles_seen c now l.table n.children (l.after _) rfl).bind ?_
      exact (ih ((l.after (c.question? n).toList.length).after
        (c.questions n.children).length) rfl).map fun r =>
          (c.pruned l.table n :: r.1, c.hiddenCount l.table n.children + r.2)
    · simp only [hv, if_false, decide_false, Bool.false_eq_true, List.length_nil, Nat.zero_add]
      have h := (ih (l.after (c.question? n).toList.length) rfl).map fun r => (r.1, r.2 + 1)
      rwa [Nat.add_comm 1]

theorem settles_pack (c : Caller) (now : Nat) (l : Link) (nodes : List Node) :
    Settles (c.pack now nodes) l (c.allQuestions l.table nodes).length
      (((c.viewable l.table nodes).map (c.pruned l.table)).map (Node.stamp c.key),
        c.hiddenTotal l.table nodes) :=
  (settles_filterVisible c now l.table nodes l rfl).map fun r =>
    (r.1.map (Node.stamp c.key), r.2)

end Caller

/-! ### Counters -/

namespace Metrics

theorem lookup_addTo (c c' : Counter) (n : Nat) (counts : List (Counter × Nat)) :
    ((addTo c n counts).lookup c').getD 0 =
      (counts.lookup c').getD 0 + if c' = c then n else 0 := by
  induction counts with
  | nil =>
    by_cases h : c' = c
    · simp [addTo, h]
    · simp [addTo, List.lookup_cons, h, beq_eq_false_iff_ne.2 h]
  | cons e es ih =>
    obtain ⟨k, count⟩ := e
    unfold addTo
    by_cases hk : k = c
    · subst hk
      by_cases h : c' = k
      · simp [h]
      · simp [List.lookup_cons, h, beq_eq_false_iff_ne.2 h]
    · by_cases h : c' = k
      · subst h
        simp [hk]
      · simp only [hk, if_false, List.lookup_cons, beq_eq_false_iff_ne.2 h]
        exact ih

theorem get_add (m : Metrics) (c c' : Counter) (n : Nat) :
    (m.add c n).get c' = m.get c' + if c' = c then n else 0 := by
  unfold add
  split
  · rename_i h
    simp [h]
  · exact lookup_addTo c c' n m.counts

end Metrics

/-! ### Answers of the server -/

namespace Service

theorem run_inquire {α : Type} {x : Inquiry α} {s : Server} {n : Nat} {a : α}
    (h : Settles x s.registry n a) :
    (s.registry.failureWithin n = none →
      (inquire x).run s = (.ok a, { s with registry := s.registry.after n })) ∧
    ∀ e, s.registry.failureWithin n = some e →
      ∃ l', (inquire x).run s = (.error (.access (.unavailable e)), { s with registry := l' }) ∧
        l'.table = s.registry.table := by
  unfold inquire
  rw [Attempt.run_within]
  refine ⟨fun hn => by rw [h.answered hn], fun e he => ?_⟩
  obtain ⟨l', hr, ht⟩ := h.failed e he
  exact ⟨l', by rw [hr], ht⟩

/-- **An answer holds exactly what the caller can view, or nothing.** If one of the questions that
have to be put to the registry fails, the answer is its failure and nothing is counted. Otherwise
the answer has the nodes that the caller can view, in order; each has its children that the caller
can view, in order and without children of their own, and each of all these has the token of its own
uid, owner and permissions under the key of the caller, and is as it came in all other respects. The
counter of hidden nodes is raised by the number of the nodes and of the children that are left out.
Nothing else is changed on the server, the groups of the registry least of all. -/
theorem pack_exact (m : Moment) (c : Caller) (nodes : List Node) (s : Server) :
    let t := s.registry.table
    let after := ((Service.pack m c nodes).run s).2
    after.store = s.store ∧ after.registry.table = t ∧
    match s.registry.failureWithin (c.allQuestions t nodes).length with
    | some e =>
      ((Service.pack m c nodes).run s).1 = .error (.access (.unavailable e)) ∧
        after.metrics = s.metrics
    | none =>
      ((Service.pack m c nodes).run s).1 = .ok ((c.viewable t nodes).map fun n =>
        { n with
          token := some (NodeDescriptor.pack c.key.bytes ⟨n.uid, n.owner.getD "", n.permissions⟩)
          children := (c.viewable t n.children).map fun k =>
            { k with
              token := some
                (NodeDescriptor.pack c.key.bytes ⟨k.uid, k.owner.getD "", k.permissions⟩)
              children := [] } }) ∧
        ∀ counter, after.metrics.get counter = s.metrics.get counter +
          if counter = .nodesHidden then
            (nodes.filter fun n => ¬ c.CanView t n).length +
              ((c.viewable t nodes).map fun n =>
                (n.children.filter fun k => ¬ c.CanView t k).length).sum
          else 0 := by
  obtain ⟨hok, hfail⟩ := run_inquire (Caller.settles_pack c m.instant s.registry nodes)
  unfold Service.pack
  rw [Attempt.run_bind]
  cases hf : s.registry.failureWithin (c.allQuestions s.registry.table nodes).length with
  | some e =>
    obtain ⟨l', hr, ht⟩ := hfail e hf
    rw [hr]
    refine ⟨rfl, ht, ?_⟩
    simp only [hf, and_self]
  | none =>
    rw [hok hf]
    refine ⟨rfl, rfl, ?_⟩
    simp only [hf]
    refine ⟨?_, fun counter => ?_⟩
    · simp only [Attempt.run_bind, Service.count, Attempt.run_change, Attempt.run_pure,
        List.map_map]
      rfl
    · simp only [Attempt.run_bind, Service.count, Attempt.run_change, Attempt.run_pure,
        Metrics.get_add, Caller.hiddenTotal, Caller.hiddenCount, List.countP_eq_length_filter]

end Service

end SealedGraph
