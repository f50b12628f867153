import Mathlib.Data.List.Duplicate
import SealedGraph.Proofs.Store.Batch
import SealedGraph.Proofs.Store.Query

/-!
# What is listed twice

What is put on a list of shared nodes or behind the children of a node is looked up there first, and
a new node is on no list. But a new node brings its own links with it, and these are taken over as
they come: one that is named twice is stored twice.

* `Relisted`: what happens to a list otherwise, which makes nothing occur twice.
* `relisted_shared`: what one operation does to a list of shared nodes.
* `relinks_perform`: an operation takes in a batch, or relists the children of the nodes there are.
* `duplicate_new`, `duplicate_after_iff`: how a node comes to link twice to another, and how long.
* `repeats_exact`: what is listed twice after any operations, and how it is shown.
-/

namespace SealedGraph.Store

open List (Duplicate)

/-! ### Lists -/

/-- A list that something was taken from, or that was given something that it did not have. -/
inductive Relisted (l : List String) : List String → Prop
  | trimmed (p : String → Bool) : Relisted l (l.filter p)
  | extended {new : List String} (once : new.Nodup) (apart : ∀ x ∈ new, x ∉ l) :
    Relisted l (l ++ new)

section Relisted

variable {l l' : List String} {x : String}

theorem Relisted.refl (l : List String) : Relisted l l := by
  have h : Relisted l (l ++ []) := .extended List.nodup_nil fun _ hx => absurd hx List.not_mem_nil
  rwa [List.append_nil] at h

/-- **Nothing comes to be listed twice**, but what was and stays is still. -/
theorem Relisted.duplicate_iff (h : Relisted l l') : Duplicate x l' ↔ Duplicate x l ∧ x ∈ l' := by
  simp only [List.duplicate_iff_two_le_count]
  cases h with
  | trimmed p =>
    by_cases hp : p x = true
    · rw [List.count_filter hp, List.mem_filter]
      refine ⟨fun h2 => ⟨h2, List.count_pos_iff.1 (by omega), hp⟩, And.left⟩
    · have hno : x ∉ l.filter p := fun hx => hp (List.mem_filter.1 hx).2
      simp [List.count_eq_zero_of_not_mem hno, hno]
  | @extended new once apart =>
    rw [List.count_append]
    by_cases hx : x ∈ new
    · have hone := List.nodup_iff_count_le_one.1 once x
      have hnone := List.count_eq_zero_of_not_mem (apart x hx)
      omega
    · rw [List.count_eq_zero_of_not_mem hx, List.mem_append]
      refine ⟨fun h2 => ⟨h2, .inl (List.count_pos_iff.1 (by omega))⟩, And.left⟩

theorem Relisted.nodup (h : Relisted l l') (once : l.Nodup) : l'.Nodup := by
  rw [List.nodup_iff_forall_not_duplicate] at once ⊢
  exact fun x hx => once x (h.duplicate_iff.1 hx).1

theorem duplicate_map_iff {f : String → String}
    (injective : ∀ p ∈ l, ∀ q ∈ l, f p = f q → p = q) :
    Duplicate x (l.map f) ↔ ∃ p, Duplicate p l ∧ f p = x := by
  simp only [List.duplicate_iff_sublist]
  constructor
  · intro h
    obtain ⟨k, hk, e⟩ := List.sublist_map_iff.1 h
    obtain ⟨p, q, rfl⟩ : ∃ p q, k = [p, q] := by
      rw [← List.length_eq_two, ← List.length_map, ← e]
      rfl
    obtain ⟨hp, hq⟩ : x = f p ∧ x = f q := by simpa using e
    have hsame := injective p (hk.subset (by simp)) q (hk.subset (by simp)) (hp ▸ hq)
    exact ⟨p, hsame ▸ hk, hp.symm⟩
  · rintro ⟨p, hp, rfl⟩
    exact hp.map f

end Relisted

/-! ### Lists of shared nodes -/

section Shared

variable {s : Store}

theorem relisted_apply (change : ShareChange) (nodes shared : List String) :
    Relisted shared (change.apply nodes shared) := by
  cases change with
  | add =>
    have hfold : ShareChange.add.apply nodes shared = shared ++ distinct shared nodes :=
      foldl_addTo nodes shared
    rw [hfold]
    exact .extended (nodup_distinct _ _) fun x hx => (mem_distinct.1 hx).2
  | remove => exact .trimmed _

/-- **A list of shared nodes** after an operation: none, or made from the list of before. -/
theorem relisted_shared (action : Action) (hs : Sound s) {uid : String} {a' : Account}
    (ha' : (action.perform s).accounts.find? uid = some a') :
    a'.shared = [] ∨ ∃ a, s.accounts.find? uid = some a ∧ Relisted a.shared a'.shared := by
  have kept : ∀ {t : Store}, t.accounts = s.accounts → t.accounts.find? uid = some a' →
      ∃ a, s.accounts.find? uid = some a ∧ Relisted a.shared a'.shared := by
    intro t e h
    exact ⟨a', e ▸ h, .refl _⟩
  cases action with
  | create now millis random owner parent batch =>
    have h : Grows owner (Fresh.groupId millis random) _ s
        (s.create now (Fresh.groupId millis random) owner parent batch).2 := grows_create hs
    right
    cases ha : s.accounts.find? uid with
    | none =>
      rw [Action.perform, h.noAccount ha] at ha'
      cases ha'
    | some a =>
      obtain ⟨owned, ho⟩ := h.account ha
      rw [Action.perform, ho] at ha'
      cases ha'
      exact ⟨a, rfl, .refl _⟩
  | update now nodes =>
    exact .inr (kept (alters_update (E := fun _ _ => False) now nodes s).accounts ha')
  | addEdges now subjects incoming outgoing =>
    exact .inr (kept (alters_addEdges (W := fun _ => False) now subjects incoming outgoing
      s).accounts ha')
  | removeEdges now subjects incoming outgoing =>
    exact .inr (kept (alters_removeEdges (W := fun _ => False) now subjects incoming outgoing
      s).accounts ha')
  | share change nodes users =>
    rw [Action.perform, find?_share, Option.map_eq_some_iff] at ha'
    obtain ⟨a, ha, rfl⟩ := ha'
    refine .inr ⟨a, ha, ?_⟩
    split
    · exact relisted_apply change nodes a.shared
    · exact .refl _
  | createAccount new =>
    rw [Action.perform] at ha'
    rcases createAccount_cases s new with ⟨e, h⟩ | ⟨-, h⟩
    · rw [h] at ha'
      exact .inr ⟨a', ha', .refl _⟩
    · rw [h, Index.find?_insert] at ha'
      split at ha'
      · cases ha'
        exact .inl rfl
      · exact .inr ⟨a', ha', .refl _⟩
  | updateAccounts updates =>
    obtain ⟨a, ha, hr⟩ := (revises_updateAccounts s updates).of_account ha'
    refine .inr ⟨a, ha, ?_⟩
    rw [hr.shared]
    exact .refl _

/-- **No list of shared nodes has a node twice.** -/
theorem nodup_shared_after (actions : List Action) {uid : String} {a : Account}
    (ha : (after actions).accounts.find? uid = some a) : a.shared.Nodup := by
  suffices h : Sound (after actions) ∧
      ∀ uid a, (after actions).accounts.find? uid = some a → a.shared.Nodup from h.2 uid a ha
  refine after_induction (P := fun s => Sound s ∧
    ∀ uid a, s.accounts.find? uid = some a → a.shared.Nodup) ⟨sound_empty, ?_⟩ ?_ actions
  · intro uid a h
    simp [empty, EmptyCollection.emptyCollection] at h
  · rintro action s ⟨hs, once⟩
    refine ⟨sound_perform action hs, fun uid a' ha' => ?_⟩
    rcases relisted_shared action hs ha' with h | ⟨a, ha, h⟩
    · rw [h]
      exact List.nodup_nil
    · exact h.nodup (once uid a ha)

end Shared

/-! ### Children -/

/-- The uids of the children of a node, as they are stored; nothing else has any. -/
def childrenOf (s : Store) (uid : String) : List String :=
  ((s.nodes.find? uid).map Record.children).getD []

section Children

variable {s t : Store} {now : Timestamp} {uid n c : String}

theorem childrenOf_of_find? {r : Record} (hr : s.nodes.find? uid = some r) :
    s.childrenOf uid = r.children := by
  rw [childrenOf, hr]
  rfl

theorem childrenOf_eq_nil (h : s.hasNode uid = false) : s.childrenOf uid = [] := by
  rw [childrenOf, Index.contains_eq_false_iff.1 h]
  rfl

theorem childrenOf_congr (h : t.nodes.find? uid = s.nodes.find? uid) :
    t.childrenOf uid = s.childrenOf uid := by
  rw [childrenOf, h, childrenOf]

theorem links_iff_mem_childrenOf : s.Links n c ↔ c ∈ s.childrenOf n := by
  unfold Links childrenOf
  cases s.nodes.find? n with
  | none => simp
  | some r => simp

theorem childrenOf_setContent (uid : String) (content : Content) :
    (s.setContent now uid content).childrenOf n = s.childrenOf n := by
  unfold childrenOf setContent
  rw [Index.find?_modify]
  split
  · rename_i e
    rw [Option.map_map, e]
    rfl
  · rfl

/-- **New contents** leave the children as they are. -/
theorem childrenOf_update (nodes : List Node) :
    (s.update now nodes).2.childrenOf n = s.childrenOf n := by
  have hall : ∀ t : Store, (applyContents now nodes t).2.childrenOf n = t.childrenOf n := by
    induction nodes with
    | nil => exact fun _ => rfl
    | cons k ks ih => exact fun t => (ih _).trans (childrenOf_setContent k.uid k.content)
  unfold update
  split
  · rfl
  · exact hall s

theorem SameElsewhere.relisted (h : SameElsewhere s t)
    (node : ∀ r, s.nodes.find? n = some r → Relisted r.children (t.childrenOf n)) :
    Relisted (s.childrenOf n) (t.childrenOf n) := by
  cases hr : s.nodes.find? n with
  | none =>
    have hn : s.hasNode n = false := Index.contains_eq_false_iff.2 hr
    rw [childrenOf_eq_nil hn, childrenOf_eq_nil ((h.hasNode n).trans hn)]
    exact .refl _
  | some r =>
    rw [childrenOf_of_find? hr]
    exact node r hr

theorem LinksAdded.relisted {subjects incoming outgoing : List String}
    (h : LinksAdded now subjects incoming outgoing s t) (n : String) :
    Relisted (s.childrenOf n) (t.childrenOf n) := by
  refine h.toSameElsewhere.relisted fun r hr => ?_
  obtain ⟨new, modified, ht, once, apart, -⟩ := h.node hr
  rw [childrenOf_of_find? ht]
  exact .extended once fun c hc => ((apart c).1 hc).2

theorem LinksRemoved.relisted {subjects incoming outgoing : List String}
    (h : LinksRemoved now subjects incoming outgoing s t) (n : String) :
    Relisted (s.childrenOf n) (t.childrenOf n) := by
  refine h.toSameElsewhere.relisted fun r hr => ?_
  obtain ⟨modified, ht, -⟩ := h.node hr
  rw [childrenOf_of_find? ht]
  exact .trimmed _

section Embedded

variable {group owner : String} {parent : Option String} {batch : List Node}
  {name : String → String} {created : List (String × Node)}

/-- A batch gives a node that was there no children but its roots. -/
theorem Embedded.relisted (h : Embedded now group owner parent batch name s created t)
    (hi : Intact s) (once : (batch.map Node.uid).Nodup) (hn : s.hasNode n = true) :
    Relisted (s.childrenOf n) (t.childrenOf n) := by
  by_cases hp : parent = some n
  · obtain ⟨r, hr⟩ := Index.contains_iff.1 hn
    rw [childrenOf_of_find? hr, childrenOf_of_find? (h.hung n r hp hr)]
    refine .extended (h.nodup_roots once) fun u hu hc => ?_
    obtain ⟨q, hq, rfl⟩ := List.mem_map.1 hu
    exact h.ne_uid ((hi.record hr).child _ hc).1 q (mem_roots.1 hq).1 rfl
  · rw [childrenOf_congr (h.otherNode n hp (h.ne_uid hn))]
    exact .refl _

/-- Whatever is there after a batch is one of its nodes, or was there before. -/
theorem Embedded.mem_of_new (h : Embedded now group owner parent batch name s created t)
    (there : ∀ p, parent = some p → s.hasNode p = true) (hn : s.hasNode n = false)
    (hn' : t.hasNode n = true) : ∃ x ∈ batch, n = name x.uid := by
  by_contra hno
  have hother : ∀ p ∈ batch.map Node.uid, n ≠ name p := by
    intro p hp e
    obtain ⟨x, hx, rfl⟩ := List.mem_map.1 hp
    exact hno ⟨x, hx, e⟩
  have hparent : parent ≠ some n := by
    intro e
    rw [there n e] at hn
    cases hn
  have hsame := h.otherNode n hparent hother
  unfold hasNode Index.contains at hn hn'
  rw [hsame, hn] at hn'
  cases hn'

/-- **A node of a batch links twice** to what it names twice. -/
theorem Embedded.duplicate_iff (h : Embedded now group owner parent batch name s created t)
    (fits : Creatable s owner parent batch) {x : Node} (hx : x ∈ batch) :
    Duplicate c (t.childrenOf (name x.uid)) ↔
      ∃ q, Duplicate q (x.children.map Node.uid) ∧ name q = c := by
  have hin : ∀ q ∈ x.children.map Node.uid, q ∈ batch.map Node.uid := by
    intro q hq
    obtain ⟨k, hk, rfl⟩ := List.mem_map.1 hq
    exact (fits.edge x hx k hk).2
  have hmap : (x.children.map fun k => name k.uid) = (x.children.map Node.uid).map name := by
    rw [List.map_map]
    rfl
  rw [childrenOf_of_find? (h.record x hx), embed, hmap]
  exact duplicate_map_iff fun p hp q hq => h.injective p (hin p hp) q (hin q hq)

/-- What is given back for a placeholder is the node that it stands for. -/
theorem Embedded.mem_created_iff (h : Embedded now group owner parent batch name s created t)
    {q : String} :
    (∃ m, (q, m) ∈ created ∧ m.uid = uid) ↔ q ∈ batch.map Node.uid ∧ uid = name q := by
  rw [h.created]
  constructor
  · rintro ⟨m, hm, rfl⟩
    obtain ⟨x, hx, e⟩ := List.mem_map.1 hm
    cases e
    exact ⟨List.mem_map_of_mem hx, rfl⟩
  · rintro ⟨hq, rfl⟩
    obtain ⟨x, hx, rfl⟩ := List.mem_map.1 hq
    exact ⟨_, List.mem_map_of_mem hx, rfl⟩

end Embedded

/-! ### What an operation does to the children -/

/-- An operation on a store takes in a batch, or adds and removes children of nodes that were
there. -/
inductive Relinks (s : Store) : Action → Store → Prop
  | created {now : Timestamp} {millis : Nat} {random : List UInt8} {owner : String}
      {parent : Option String} {batch : List Node} {created : List (String × Node)} {t : Store}
      (accepted : s.create now (Fresh.groupId millis random) owner parent batch =
        (.ok created, t)) :
    Relinks s (.create now millis random owner parent batch) t
  | relisted {action : Action} {t : Store} (hasNode : ∀ n, t.hasNode n = s.hasNode n)
      (children : ∀ n, Relisted (s.childrenOf n) (t.childrenOf n)) : Relinks s action t

theorem Relinks.of_nodes {action : Action} (h : t.nodes = s.nodes) : Relinks s action t := by
  refine .relisted (fun n => by rw [hasNode, h, hasNode]) fun n => ?_
  rw [childrenOf_congr (by rw [h])]
  exact .refl _

theorem relinks_perform (action : Action) (s : Store) : Relinks s action (action.perform s) := by
  cases action with
  | create now millis random owner parent batch =>
    rw [Action.perform]
    rcases hc : s.create now (Fresh.groupId millis random) owner parent batch with ⟨e | created, t⟩
    · rcases create_cases s now (Fresh.groupId millis random) owner parent batch with
        ⟨e', last, -, h⟩ | ⟨assigned, last, -, -, -, h⟩
      · rw [hc] at h
        cases h
        exact .of_nodes rfl
      · rw [hc] at h
        cases h
    · exact .created hc
  | update now nodes =>
    have frame := (alters_update (E := fun _ _ => False) now nodes s).sameElsewhere
    refine .relisted frame.hasNode fun n => ?_
    rw [Action.perform, childrenOf_update]
    exact .refl _
  | addEdges now subjects incoming outgoing =>
    rw [Action.perform]
    by_cases h : (s.addEdges now subjects incoming outgoing).1 = .ok ()
    · exact .relisted (linksAdded_addEdges h).hasNode (linksAdded_addEdges h).relisted
    · exact .of_nodes (by rw [addEdges_of_ne_ok h])
  | removeEdges now subjects incoming outgoing =>
    rw [Action.perform]
    by_cases h : (s.removeEdges now subjects incoming outgoing).1 = .ok ()
    · exact .relisted (linksRemoved_removeEdges h).hasNode (linksRemoved_removeEdges h).relisted
    · exact .of_nodes (by rw [removeEdges_of_ne_ok h])
  | share change nodes users => exact .of_nodes (nodes_share change nodes users s)
  | createAccount new =>
    rw [Action.perform]
    rcases createAccount_cases s new with ⟨e, h⟩ | ⟨-, h⟩
    · exact .of_nodes (by rw [h])
    · exact .of_nodes (by rw [h])
  | updateAccounts updates => exact .of_nodes (revises_updateAccounts s updates).nodes

/-- A batch is taken in with a node that names another one twice. The two are the nodes `n` and `c`
of the store then. -/
inductive Doubles (s : Store) (n c : String) : Action → Prop
  | create {now : Timestamp} {millis : Nat} {random : List UInt8} {owner : String}
      {parent : Option String} {batch : List Node} {created : List (String × Node)} {t : Store}
      {x : Node} {q : String}
      (accepted : s.create now (Fresh.groupId millis random) owner parent batch = (.ok created, t))
      (source : x ∈ batch) (twice : Duplicate q (x.children.map Node.uid))
      (stored : ∃ m, (x.uid, m) ∈ created ∧ m.uid = n)
      (target : ∃ k, (q, k) ∈ created ∧ k.uid = c) :
    Doubles s n c (.create now millis random owner parent batch)

section Step

variable (action : Action) (hs : Sound s) (hi : Intact s)

include hs hi

/-- **The children of a node that was there** after an operation. -/
theorem relisted_childrenOf (hn : s.hasNode n = true) :
    Relisted (s.childrenOf n) ((action.perform s).childrenOf n) := by
  cases relinks_perform action s with
  | created accepted =>
    obtain ⟨name, h⟩ := embedded_create hs hi accepted
    exact h.relisted hi (creatable_of_create accepted).once hn
  | relisted _ children => exact children n

/-- **The children of a node that was not there**: one is listed twice if it is so in the batch. -/
theorem duplicate_new (hn : s.hasNode n = false) :
    Duplicate c ((action.perform s).childrenOf n) ↔ Doubles s n c action := by
  constructor
  · intro hdup
    have hn' : (action.perform s).hasNode n = true := (links_iff_mem_childrenOf.2 hdup.mem).source
    cases relinks_perform action s with
    | created accepted =>
      obtain ⟨name, h⟩ := embedded_create hs hi accepted
      have fits := creatable_of_create accepted
      obtain ⟨x, hx, rfl⟩ := h.mem_of_new fits.parent hn hn'
      obtain ⟨q, hq, rfl⟩ := (h.duplicate_iff fits hx).1 hdup
      obtain ⟨k, hk, rfl⟩ := List.mem_map.1 hq.mem
      exact .create accepted hx hq (h.mem_created_iff.2 ⟨List.mem_map_of_mem hx, rfl⟩)
        (h.mem_created_iff.2 ⟨(fits.edge x hx k hk).2, rfl⟩)
    | relisted hasNode _ =>
      rw [hasNode, hn] at hn'
      cases hn'
  · rintro ⟨accepted, source, twice, stored, target⟩
    obtain ⟨name, h⟩ := embedded_create hs hi accepted
    have fits := creatable_of_create accepted
    rw [Action.perform, accepted, (h.mem_created_iff.1 stored).2]
    exact (h.duplicate_iff fits source).2 ⟨_, twice, (h.mem_created_iff.1 target).2.symm⟩

variable {action}

/-- A node that links twice to another from its beginning was not there before. -/
theorem Doubles.new (h : Doubles s n c action) : s.hasNode n = false := by
  obtain ⟨accepted, -, -, stored, -⟩ := h
  obtain ⟨name, h⟩ := embedded_create hs hi accepted
  obtain ⟨hp, rfl⟩ := h.mem_created_iff.1 stored
  exact (h.fresh _ hp).2.1

end Step

end Children

/-! ### Any operations -/

/-- In the course of some operations a batch came in with a node, `n` of the store then, that named
another one, `c`, twice; and the two have been linked ever since. -/
def DoubledSince (actions : List Action) (n c : String) : Prop :=
  ∃ pre action post, actions = pre ++ action :: post ∧ Doubles (after pre) n c action ∧
    ∀ mid, mid <+: post → (after (pre ++ action :: mid)).Links n c

section Since

variable {actions : List Action} {last : Action} {n c : String}

theorem DoubledSince.links (h : DoubledSince actions n c) : (after actions).Links n c := by
  obtain ⟨pre, action, post, rfl, -, since⟩ := h
  exact since post (List.prefix_refl post)

/-- **One more operation**: it takes in such a batch, or leaves a link that has been there. -/
theorem doubledSince_concat : DoubledSince (actions ++ [last]) n c ↔
    (after (actions ++ [last])).Links n c ∧
      (Doubles (after actions) n c last ∨ DoubledSince actions n c) := by
  constructor
  · intro h
    refine ⟨h.links, ?_⟩
    obtain ⟨pre, action, post, e, h, since⟩ := h
    rcases List.eq_nil_or_concat post with rfl | ⟨post, x, rfl⟩
    · obtain ⟨rfl, hlast⟩ := List.append_inj' e rfl
      cases hlast
      exact .inl h
    · rw [List.concat_eq_append, ← List.cons_append, ← List.append_assoc] at e
      obtain ⟨rfl, -⟩ := List.append_inj' e rfl
      exact .inr ⟨pre, action, post, rfl, h, fun mid hm => since mid (hm.trans (by simp))⟩
  · rintro ⟨hlinks, h | ⟨pre, action, post, rfl, h, since⟩⟩
    · refine ⟨actions, last, [], rfl, h, fun mid hm => ?_⟩
      rw [List.prefix_nil.1 hm]
      exact hlinks
    · refine ⟨pre, action, post ++ [last], by simp, h, fun mid hm => ?_⟩
      rcases List.prefix_concat_iff.1 hm with rfl | hm
      · rw [← List.cons_append, ← List.append_assoc]
        exact hlinks
      · exact since mid hm

end Since

/-- **A child is listed twice** if it was so in the batch that its parent came with, and has been
there ever since. -/
theorem duplicate_after_iff (actions : List Action) {n c : String} :
    Duplicate c ((after actions).childrenOf n) ↔ DoubledSince actions n c := by
  induction actions using List.reverseRecOn with
  | nil =>
    refine iff_of_false (fun h => ?_) ?_
    · cases h.mem
    · rintro ⟨pre, action, post, e, -⟩
      simp at e
  | append_singleton actions last ih =>
    have hs := sound_after actions
    have hi := intact_after actions
    have hperform : after (actions ++ [last]) = last.perform (after actions) := after_append _ _
    rw [doubledSince_concat, hperform, links_iff_mem_childrenOf, ← ih]
    cases hn : (after actions).hasNode n with
    | false =>
      have hold : ¬ Duplicate c ((after actions).childrenOf n) := by
        rw [childrenOf_eq_nil hn]
        exact List.not_duplicate_nil c
      rw [duplicate_new last hs hi hn]
      refine ⟨fun h => ⟨?_, .inl h⟩, fun h => h.2.resolve_right hold⟩
      exact ((duplicate_new last hs hi hn).2 h).mem
    | true =>
      have hnew : ¬ Doubles (after actions) n c last := by
        intro h
        rw [h.new hs hi] at hn
        cases hn
      rw [(relisted_childrenOf last hs hi hn).duplicate_iff, or_iff_right hnew, and_comm]

/-- An operation whose batch, if it has one, has no node that names another one twice. -/
def Action.NamesOnce : Action → Prop
  | .create _ _ _ _ _ batch => ∀ x ∈ batch, (x.children.map Node.uid).Nodup
  | _ => True

/-- **No child is listed twice** if no node was created with a link that it named twice. -/
theorem nodup_childrenOf_after {actions : List Action} (h : ∀ action ∈ actions, action.NamesOnce)
    (n : String) : ((after actions).childrenOf n).Nodup := by
  rw [List.nodup_iff_forall_not_duplicate]
  intro c hdup
  obtain ⟨pre, action, post, rfl, hdoubles, -⟩ := (duplicate_after_iff actions).1 hdup
  have once := h action (by simp)
  obtain ⟨-, source, twice, -, -⟩ := hdoubles
  exact List.nodup_iff_forall_not_duplicate.1 (once _ source) _ twice

/-- **A node is shown with its children as they are stored**, as often as they are. -/
theorem children_of_expand? {s : Store} (hi : Intact s) {n : Node}
    (found : s.expand? n.uid = some n) : n.children.map Node.uid = s.childrenOf n.uid := by
  obtain ⟨r, hr, e⟩ := Option.map_eq_some_iff.1 found
  have huid : ∀ c ∈ r.children, (s.node? c).map Node.uid = some c := by
    intro c hc
    obtain ⟨q, hq⟩ := Index.contains_iff.1 ((hi.record hr).child c hc).1
    rw [node?, hq]
    rfl
  have hchildren : n.children = r.children.filterMap s.node? := by rw [← e]
  rw [childrenOf_of_find? hr, hchildren, List.map_filterMap, List.filterMap_congr huid,
    List.filterMap_some]

/-- **What is listed twice.** Nobody has a node twice on the lists of what is owned and what is
shared. A node has a child twice exactly if it came with a batch in which it named that child twice,
and the link was never cut since; so it cannot if no batch is of that kind. A node is shown with
each child as often as it is stored. -/
theorem repeats_exact (actions : List Action) :
    (∀ uid a, (after actions).accounts.find? uid = some a → a.owned.Nodup ∧ a.shared.Nodup) ∧
    (∀ n c, Duplicate c ((after actions).childrenOf n) ↔ DoubledSince actions n c) ∧
    ((∀ action ∈ actions, action.NamesOnce) → ∀ n, ((after actions).childrenOf n).Nodup) ∧
    (∀ roots depth, ∀ n ∈ (after actions).query roots depth,
      n.children.map Node.uid = (after actions).childrenOf n.uid) ∧
    ∀ uid relation nodes, (after actions).nodesOf uid relation = .ok nodes → ∀ n ∈ nodes,
      n.children.map Node.uid = (after actions).childrenOf n.uid := by
  have hi := intact_after actions
  refine ⟨fun uid a ha => ?_, fun n c => duplicate_after_iff actions, nodup_childrenOf_after,
    fun roots depth n hn => ?_, fun uid relation nodes h n hn => ?_⟩
  · exact ⟨(hi.account ha).ownedOnce, nodup_shared_after actions ha⟩
  · exact children_of_expand? hi (expand?_of_mem_search hn)
  · exact children_of_expand? hi (expand?_of_mem_nodesOf h hn)

namespace Pair

/-- Ann creates two nodes. The first names the second twice. -/
def history : List Action :=
  [.createAccount ⟨"ann", "", "user", none⟩,
    .create default 0 [] "0x1" none [draft "$a" ["$b", "$b"], draft "$b" []]]

/-- The second node is put under the first again, which changes nothing. -/
def relinked : List Action := history ++ [.addEdges default ["0x2"] [] ["0x3"]]

end Pair

open Pair in
/-- The child that is there twice was named twice. -/
theorem repeats_exact_pair :
    Duplicate "0x3" ((after relinked).childrenOf "0x2") ∧ DoubledSince relinked "0x2" "0x3" := by
  have twice : Duplicate "0x3" ((after relinked).childrenOf "0x2") := by decide +kernel
  exact ⟨twice, ((repeats_exact relinked).2.1 "0x2" "0x3").1 twice⟩

open Pair in
/-- A child is stored twice, and shown twice to the owner. -/
theorem repeated_child :
    (after history).childrenOf "0x2" = ["0x3", "0x3"] ∧
    ((after history).nodesOf "0x1" .own).toOption.map
        (·.map fun n => (n.uid, n.children.map Node.uid)) =
      some [("0x2", ["0x3", "0x3"])] := by
  decide +kernel

end SealedGraph.Store
