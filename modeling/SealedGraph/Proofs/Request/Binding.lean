import SealedGraph.Proofs.Permissions
import SealedGraph.Proofs.Store.Update
import SealedGraph.Request.Account
import SealedGraph.Request.Graph

/-!
# What a bound request vouches for

A caller names nodes by tokens. When a request is bound, each token has told an owner and
permissions that let the caller do what is asked; if the tokens tell the truth, these are the owner
and the permissions in the store.

* `Caller.Holds`: the caller owns a stored node, or the node carries a permission.
* `Caller.Truthful`: some tokens say of stored nodes what is true.
* `covers_nodeReferences`, `covers_of_checkAllSubmitted`: what is known of nodes behind tokens.
* `EdgesRequest.of_bind_eq_ok` and its like: what is known of the nodes of a bound request.
-/

namespace SealedGraph

/-! ### Checks that succeed -/

theorem bind_eq_ok {ε α β : Type} {x : Except ε α} {f : α → Except ε β} {b : β}
    (h : (x >>= f) = .ok b) : ∃ a, x = .ok a ∧ f a = .ok b := by
  cases x with
  | error e => cases h
  | ok a => exact ⟨a, rfl, h⟩

theorem of_resolved_eq_ok {α : Type} {x : Except Denial α} {a : α} (h : resolved x = .ok a) :
    x = .ok a := by
  cases x with
  | error d => cases h
  | ok b =>
    cases h
    rfl

theorem mem_of_mapM_eq_ok {ε α β : Type} {f : α → Except ε β} {as : List α} {bs : List β}
    (h : as.mapM f = .ok bs) : ∀ b ∈ bs, ∃ a ∈ as, f a = .ok b := by
  induction as generalizing bs with
  | nil =>
    cases h
    simp
  | cons a as ih =>
    rw [List.mapM_cons] at h
    obtain ⟨b, hb, h⟩ := bind_eq_ok h
    obtain ⟨bs', hbs, h⟩ := bind_eq_ok h
    cases h
    intro b' hb'
    rcases List.mem_cons.1 hb' with rfl | hb'
    · exact ⟨a, by simp, hb⟩
    · obtain ⟨a', ha', e⟩ := ih hbs b' hb'
      exact ⟨a', List.mem_cons_of_mem _ ha', e⟩

/-! ### References -/

namespace Caller

/-- The caller owns a stored node, or the node carries a permission. -/
def Holds (c : Caller) (s : Store) (p : Permission) (uid : String) : Prop :=
  ∃ r, s.nodes.find? uid = some r ∧ (r.owner = c.uid ∨ r.permissions.has p = true)

/-- Tokens that the caller can use tell the owner and the permissions of the stored nodes that they
name. -/
def Truthful (c : Caller) (s : Store) (tokens : List String) : Prop :=
  ∀ token ∈ tokens, ∀ d r, NodeDescriptor.unpack c.key.bytes token = .ok d →
    s.nodes.find? d.uid = some r → d.owner = r.owner ∧ d.permissions = r.permissions

/-- If a uid is that of a stored node, the caller holds the permissions with some letters. -/
def Covers (c : Caller) (s : Store) (letters uid : String) : Prop :=
  ∀ p r, p.letter ∈ letters.toList → s.nodes.find? uid = some r → c.Holds s p uid

variable {c : Caller} {s : Store} {letters token : String} {tokens : List String}

theorem Truthful.mono {tokens' : List String} (h : c.Truthful s tokens)
    (hs : ∀ t ∈ tokens', t ∈ tokens) : c.Truthful s tokens' := fun t ht => h t (hs t ht)

theorem Covers.mono {letters' uid : String} (h : c.Covers s letters uid)
    (hl : ∀ l ∈ letters'.toList, l ∈ letters.toList) : c.Covers s letters' uid :=
  fun p r hp hr => h p r (hl _ hp) hr

section Covers

variable (hrole : c.role ≠ adminRole)

include hrole

/-- **Whoever may use a node holds what it takes**, unless as an administrator. -/
theorem covers_of_mayUse {d : NodeDescriptor} (hd : NodeDescriptor.unpack c.key.bytes token = .ok d)
    (ht : c.Truthful s [token]) (hm : c.mayUse d letters = true) : c.Covers s letters d.uid := by
  intro p r hp hr
  obtain ⟨ho, hq⟩ := ht token (by simp) d r hd hr
  refine ⟨r, hr, ?_⟩
  unfold mayUse bypasses isAdmin isOwner at hm
  rw [Bool.or_eq_true, Bool.or_eq_true, decide_eq_true_iff, decide_eq_true_iff] at hm
  rcases hm with (hm | hm) | hm
  · exact absurd hm hrole
  · left
    unfold NodeDescriptor.owner? at hm
    split at hm
    · rw [← ho, Option.some.inj hm]
    · cases hm
  · right
    rw [← hq]
    exact Permissions.has_of_allows hm hp

theorem covers_nodeReference {d : NodeDescriptor} (h : c.nodeReference letters token = .ok d)
    (ht : c.Truthful s [token]) : c.Covers s letters d.uid := by
  unfold nodeReference at h
  cases hd : NodeDescriptor.unpack c.key.bytes token with
  | error e =>
    rw [hd] at h
    cases h
  | ok d' =>
    rw [hd] at h
    simp only at h
    split at h
    · rename_i hm
      cases h
      exact covers_of_mayUse hrole hd ht hm
    · cases h

/-- **The nodes behind tokens** that were accepted. -/
theorem covers_nodeReferences {uids : List String} (h : c.nodeReferences letters tokens = .ok uids)
    (ht : c.Truthful s tokens) : ∀ uid ∈ uids, c.Covers s letters uid := by
  intro uid hu
  obtain ⟨token, hm, h⟩ := mem_of_mapM_eq_ok h uid hu
  cases hd : c.nodeReference letters token with
  | error e =>
    rw [hd] at h
    cases h
  | ok d =>
    rw [hd] at h
    cases h
    refine covers_nodeReference hrole hd (ht.mono fun t ht => ?_)
    rwa [List.mem_singleton.1 ht]

theorem covers_of_checkSubmitted {n : Node} (h : c.checkSubmitted letters n = .ok ())
    (ht : c.Truthful s n.token.toList) : c.Covers s letters n.uid := by
  unfold checkSubmitted at h
  cases hn : n.token with
  | none =>
    rw [hn] at h
    cases h
  | some token =>
    rw [hn] at h ht
    simp only at h
    cases hd : NodeDescriptor.unpack c.key.bytes token with
    | error e =>
      rw [hd] at h
      cases h
    | ok d =>
      rw [hd] at h
      simp only at h
      split at h
      · cases h
      · rename_i hc
        split at h
        · rename_i hm
          have hc : n.hasDescriptor d = true := by simpa using hc
          rw [(Node.hasDescriptor_iff.1 hc).1]
          exact covers_of_mayUse hrole hd ht hm
        · cases h

/-- **Submitted nodes** that were accepted. -/
theorem covers_of_checkAllSubmitted {nodes : List Node}
    (h : c.checkAllSubmitted letters nodes = .ok ())
    (ht : c.Truthful s (nodes.filterMap Node.token)) :
    ∀ uid ∈ nodes.map Node.uid, c.Covers s letters uid := by
  induction nodes with
  | nil => simp
  | cons n ns ih =>
    obtain ⟨_, hn, h⟩ := bind_eq_ok h
    intro uid hu
    rw [List.map_cons, List.mem_cons] at hu
    rcases hu with rfl | hu
    · refine covers_of_checkSubmitted hrole hn (ht.mono fun t ht => ?_)
      exact List.mem_filterMap.2 ⟨n, by simp, Option.mem_toList.1 ht⟩
    · refine ih h (ht.mono fun t ht => ?_) uid hu
      obtain ⟨k, hk, e⟩ := List.mem_filterMap.1 ht
      exact List.mem_filterMap.2 ⟨k, List.mem_cons_of_mem _ hk, e⟩

end Covers

end Caller

/-! ### Requests -/

section Requests

variable {c : Caller} {s : Store} (hrole : c.role ≠ adminRole)

include hrole

/-- **New contents** are for nodes that the caller may write. -/
theorem UpdateRequest.of_bind_eq_ok {r : UpdateRequest} {nodes : List Node}
    (h : r.bind c = .ok nodes) (ht : c.Truthful s (r.nodes.filterMap Node.token)) :
    ∀ uid ∈ nodes.map Node.uid, c.Covers s "w" uid := by
  obtain ⟨_, -, h⟩ := bind_eq_ok h
  obtain ⟨_, hc, h⟩ := bind_eq_ok h
  cases h
  exact Caller.covers_of_checkAllSubmitted hrole (of_resolved_eq_ok hc) ht

/-- **Every link** goes from a node that may link to one that may be linked. -/
theorem EdgesRequest.of_bind_eq_ok {r b : EdgesRequest} (h : r.bind c = .ok b)
    (ht : c.Truthful s (r.subjects ++ r.incoming ++ r.outgoing)) {x y : String}
    (he : (x, y) ∈ Store.edges b.subjects b.incoming b.outgoing) :
    c.Covers s "o" x ∧ c.Covers s "i" y := by
  obtain ⟨_, -, h⟩ := bind_eq_ok h
  obtain ⟨_, -, h⟩ := bind_eq_ok h
  obtain ⟨subjects, hs, h⟩ := bind_eq_ok h
  obtain ⟨incoming, hi, h⟩ := bind_eq_ok h
  obtain ⟨outgoing, ho, h⟩ := bind_eq_ok h
  cases h
  have hs := of_resolved_eq_ok hs
  have hi := of_resolved_eq_ok hi
  have ho := of_resolved_eq_ok ho
  have hsubjects := Caller.covers_nodeReferences (s := s) hrole hs (ht.mono (by simp_all))
  have hincoming := Caller.covers_nodeReferences (s := s) hrole hi (ht.mono (by simp_all))
  have houtgoing := Caller.covers_nodeReferences (s := s) hrole ho (ht.mono (by simp_all))
  -- A node at the other end shows that the list it came from is not empty, and so which letter the
  -- subject had to have.
  rcases Store.mem_edges.1 he with ⟨hx, hy⟩ | ⟨hx, hy⟩
  · refine ⟨hincoming x hx, (hsubjects y hy).mono fun l hl => ?_⟩
    obtain ⟨token, hm, -⟩ := mem_of_mapM_eq_ok hi x hx
    have hne : r.incoming.isEmpty = false := by
      rw [List.isEmpty_eq_false_iff]
      exact List.ne_nil_of_mem hm
    unfold subjectLetters
    rw [hne, String.toList_append]
    exact List.mem_append_left _ hl
  · refine ⟨(hsubjects x hx).mono fun l hl => ?_, houtgoing y hy⟩
    obtain ⟨token, hm, -⟩ := mem_of_mapM_eq_ok ho y hy
    have hne : r.outgoing.isEmpty = false := by
      rw [List.isEmpty_eq_false_iff]
      exact List.ne_nil_of_mem hm
    unfold subjectLetters
    rw [hne, String.toList_append]
    exact List.mem_append_right _ hl

/-- **Shared nodes** are such as the caller may share. -/
theorem ShareRequest.of_bind_eq_ok {r b : ShareRequest} (h : r.bind c = .ok b)
    (ht : c.Truthful s (r.nodes ++ r.users)) : ∀ uid ∈ b.nodes, c.Covers s "s" uid := by
  obtain ⟨_, -, h⟩ := bind_eq_ok h
  obtain ⟨nodes, hn, h⟩ := bind_eq_ok h
  obtain ⟨users, -, h⟩ := bind_eq_ok h
  cases h
  refine Caller.covers_nodeReferences hrole (of_resolved_eq_ok hn) (ht.mono fun t ht => ?_)
  exact List.mem_append_left _ ht

/-- **The parent of new nodes** is one that the caller may link from. -/
theorem CreateRequest.of_bind_eq_ok {r b : CreateRequest} (h : r.bind c = .ok b)
    (ht : c.Truthful s [r.parent]) : c.Covers s "o" b.parent := by
  obtain ⟨_, -, h⟩ := bind_eq_ok h
  obtain ⟨_, -, h⟩ := bind_eq_ok h
  obtain ⟨parent, hp, h⟩ := bind_eq_ok h
  cases h
  exact Caller.covers_nodeReference hrole (of_resolved_eq_ok hp) ht

theorem requireAdmin_eq_error : requireAdmin c = .error .adminOnly := by
  unfold requireAdmin Caller.isAdmin
  rw [if_neg]
  simpa using hrole

/-- **Accounts are made for administrators only.** -/
theorem AccountRequest.bind_ne_ok (r : AccountRequest) (account : NewAccount) :
    r.bind c ≠ .ok account := by
  intro h
  obtain ⟨_, -, h⟩ := bind_eq_ok h
  obtain ⟨_, -, h⟩ := bind_eq_ok h
  obtain ⟨_, ha, -⟩ := bind_eq_ok h
  rw [requireAdmin_eq_error hrole] at ha
  cases ha

/-- **Accounts are changed for administrators only.** -/
theorem AccountsRequest.bind_ne_ok (r : AccountsRequest) (updates : List AccountUpdate) :
    r.bind c ≠ .ok updates := by
  intro h
  obtain ⟨_, -, h⟩ := bind_eq_ok h
  obtain ⟨_, -, h⟩ := bind_eq_ok h
  obtain ⟨_, ha, -⟩ := bind_eq_ok h
  rw [requireAdmin_eq_error hrole] at ha
  cases ha

end Requests

end SealedGraph
