import SealedGraph.Proofs.Index
import SealedGraph.Proofs.Identity
import SealedGraph.Store.Basic

/-!
# Stores that hang together

* `uidOf_injective`: two numbers have two uids, so that a new uid is nobody's.
* `Sound`: what is true of every store: uids are assigned ones, no uid is that of a node and of an
  account, nodes are owned by accounts, roles can stand in a descriptor.
* `Extends`: what no operation takes back: nodes and accounts stay, and nodes keep their owner,
  their permissions, their group and their time of creation.
* `Mirrors`: a node is shown with the owner and the permissions that it has in the store.
* `Alters`: an operation on the nodes that are there, with the nodes whose contents and the links
  that it may touch.
-/

namespace SealedGraph

namespace Store

/-! ### Uids -/

theorem uidOf_injective {m n : Nat} (h : uidOf m = uidOf n) : m = n := by
  unfold uidOf at h
  have h := congrArg String.toList h
  rw [String.toList_ofList, String.toList_ofList] at h
  exact Text.hexText_injective (List.cons.inj (List.cons.inj h).2).2

theorem uidOf_ne_empty (n : Nat) : uidOf n ≠ "" := by
  intro h
  have h := congrArg String.toList h
  simp [uidOf] at h

theorem isField_uidOf (n : Nat) : IsField (uidOf n) := by
  unfold IsField uidOf fieldSeparator
  rw [String.toList_ofList]
  simp [Text.dot_not_mem_hexText]

/-- A uid that was assigned when the last one had number `last`. -/
def Assigned (last : Nat) (uid : String) : Prop := ∃ n ≤ last, uid = uidOf n

/-- A uid that was assigned after the one with number `last`, and not after that with number
`last'`. -/
def Fresh (last last' : Nat) (uid : String) : Prop := ∃ n, last < n ∧ n ≤ last' ∧ uid = uidOf n

theorem fresh_succ (last : Nat) : Fresh last (last + 1) (uidOf (last + 1)) :=
  ⟨last + 1, by omega, Nat.le_refl _, rfl⟩

theorem Assigned.mono {last last' : Nat} {uid : String} (h : Assigned last uid)
    (hl : last ≤ last') : Assigned last' uid := by
  obtain ⟨n, hn, e⟩ := h
  exact ⟨n, by omega, e⟩

theorem Fresh.assigned {last last' : Nat} {uid : String} (h : Fresh last last' uid) :
    Assigned last' uid := by
  obtain ⟨n, -, hn, e⟩ := h
  exact ⟨n, hn, e⟩

theorem Fresh.not_assigned {last last' : Nat} {uid : String} (h : Fresh last last' uid) :
    ¬ Assigned last uid := by
  obtain ⟨n, hn, -, rfl⟩ := h
  rintro ⟨k, hk, e⟩
  have := uidOf_injective e
  omega

/-! ### Sound stores -/

/-- What is true of every store that came out of an empty one. -/
structure Sound (s : Store) : Prop where
  nodeUid : ∀ {uid r}, s.nodes.find? uid = some r → Assigned s.lastUid uid
  accountUid : ∀ {uid a}, s.accounts.find? uid = some a → Assigned s.lastUid uid
  disjoint : ∀ {uid r}, s.nodes.find? uid = some r → s.accounts.find? uid = none
  owner : ∀ {uid r}, s.nodes.find? uid = some r → s.hasAccount r.owner = true
  role : ∀ {uid a}, s.accounts.find? uid = some a → isValidRole a.role = true

theorem sound_empty : Sound empty where
  nodeUid h := by simp [empty, EmptyCollection.emptyCollection] at h
  accountUid h := by simp [empty, EmptyCollection.emptyCollection] at h
  disjoint h := by simp [empty, EmptyCollection.emptyCollection] at h
  owner h := by simp [empty, EmptyCollection.emptyCollection] at h
  role h := by simp [empty, EmptyCollection.emptyCollection] at h

section Sound

variable {s : Store} (hs : Sound s)

include hs

theorem Sound.find?_of_fresh {last' : Nat} {uid : String} (h : Fresh s.lastUid last' uid) :
    s.nodes.find? uid = none ∧ s.accounts.find? uid = none := by
  constructor
  · cases hn : s.nodes.find? uid with
    | none => rfl
    | some r => exact absurd (hs.nodeUid hn) h.not_assigned
  · cases ha : s.accounts.find? uid with
    | none => rfl
    | some a => exact absurd (hs.accountUid ha) h.not_assigned

theorem Sound.isField_of_account {uid : String} (h : s.hasAccount uid = true) : IsField uid := by
  obtain ⟨a, ha⟩ := Index.contains_iff.1 h
  obtain ⟨n, -, rfl⟩ := hs.accountUid ha
  exact isField_uidOf n

end Sound

/-! ### What is never taken back -/

/-- Nodes and accounts stay, and nodes keep what access to them is judged by. -/
structure Extends (s t : Store) : Prop where
  lastUid : s.lastUid ≤ t.lastUid
  node : ∀ {uid r}, s.nodes.find? uid = some r → ∃ r', t.nodes.find? uid = some r' ∧
    r'.owner = r.owner ∧ r'.permissions = r.permissions ∧ r'.group = r.group ∧
    r'.created = r.created
  account : ∀ {uid}, s.hasAccount uid = true → t.hasAccount uid = true

theorem Extends.refl (s : Store) : Extends s s where
  lastUid := Nat.le_refl _
  node h := ⟨_, h, rfl, rfl, rfl, rfl⟩
  account h := h

theorem Extends.trans {s t u : Store} (h : Extends s t) (h' : Extends t u) : Extends s u where
  lastUid := Nat.le_trans h.lastUid h'.lastUid
  node hr := by
    obtain ⟨r', hr', ho, hp, hg, hc⟩ := h.node hr
    obtain ⟨r'', hr'', ho', hp', hg', hc'⟩ := h'.node hr'
    exact ⟨r'', hr'', ho'.trans ho, hp'.trans hp, hg'.trans hg, hc'.trans hc⟩
  account ha := h'.account (h.account ha)

/-! ### Nodes as answers show them -/

/-- The node is stored, and shows the owner and the permissions that it has in the store. -/
def Mirrors (s : Store) (n : Node) : Prop :=
  ∃ r, s.nodes.find? n.uid = some r ∧ n.owner = some r.owner ∧ n.permissions = r.permissions

theorem Mirrors.extends {s t : Store} {n : Node} (h : Mirrors s n) (he : Extends s t) :
    Mirrors t n := by
  obtain ⟨r, hr, ho, hp⟩ := h
  obtain ⟨r', hr', ho', hp', -, -⟩ := he.node hr
  exact ⟨r', hr', by rw [ho, ho'], by rw [hp, hp']⟩

/-- A node and its direct children are shown as they are stored. -/
def MirrorsAll (s : Store) (n : Node) : Prop := Mirrors s n ∧ ∀ k ∈ n.children, Mirrors s k

theorem MirrorsAll.extends {s t : Store} {n : Node} (h : MirrorsAll s n) (he : Extends s t) :
    MirrorsAll t n :=
  ⟨h.1.extends he, fun k hk => (h.2 k hk).extends he⟩

theorem mirrorsAll_of_node? {s : Store} {uid : String} {n : Node} (h : s.node? uid = some n) :
    MirrorsAll s n := by
  obtain ⟨r, hr, rfl⟩ := Option.map_eq_some_iff.1 h
  exact ⟨⟨r, hr, rfl, rfl⟩, by simp [Record.toNode]⟩

theorem mirrorsAll_of_expand? {s : Store} {uid : String} {n : Node} (h : s.expand? uid = some n) :
    MirrorsAll s n := by
  obtain ⟨r, hr, rfl⟩ := Option.map_eq_some_iff.1 h
  refine ⟨⟨r, hr, rfl, rfl⟩, fun k hk => ?_⟩
  obtain ⟨c, -, hc⟩ := List.mem_filterMap.1 hk
  exact (mirrorsAll_of_node? hc).1

/-! ### Changes of the nodes that are there -/

/-- The record of the node `uid` after a change: its contents are others only if `W uid`, a link
from it was made or cut only if `E uid` has its target, and nothing else is different but the time
of the last change. -/
structure Altered (W : String → Prop) (E : String → String → Prop) (uid : String)
    (r r' : Record) : Prop where
  owner : r'.owner = r.owner
  permissions : r'.permissions = r.permissions
  group : r'.group = r.group
  created : r'.created = r.created
  content : r'.content ≠ r.content → W uid
  link : ∀ target, (target ∈ r'.children ↔ target ∈ r.children) ∨ E uid target

/-- A change of nearly nothing but the nodes that are there, each altered within bounds. -/
structure Alters (W : String → Prop) (E : String → String → Prop) (s t : Store) : Prop where
  lastUid : t.lastUid = s.lastUid
  accounts : t.accounts = s.accounts
  usernames : t.usernames = s.usernames
  node : ∀ {uid r}, s.nodes.find? uid = some r →
    ∃ r', t.nodes.find? uid = some r' ∧ Altered W E uid r r'
  noNode : ∀ {uid}, s.nodes.find? uid = none → t.nodes.find? uid = none

section Alters

variable {W : String → Prop} {E : String → String → Prop} {s t u : Store}

theorem Altered.refl (uid : String) (r : Record) : Altered W E uid r r where
  owner := rfl
  permissions := rfl
  group := rfl
  created := rfl
  content h := absurd rfl h
  link _ := .inl Iff.rfl

theorem Altered.trans {uid : String} {r r' r'' : Record} (h : Altered W E uid r r')
    (h' : Altered W E uid r' r'') : Altered W E uid r r'' where
  owner := h'.owner.trans h.owner
  permissions := h'.permissions.trans h.permissions
  group := h'.group.trans h.group
  created := h'.created.trans h.created
  content hc := by
    by_cases e : r'.content = r.content
    · exact h'.content (by rwa [e])
    · exact h.content e
  link target := by
    rcases h.link target with e | e
    · rcases h'.link target with e' | e'
      · exact .inl (e'.trans e)
      · exact .inr e'
    · exact .inr e

theorem Altered.of_find? {uid : String} {r r' : Record}
    (hnode : ∀ {uid r}, s.nodes.find? uid = some r →
      ∃ r', t.nodes.find? uid = some r' ∧ Altered W E uid r r')
    (hr : s.nodes.find? uid = some r) (hr' : t.nodes.find? uid = some r') :
    Altered W E uid r r' := by
  obtain ⟨r'', hr'', ha⟩ := hnode hr
  rw [hr'] at hr''
  cases hr''
  exact ha

theorem Alters.refl (s : Store) : Alters W E s s where
  lastUid := rfl
  accounts := rfl
  usernames := rfl
  node h := ⟨_, h, .refl _ _⟩
  noNode h := h

theorem Alters.trans (h : Alters W E s t) (h' : Alters W E t u) : Alters W E s u where
  lastUid := h'.lastUid.trans h.lastUid
  accounts := h'.accounts.trans h.accounts
  usernames := h'.usernames.trans h.usernames
  node hr := by
    obtain ⟨r', hr', ha⟩ := h.node hr
    obtain ⟨r'', hr'', ha'⟩ := h'.node hr'
    exact ⟨r'', hr'', ha.trans ha'⟩
  noNode hn := h'.noNode (h.noNode hn)

/-- **One step after the other** changes what the steps change. -/
theorem alters_foldl {β : Type} {step : Store → β → Store} {es : List β}
    (h : ∀ e ∈ es, ∀ s, Alters W E s (step s e)) (s : Store) : Alters W E s (es.foldl step s) := by
  induction es generalizing s with
  | nil => exact .refl s
  | cons e es ih =>
    exact (h e (by simp) s).trans (ih (fun e' he' => h e' (List.mem_cons_of_mem _ he')) _)

/-- A change of the record of one node. -/
theorem alters_modify (uid : String) (f : Record → Record) (h : ∀ r, Altered W E uid r (f r))
    (s : Store) : Alters W E s { s with nodes := s.nodes.modify uid f } where
  lastUid := rfl
  accounts := rfl
  usernames := rfl
  node {uid' r} hr := by
    simp only [Index.find?_modify]
    by_cases e : uid' = uid
    · subst e
      exact ⟨f r, by simp [hr], h r⟩
    · exact ⟨r, by simp [e, hr], .refl _ _⟩
  noNode {uid'} hn := by
    simp only [Index.find?_modify]
    by_cases e : uid' = uid
    · subst e
      simp [hn]
    · simp [e, hn]

theorem Alters.extends (h : Alters W E s t) : Extends s t where
  lastUid := Nat.le_of_eq h.lastUid.symm
  node hr := by
    obtain ⟨r', hr', ha⟩ := h.node hr
    exact ⟨r', hr', ha.owner, ha.permissions, ha.group, ha.created⟩
  account ha := by
    unfold hasAccount
    rw [h.accounts]
    exact ha

theorem Alters.of_find? (h : Alters W E s t) {uid : String} {r' : Record}
    (hr' : t.nodes.find? uid = some r') :
    ∃ r, s.nodes.find? uid = some r ∧ Altered W E uid r r' := by
  cases hr : s.nodes.find? uid with
  | none => rw [h.noNode hr] at hr'; cases hr'
  | some r => exact ⟨r, rfl, Altered.of_find? h.node hr hr'⟩

theorem Alters.sound (h : Alters W E s t) (hs : Sound s) : Sound t where
  nodeUid hr' := by
    obtain ⟨r, hr, -⟩ := h.of_find? hr'
    rw [h.lastUid]
    exact hs.nodeUid hr
  accountUid ha := by
    rw [h.accounts] at ha
    rw [h.lastUid]
    exact hs.accountUid ha
  disjoint hr' := by
    obtain ⟨r, hr, -⟩ := h.of_find? hr'
    rw [h.accounts]
    exact hs.disjoint hr
  owner hr' := by
    obtain ⟨r, hr, ha⟩ := h.of_find? hr'
    rw [ha.owner]
    exact h.extends.account (hs.owner hr)
  role ha := by
    rw [h.accounts] at ha
    exact hs.role ha

end Alters

end Store

end SealedGraph
