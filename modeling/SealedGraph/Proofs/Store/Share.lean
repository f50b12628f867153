import Mathlib.Data.List.TakeWhile
import SealedGraph.Proofs.Registry.Sessions
import SealedGraph.Proofs.Store.Basic
import SealedGraph.Store.Share

/-!
# What sharing touches

* `ShareChange.mem_apply`, `ShareChange.apply_eq_self_iff`: what a change does to one list of shared
  nodes, and when it does nothing.
* `sharedWith_share`: the lists that are changed are those of the users who are `reached`, whether
  the work is refused or not.
* `shares_share`: the lists of shared nodes gain and lose named nodes only, and nothing else is
  changed.
* `of_share_eq_ok`, `share_of_there`: a share is not refused if all its nodes and users are there, and
  only then.
* `mem_members`: the members of what is shared are the named nodes and their direct children.
-/

namespace SealedGraph

/-! ### One list -/

namespace ShareChange

/-- What holds of something after a change, from what held before and whether the change names it. -/
def After : ShareChange → Prop → Prop → Prop
  | .add, before, named => before ∨ named
  | .remove, before, named => before ∧ ¬ named

theorem after_iff_of_not {change : ShareChange} {before named : Prop} (h : ¬ named) :
    change.After before named ↔ before := by
  cases change with
  | add => exact or_iff_left h
  | remove => exact and_iff_left h

theorem after_after_iff (change : ShareChange) (before p q : Prop) :
    change.After (change.After before p) q ↔ change.After before (p ∨ q) := by
  cases change with
  | add => exact or_assoc
  | remove => simp [After, and_assoc]

variable {change : ShareChange} {uids shared : List String} {n : String}

/-- **One list of shared nodes** after a change. -/
theorem mem_apply : n ∈ change.apply uids shared ↔ change.After (n ∈ shared) (n ∈ uids) := by
  cases change with
  | add => exact Registry.mem_foldl_addTo
  | remove => simp [apply, After]

/-- **A list stays as it is** if all that is to be added is there, or nothing of what is to be
removed. -/
theorem apply_eq_self_iff :
    change.apply uids shared = shared ↔ ∀ n ∈ uids, (n ∈ shared ↔ change = .add) := by
  cases change with
  | add =>
    simp only [iff_true]
    constructor
    · intro h n hn
      rw [← h, mem_apply]
      exact .inr hn
    · intro h
      exact Registry.foldl_addTo_of_subset h
  | remove =>
    simp only [reduceCtorEq, iff_false]
    unfold apply
    rw [List.filter_eq_self]
    constructor
    · intro h n hn hs
      have := h n hs
      simp [hn] at this
    · intro h n hs
      have := fun hn => h n hn hs
      simpa using this

theorem apply_apply (change : ShareChange) (uids shared : List String) :
    change.apply uids (change.apply uids shared) = change.apply uids shared := by
  rw [apply_eq_self_iff]
  intro n hn
  rw [mem_apply]
  cases change with
  | add => simp [After, hn]
  | remove => simp [After, hn]

end ShareChange

namespace Store

/-- What sharing does to a store: lists of shared nodes are others, in named nodes only. -/
structure Shares (uids : List String) (s t : Store) : Prop where
  lastUid : t.lastUid = s.lastUid
  nodes : t.nodes = s.nodes
  usernames : t.usernames = s.usernames
  account : ∀ {uid a}, s.accounts.find? uid = some a →
    ∃ shared, t.accounts.find? uid = some { a with shared := shared } ∧
      ∀ n, (n ∈ shared ↔ n ∈ a.shared) ∨ n ∈ uids
  noAccount : ∀ {uid}, s.accounts.find? uid = none → t.accounts.find? uid = none

section Shares

variable {uids : List String} {s t u : Store}

theorem Shares.refl (s : Store) : Shares uids s s where
  lastUid := rfl
  nodes := rfl
  usernames := rfl
  account h := ⟨_, h, fun _ => .inl Iff.rfl⟩
  noAccount h := h

theorem Shares.trans (h : Shares uids s t) (h' : Shares uids t u) : Shares uids s u where
  lastUid := h'.lastUid.trans h.lastUid
  nodes := h'.nodes.trans h.nodes
  usernames := h'.usernames.trans h.usernames
  account ha := by
    obtain ⟨shared, ha', hm⟩ := h.account ha
    obtain ⟨shared', ha'', hm'⟩ := h'.account ha'
    refine ⟨shared', ha'', fun n => ?_⟩
    rcases hm n with e | e
    · rcases hm' n with e' | e'
      · exact .inl (e'.trans e)
      · exact .inr e'
    · exact .inr e
  noAccount ha := h'.noAccount (h.noAccount ha)

theorem Shares.of_account (h : Shares uids s t) {uid : String} {a' : Account}
    (ha' : t.accounts.find? uid = some a') :
    ∃ a shared, s.accounts.find? uid = some a ∧ a' = { a with shared := shared } := by
  cases ha : s.accounts.find? uid with
  | none => rw [h.noAccount ha] at ha'; cases ha'
  | some a =>
    obtain ⟨shared, hs, -⟩ := h.account ha
    rw [ha'] at hs
    cases hs
    exact ⟨a, shared, rfl, rfl⟩

theorem Shares.extends (h : Shares uids s t) : Extends s t where
  lastUid := Nat.le_of_eq h.lastUid.symm
  node hr := ⟨_, by rw [h.nodes]; exact hr, rfl, rfl, rfl, rfl⟩
  account ha := by
    obtain ⟨a, ha⟩ := Index.contains_iff.1 ha
    obtain ⟨shared, ha', -⟩ := h.account ha
    exact Index.contains_iff.2 ⟨_, ha'⟩

theorem Shares.sound (h : Shares uids s t) (hs : Sound s) : Sound t where
  nodeUid hr := by
    rw [h.nodes] at hr
    rw [h.lastUid]
    exact hs.nodeUid hr
  accountUid ha' := by
    obtain ⟨a, shared, ha, -⟩ := h.of_account ha'
    rw [h.lastUid]
    exact hs.accountUid ha
  disjoint hr := by
    rw [h.nodes] at hr
    exact h.noAccount (hs.disjoint hr)
  owner hr := by
    rw [h.nodes] at hr
    exact h.extends.account (hs.owner hr)
  role ha' := by
    obtain ⟨a, shared, ha, rfl⟩ := h.of_account ha'
    have hr := hs.role ha
    exact hr

end Shares

/-! ### Whose lists are changed -/

/-- The nodes that were shared with a user; nobody else has any. -/
def sharedWith (s : Store) (uid : String) : List String :=
  ((s.accounts.find? uid).map Account.shared).getD []

/-- The users whose lists are changed when nodes are shared: those before the first who has no
account, and nobody unless all the nodes are there. -/
def reached (s : Store) (nodes users : List String) : List String :=
  if nodes.all s.hasNode then users.takeWhile s.hasAccount else []

section ShareWith

variable {change : ShareChange} {nodes users : List String} {s : Store}

theorem hasAccount_insert {user : String} {a : Account} (h : s.hasAccount user = true) :
    hasAccount { s with accounts := s.accounts.insert user a } = s.hasAccount := by
  funext uid
  show (s.accounts.insert user a).contains uid = s.accounts.contains uid
  have h : s.accounts.contains user = true := h
  unfold Index.contains at h ⊢
  rw [Index.find?_insert]
  split
  · rename_i e
    rw [e, h]
    rfl
  · rfl

theorem shareWith_frame (change : ShareChange) (nodes users : List String) (s : Store) :
    (shareWith change nodes users s).2.lastUid = s.lastUid ∧
    (shareWith change nodes users s).2.nodes = s.nodes ∧
    (shareWith change nodes users s).2.usernames = s.usernames := by
  induction users generalizing s with
  | nil => exact ⟨rfl, rfl, rfl⟩
  | cons user users ih =>
    unfold shareWith
    cases s.accounts.find? user with
    | none => exact ⟨rfl, rfl, rfl⟩
    | some a => exact ih _

/-- **The accounts after the lists of users were changed**, up to the first user without one. -/
theorem find?_shareWith (change : ShareChange) (nodes users : List String) (s : Store)
    (uid : String) :
    (shareWith change nodes users s).2.accounts.find? uid =
      (s.accounts.find? uid).map fun a =>
        if uid ∈ users.takeWhile s.hasAccount then
          { a with shared := change.apply nodes a.shared }
        else a := by
  induction users generalizing s with
  | nil => simp [shareWith]
  | cons user users ih =>
    unfold shareWith
    cases ha : s.accounts.find? user with
    | none =>
      have hno : s.hasAccount user = false := Index.contains_eq_false_iff.2 ha
      simp [hno]
    | some a =>
      have hyes : s.hasAccount user = true := Index.contains_iff.2 ⟨a, ha⟩
      simp only
      rw [ih, hasAccount_insert hyes, List.takeWhile_cons_of_pos hyes, Index.find?_insert]
      -- A user who comes up again is given the list that was made already.
      by_cases e : uid = user
      · subst e
        rw [if_pos rfl, ha]
        simp [ShareChange.apply_apply]
      · rw [if_neg e]
        simp [e]

theorem hasAccount_of_shareWith {u : Unit} (h : (shareWith change nodes users s).1 = .ok u) :
    ∀ user ∈ users, s.hasAccount user = true := by
  induction users generalizing s with
  | nil => simp
  | cons user users ih =>
    unfold shareWith at h
    cases ha : s.accounts.find? user with
    | none =>
      rw [ha] at h
      cases h
    | some a =>
      have hyes : s.hasAccount user = true := Index.contains_iff.2 ⟨a, ha⟩
      rw [ha] at h
      have hus := ih h
      rw [hasAccount_insert hyes] at hus
      intro v hv
      rcases List.mem_cons.1 hv with rfl | hv
      · exact hyes
      · exact hus v hv

theorem shareWith_of_hasAccount (h : ∀ user ∈ users, s.hasAccount user = true) :
    (shareWith change nodes users s).1 = .ok () := by
  induction users generalizing s with
  | nil => rfl
  | cons user users ih =>
    have hyes := h user (by simp)
    obtain ⟨a, ha⟩ := Index.contains_iff.1 hyes
    unfold shareWith
    rw [ha]
    refine ih fun v hv => ?_
    rw [hasAccount_insert hyes]
    exact h v (List.mem_cons_of_mem _ hv)

end ShareWith

/-! ### Members -/

/-- A node links to another one. -/
def Links (s : Store) (p k : String) : Prop := ∃ r, s.nodes.find? p = some r ∧ k ∈ r.children

theorem mem_distinct {seen uids : List String} {uid : String} :
    uid ∈ distinct seen uids ↔ uid ∈ uids ∧ uid ∉ seen := by
  induction uids generalizing seen with
  | nil => simp [distinct]
  | cons u us ih =>
    unfold distinct
    by_cases hu : seen.contains u = true
    · rw [if_pos hu, ih]
      rw [List.contains_iff_mem] at hu
      constructor
      · rintro ⟨hm, hs⟩
        exact ⟨List.mem_cons_of_mem _ hm, hs⟩
      · rintro ⟨hm, hs⟩
        rcases List.mem_cons.1 hm with rfl | hm
        · exact absurd hu hs
        · exact ⟨hm, hs⟩
    · rw [if_neg hu, List.mem_cons, ih, List.mem_cons, List.mem_cons, not_or]
      rw [List.contains_iff_mem] at hu
      by_cases e : uid = u
      · subst e
        simp [hu]
      · simp [e]

theorem mem_withChildren {s : Store} {uids : List String} {k : String} :
    k ∈ s.withChildren uids ↔ ∃ p ∈ uids, (k = p ∧ s.hasNode p = true) ∨ s.Links p k := by
  unfold withChildren Links
  rw [List.mem_flatMap]
  refine exists_congr fun p => and_congr_right fun _ => ?_
  cases hp : s.nodes.find? p with
  | none =>
    have hno : s.hasNode p = false := Index.contains_eq_false_iff.2 hp
    simp [hno]
  | some r =>
    have hyes : s.hasNode p = true := Index.contains_iff.2 ⟨r, hp⟩
    simp [hyes]

/-- **The members of what is shared** are the named nodes and their direct children. -/
theorem mem_members {s : Store} {uids : List String} {n : Node} :
    n ∈ s.members uids ↔ ∃ k q, s.nodes.find? k = some q ∧ n = q.toNode k ∧
      ∃ p ∈ uids, k = p ∨ s.Links p k := by
  unfold members
  simp only [List.mem_filterMap, mem_distinct, mem_withChildren, List.not_mem_nil,
    not_false_eq_true, and_true]
  constructor
  · rintro ⟨k, ⟨p, hp, hk⟩, hn⟩
    obtain ⟨q, hq, rfl⟩ := Option.map_eq_some_iff.1 hn
    exact ⟨k, q, hq, rfl, p, hp, hk.imp_left And.left⟩
  · rintro ⟨k, q, hq, rfl, p, hp, hk⟩
    refine ⟨k, ⟨p, hp, hk.imp_left ?_⟩, by rw [node?, hq]; rfl⟩
    rintro rfl
    exact ⟨rfl, Index.contains_iff.2 ⟨q, hq⟩⟩

theorem members_eq_of_nodes {s t : Store} (h : t.nodes = s.nodes) (uids : List String) :
    t.members uids = s.members uids := by
  have hnode : t.node? = s.node? := by
    funext uid
    unfold node?
    rw [h]
  unfold members withChildren
  rw [h, hnode]

/-! ### The whole share -/

theorem requireNodes_eq_ok_iff {s : Store} {uids : List String} :
    s.requireNodes uids = .ok () ↔ ∀ n ∈ uids, s.hasNode n = true := by
  induction uids with
  | nil => simp [requireNodes]
  | cons uid uids ih =>
    unfold requireNodes
    by_cases h : s.hasNode uid = true
    · rw [if_pos h, ih]
      simp [h]
    · rw [if_neg h]
      simp [h]

section Share

variable {change : ShareChange} {nodes users : List String} {s : Store}

/-- **A share is refused at once, or the lists of users are changed** in turn. -/
theorem share_cases (change : ShareChange) (nodes users : List String) (s : Store) :
    (∃ e, s.share change nodes users = (.error e, s) ∧ s.reached nodes users = []) ∨
    s.share change nodes users =
        ((shareWith change nodes users s).1.map fun _ => s.members nodes,
          (shareWith change nodes users s).2) ∧
      (∀ n ∈ nodes, s.hasNode n = true) ∧
      s.reached nodes users = users.takeWhile s.hasAccount := by
  unfold share reached
  have hiff : s.requireNodes nodes = .ok () ↔ ∀ n ∈ nodes, s.hasNode n = true :=
    requireNodes_eq_ok_iff
  cases hr : s.requireNodes nodes with
  | error e =>
    have hno : ¬ ∀ n ∈ nodes, s.hasNode n = true := by
      intro h
      rw [hiff.2 h] at hr
      cases hr
    rw [if_neg (by rwa [List.all_eq_true])]
    exact .inl ⟨e, rfl, rfl⟩
  | ok u =>
    have hyes := hiff.1 hr
    have hmembers := members_eq_of_nodes (shareWith_frame change nodes users s).2.1 nodes
    rw [if_pos (by rwa [List.all_eq_true])]
    refine .inr ⟨?_, hyes, rfl⟩
    rcases hw : shareWith change nodes users s with ⟨e | u, t⟩
    · rfl
    · rw [hw] at hmembers
      simp only at hmembers ⊢
      rw [hmembers]
      rfl

/-- **The accounts after a share.** -/
theorem find?_share (change : ShareChange) (nodes users : List String) (s : Store) (uid : String) :
    (s.share change nodes users).2.accounts.find? uid =
      (s.accounts.find? uid).map fun a =>
        if uid ∈ s.reached nodes users then { a with shared := change.apply nodes a.shared }
        else a := by
  rcases share_cases change nodes users s with ⟨e, h, hr⟩ | ⟨h, -, hr⟩
  · rw [h, hr]
    simp
  · rw [h, hr]
    exact find?_shareWith change nodes users s uid

/-- **The lists of shared nodes after a share**: those of the users who are reached are changed, and
no others, whatever becomes of the request. -/
theorem sharedWith_share (change : ShareChange) (nodes users : List String) (s : Store)
    (uid : String) :
    (s.share change nodes users).2.sharedWith uid =
      if uid ∈ s.reached nodes users then change.apply nodes (s.sharedWith uid)
      else s.sharedWith uid := by
  unfold sharedWith
  rw [find?_share]
  cases ha : s.accounts.find? uid with
  | none =>
    -- Whoever has no account is not reached.
    have hno : uid ∉ s.reached nodes users := by
      unfold reached
      split
      · intro hm
        have hyes : s.hasAccount uid = true := List.mem_takeWhile_imp hm
        obtain ⟨a, ha'⟩ := Index.contains_iff.1 hyes
        rw [ha] at ha'
        cases ha'
      · simp
    rw [if_neg hno]
    rfl
  | some a =>
    simp only [Option.map_some, Option.getD_some]
    split
    · rfl
    · rfl

theorem nodes_share (change : ShareChange) (nodes users : List String) (s : Store) :
    (s.share change nodes users).2.nodes = s.nodes := by
  rcases share_cases change nodes users s with ⟨e, h, -⟩ | ⟨h, -⟩
  · rw [h]
  · rw [h]
    exact (shareWith_frame change nodes users s).2.1

/-- **A share that is not refused** names nodes and users that are there, all of whom it reaches. -/
theorem of_share_eq_ok {members : List Node} (h : (s.share change nodes users).1 = .ok members) :
    members = s.members nodes ∧ (∀ n ∈ nodes, s.hasNode n = true) ∧
      (∀ user ∈ users, s.hasAccount user = true) ∧ s.reached nodes users = users := by
  rcases share_cases change nodes users s with ⟨e, he, -⟩ | ⟨he, hn, hr⟩
  · rw [he] at h
    cases h
  · rw [he] at h
    rcases hw : (shareWith change nodes users s).1 with e | u
    · rw [hw] at h
      cases h
    · rw [hw] at h
      cases h
      have hu := hasAccount_of_shareWith hw
      exact ⟨rfl, hn, hu, hr.trans (List.takeWhile_eq_self_iff.2 hu)⟩

/-- **A share whose nodes and users are all there is not refused.** -/
theorem share_of_there (change : ShareChange) (hn : ∀ n ∈ nodes, s.hasNode n = true)
    (hu : ∀ user ∈ users, s.hasAccount user = true) :
    ∃ members, (s.share change nodes users).1 = .ok members := by
  have hrequire : s.requireNodes nodes = .ok () := requireNodes_eq_ok_iff.2 hn
  have hwith : (shareWith change nodes users s).1 = .ok () := shareWith_of_hasAccount hu
  unfold share
  rw [hrequire]
  simp only
  rcases hw : shareWith change nodes users s with ⟨e | _, t⟩
  · rw [hw] at hwith
    cases hwith
  · exact ⟨_, rfl⟩

/-- **Sharing changes lists of shared nodes**, in nothing but the named nodes. -/
theorem shares_share (change : ShareChange) (nodes users : List String) (s : Store) :
    Shares nodes s (s.share change nodes users).2 := by
  have hframe : (s.share change nodes users).2.lastUid = s.lastUid ∧
      (s.share change nodes users).2.usernames = s.usernames := by
    rcases share_cases change nodes users s with ⟨e, h, -⟩ | ⟨h, -⟩
    · rw [h]
      exact ⟨rfl, rfl⟩
    · rw [h]
      obtain ⟨hl, -, hu⟩ := shareWith_frame change nodes users s
      exact ⟨hl, hu⟩
  refine ⟨hframe.1, nodes_share change nodes users s, hframe.2, fun {uid a} ha => ?_,
    fun {uid} ha => ?_⟩
  · rw [find?_share, ha]
    by_cases hu : uid ∈ s.reached nodes users
    · refine ⟨change.apply nodes a.shared, by simp [hu], fun n => ?_⟩
      by_cases hn : n ∈ nodes
      · exact .inr hn
      · rw [ShareChange.mem_apply, ShareChange.after_iff_of_not hn]
        exact .inl Iff.rfl
    · exact ⟨a.shared, by simp [hu], fun _ => .inl Iff.rfl⟩
  · rw [find?_share, ha]
    rfl

/-- **Nothing is shared unless all the nodes are there.** -/
theorem share_eq_or_hasNode (change : ShareChange) (nodes users : List String) (s : Store) :
    (s.share change nodes users).2 = s ∨ ∀ n ∈ nodes, s.hasNode n = true := by
  rcases share_cases change nodes users s with ⟨e, h, -⟩ | ⟨-, hn, -⟩
  · rw [h]
    exact .inl rfl
  · exact .inr hn

end Share

end Store

end SealedGraph
