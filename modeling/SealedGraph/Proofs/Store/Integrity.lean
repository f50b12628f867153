import SealedGraph.Proofs.Registry.Groups
import SealedGraph.Proofs.Store.Whole

/-!
# The store keeps its integrity

Every uid has one holder, every node has its owner and its group, and every uid that a node or an
account names is that of a node. This is no one operation's doing: some check before they write,
some write batches that refer to themselves, and all of them may be refused half way.

* `Intact`: what holds of every entry, as a predicate of the entry that the nodes of the store and
  the number of its last uid decide.
* `Intact.extend`: an operation that takes nothing back has to show it of the entries that it wrote.
* `intact_perform`: each operation does.
* `WholeStore.Integrity`, `integrity_after`: what that says of the nodes and users that are kept in a
  store that came out of an empty one, and of what becomes of it.
-/

namespace SealedGraph

namespace Store

/-! ### Entries -/

/-- What holds of the record of a node. -/
structure RecordFits (s : Store) (uid : String) (r : Record) : Prop where
  numbered : Fresh 0 s.lastUid uid
  group : r.group ≠ ""
  child : ∀ c ∈ r.children, s.hasNode c = true ∧ c ≠ uid

/-- What holds of an account. -/
structure AccountFits (s : Store) (uid : String) (a : Account) : Prop where
  numbered : Fresh 0 s.lastUid uid
  owned : ∀ n ∈ a.owned, ∃ r, s.nodes.find? n = some r ∧ r.owner = uid
  ownedOnce : a.owned.Nodup
  shared : ∀ n ∈ a.shared, s.hasNode n = true

/-- What holds of all entries, and that no two are under one key. -/
structure Intact (s : Store) : Prop where
  nodeKeys : s.nodes.keys.Nodup
  accountKeys : s.accounts.keys.Nodup
  record : ∀ {uid r}, s.nodes.find? uid = some r → RecordFits s uid r
  account : ∀ {uid a}, s.accounts.find? uid = some a → AccountFits s uid a

theorem intact_empty : Intact empty where
  nodeKeys := List.nodup_nil
  accountKeys := List.nodup_nil
  record h := by simp [empty, EmptyCollection.emptyCollection] at h
  account h := by simp [empty, EmptyCollection.emptyCollection] at h

section Extend

variable {s t : Store} {uid : String}

theorem Fresh.mono {base base' last last' : Nat} (h : Fresh base last uid) (hb : base' ≤ base)
    (hl : last ≤ last') : Fresh base' last' uid := by
  obtain ⟨n, hn, hn', e⟩ := h
  exact ⟨n, by omega, by omega, e⟩

theorem Extends.hasNode (h : Extends s t) (hn : s.hasNode uid = true) : t.hasNode uid = true := by
  obtain ⟨r, hr⟩ := Index.contains_iff.1 hn
  obtain ⟨r', hr', -⟩ := h.node hr
  exact Index.contains_iff.2 ⟨r', hr'⟩

theorem RecordFits.extend {r : Record} (h : RecordFits s uid r) (he : Extends s t) :
    RecordFits t uid r where
  numbered := h.numbered.mono (Nat.le_refl _) he.lastUid
  group := h.group
  child c hc := (h.child c hc).imp_left he.hasNode

theorem AccountFits.extend {a : Account} (h : AccountFits s uid a) (he : Extends s t) :
    AccountFits t uid a where
  numbered := h.numbered.mono (Nat.le_refl _) he.lastUid
  owned n hn := by
    obtain ⟨r, hr, ho⟩ := h.owned n hn
    obtain ⟨r', hr', ho', -⟩ := he.node hr
    exact ⟨r', hr', ho'.trans ho⟩
  ownedOnce := h.ownedOnce
  shared n hn := he.hasNode (h.shared n hn)

/-- **A store that takes nothing back** stays intact if the entries that are not as they were
fit. -/
theorem Intact.extend (h : Intact s) (he : Extends s t) (hn : t.nodes.keys.Nodup)
    (ha : t.accounts.keys.Nodup)
    (hrecord : ∀ {uid r}, t.nodes.find? uid = some r →
      s.nodes.find? uid = some r ∨ RecordFits t uid r)
    (haccount : ∀ {uid a}, t.accounts.find? uid = some a →
      s.accounts.find? uid = some a ∨ AccountFits t uid a) : Intact t where
  nodeKeys := hn
  accountKeys := ha
  record hr := by
    rcases hrecord hr with hr | hr
    · exact (h.record hr).extend he
    · exact hr
  account ha := by
    rcases haccount ha with ha | ha
    · exact (h.account ha).extend he
    · exact ha

/-- One account is written, under a uid that has one or a new one. -/
theorem Intact.putAccount (h : Intact s) {last : Nat} (hl : s.lastUid ≤ last)
    (names : Index String) {a : Account}
    (ha : AccountFits { s with lastUid := last } uid a) :
    Intact { s with lastUid := last, accounts := s.accounts.insert uid a, usernames := names } := by
  refine h.extend ⟨hl, fun hr => ⟨_, hr, rfl, rfl, rfl, rfl⟩, fun {k} hk => ?_⟩ h.nodeKeys
    (Index.nodup_keys_insert h.accountKeys _ _) (fun hr => .inl hr) (fun {k b} hb => ?_)
  · obtain ⟨b, hb⟩ := Index.contains_iff.1 hk
    refine Index.contains_iff.2 ?_
    rw [Index.find?_insert]
    split
    · exact ⟨a, rfl⟩
    · exact ⟨b, hb⟩
  · rw [Index.find?_insert] at hb
    split at hb
    · rename_i e
      subst e
      cases hb
      exact .inr ⟨ha.numbered, ha.owned, ha.ownedOnce, ha.shared⟩
    · exact .inl hb

end Extend

/-! ### Changes of the nodes that are there -/

section Nodes

variable {s : Store} {now : Timestamp} {subjects incoming outgoing : List String}

/-- One record is changed; what it links to then is there, and is not the node itself. -/
theorem Intact.modifyNode (h : Intact s) {W : String → Prop} {E : String → String → Prop}
    {uid : String} {f : Record → Record} (hf : ∀ r, Altered W E uid r (f r))
    (hc : ∀ r, ∀ c ∈ (f r).children, c ∈ r.children ∨ s.hasNode c = true ∧ c ≠ uid) :
    Intact { s with nodes := s.nodes.modify uid f } := by
  have he := (alters_modify uid f hf s).extends
  refine h.extend he (Index.nodup_keys_modify h.nodeKeys _ _) h.accountKeys
    (fun {k r'} hr' => ?_) (fun ha => .inl ha)
  simp only [Index.find?_modify] at hr'
  split at hr'
  · rename_i e
    subst e
    obtain ⟨r, hr, rfl⟩ := Option.map_eq_some_iff.1 hr'
    have hfit := (h.record hr).extend he
    refine .inr ⟨hfit.numbered, ?_, fun c hm => ?_⟩
    · rw [(hf r).group]
      exact hfit.group
    · rcases hc r c hm with hold | ⟨hn, hne⟩
      · exact hfit.child c hold
      · exact ⟨he.hasNode hn, hne⟩
  · exact .inl hr'

theorem Intact.setContent (h : Intact s) (uid : String) (content : Content) :
    Intact (s.setContent now uid content) :=
  h.modifyNode (W := (· = uid)) (E := fun _ _ => False)
    (fun _ => ⟨rfl, rfl, rfl, rfl, fun _ => rfl, fun _ => .inl Iff.rfl⟩) (fun _ _ hc => .inl hc)

theorem Intact.link (h : Intact s) {source target : String} (hn : s.hasNode target = true)
    (hne : target ≠ source) : Intact (s.link now source target) := by
  refine h.modifyNode (W := fun _ => False) (E := fun _ _ => True)
    (fun _ => ⟨rfl, rfl, rfl, rfl, fun e => absurd rfl e, fun _ => .inr trivial⟩) ?_
  intro r c hc
  simp only at hc
  split at hc
  · exact .inl hc
  · rcases List.mem_append.1 hc with hc | hc
    · exact .inl hc
    · rw [List.mem_singleton.1 hc]
      exact .inr ⟨hn, hne⟩

theorem Intact.unlink (h : Intact s) (source target : String) :
    Intact (s.unlink now source target) := by
  refine h.modifyNode (W := fun _ => False) (E := fun _ _ => True) ?_ ?_
  · intro r
    split
    · exact ⟨rfl, rfl, rfl, rfl, fun e => absurd rfl e, fun _ => .inr trivial⟩
    · exact .refl _ _
  · intro r c hc
    split at hc
    · exact .inl (List.mem_filter.1 hc).1
    · exact .inl hc

theorem Intact.applyContents (h : Intact s) (nodes : List Node) :
    Intact (applyContents now nodes s).2 := by
  induction nodes generalizing s with
  | nil => exact h
  | cons n ns ih => exact ih (h.setContent n.uid n.content)

theorem Intact.update (h : Intact s) (nodes : List Node) : Intact (s.update now nodes).2 := by
  unfold Store.update
  split
  · exact h
  · exact h.applyContents nodes

/-- Some links in turn, all of them to nodes that are there. -/
theorem Intact.linkAll (h : Intact s) {links : List (String × String)}
    (hl : ∀ e ∈ links, s.hasNode e.2 = true ∧ e.2 ≠ e.1) :
    Intact (links.foldl (fun s e => s.link now e.1 e.2) s) := by
  induction links generalizing s with
  | nil => exact h
  | cons e links ih =>
    obtain ⟨hn, hne⟩ := hl e (by simp)
    have he := (alters_link (W := fun _ => False) now e.1 e.2 s).extends
    refine ih (h.link hn hne) fun e' he' => ?_
    exact (hl e' (List.mem_cons_of_mem _ he')).imp_left he.hasNode

theorem Intact.addEdges (h : Intact s) :
    Intact (s.addEdges now subjects incoming outgoing).2 := by
  unfold Store.addEdges
  split
  · exact h
  · rename_i hreq
    split
    · exact h
    · rename_i hself
      have hthere := requireNodes_eq_ok_iff.1 hreq
      have hapart : ∀ x ∈ subjects, x ∉ incoming ∧ x ∉ outgoing := by
        simpa [List.find?_eq_none] using hself
      refine h.linkAll fun e he => ?_
      rcases mem_edges.1 he with ⟨hx, hy⟩ | ⟨hx, hy⟩
      · refine ⟨hthere _ (by simp [hy]), fun heq => (hapart _ hy).1 ?_⟩
        rwa [heq]
      · refine ⟨hthere _ (by simp [hy]), fun heq => (hapart _ hx).2 ?_⟩
        rwa [← heq]

theorem Intact.removeEdges (h : Intact s) :
    Intact (s.removeEdges now subjects incoming outgoing).2 := by
  unfold Store.removeEdges
  split
  · exact h
  · refine List.foldlRecOn _ _ h fun t ht e _ => ?_
    exact ht.unlink e.1 e.2

end Nodes

/-! ### Changes of accounts -/

section Accounts

variable {s : Store}

/-- An account that is there is changed; it may have other nodes on its list of shared ones. -/
theorem Intact.changeAccount (h : Intact s) {uid : String} {a : Account}
    (ha : s.accounts.find? uid = some a) (a' : Account) (ho : a'.owned = a.owned)
    (hs : ∀ n ∈ a'.shared, n ∈ a.shared ∨ s.hasNode n = true) (names : Index String) :
    Intact { s with accounts := s.accounts.insert uid a', usernames := names } := by
  have hfit := h.account ha
  refine h.putAccount (Nat.le_refl _) names ⟨hfit.numbered, ?_, ?_, fun n hn => ?_⟩
  · rw [ho]
    exact hfit.owned
  · rw [ho]
    exact hfit.ownedOnce
  · rcases hs n hn with hn | hn
    · exact hfit.shared n hn
    · exact hn

theorem Intact.shareWith (h : Intact s) (change : ShareChange) {nodes : List String}
    (hn : ∀ n ∈ nodes, s.hasNode n = true) (users : List String) :
    Intact (shareWith change nodes users s).2 := by
  induction users generalizing s with
  | nil => exact h
  | cons user users ih =>
    unfold Store.shareWith
    split
    · rename_i a ha
      refine ih (h.changeAccount ha { a with shared := change.apply nodes a.shared } rfl
        (fun n hm => ?_) s.usernames) hn
      rw [ShareChange.mem_apply] at hm
      cases change with
      | add => exact hm.imp_right (hn n)
      | remove => exact .inl hm.1
    · exact h

theorem Intact.share (h : Intact s) (change : ShareChange) (nodes users : List String) :
    Intact (s.share change nodes users).2 := by
  rcases share_cases change nodes users s with ⟨e, he, -⟩ | ⟨he, hn, -⟩
  · rw [he]
    exact h
  · rw [he]
    exact h.shareWith change hn users

theorem Intact.updateAccount (h : Intact s) (u : AccountUpdate) :
    Intact (s.updateAccount u).2 := by
  unfold Store.updateAccount
  split
  · exact h
  · rename_i a ha
    exact h.changeAccount ha (a.updated u) rfl (fun n hn => .inl hn) _

theorem Intact.applyUpdates (h : Intact s) (updates : List AccountUpdate) :
    Intact (applyUpdates updates s).2 := by
  induction updates generalizing s with
  | nil => exact h
  | cons u us ih => exact ih (h.updateAccount u)

theorem Intact.updateAccounts (h : Intact s) (updates : List AccountUpdate) :
    Intact (s.updateAccounts updates).2 := by
  unfold Store.updateAccounts
  split
  · exact h
  · split
    · exact h
    · exact h.applyUpdates updates

theorem Intact.createAccount (h : Intact s) (new : NewAccount) :
    Intact (s.createAccount new).2 := by
  rcases createAccount_cases s new with ⟨e, he⟩ | ⟨-, he⟩
  · rw [he]
    exact h
  · rw [he]
    have hfresh := (fresh_succ s.lastUid).mono (Nat.zero_le _) (Nat.le_refl _)
    exact h.putAccount (Nat.le_succ _) _ ⟨hfresh, by simp, List.nodup_nil, by simp⟩

end Accounts

/-! ### New nodes -/

section Create

variable {s : Store} {now : Timestamp} {owner group : String} {batch : List Node}
  {assigned : Index String} {last : Nat}

/-- The uids that a refused batch used up are missing, and nothing else. -/
theorem Intact.skip (h : Intact s) (hl : s.lastUid ≤ last) : Intact { s with lastUid := last } :=
  h.extend ⟨hl, fun hr => ⟨_, hr, rfl, rfl, rfl, rfl⟩, fun ha => ha⟩ h.nodeKeys h.accountKeys
    (fun hr => .inl hr) (fun ha => .inl ha)

/-- What makes a batch fit to be taken in: every placeholder that has a uid is that of a node of the
batch, and no node links to itself. -/
structure BatchFits (base last : Nat) (assigned : Index String) (batch : List Node) : Prop
    extends Distinct base last assigned where
  once : (batch.map Node.uid).Nodup
  mem : ∀ {p uid}, assigned.find? p = some uid → p ∈ batch.map Node.uid
  link : ∀ n ∈ batch, ∀ k ∈ n.children, k.uid ≠ n.uid

theorem batchFits_of_create (ha : assign batch ∅ s.lastUid = (.ok assigned, last))
    (hc : checkBatch assigned batch = .ok ()) : BatchFits s.lastUid last assigned batch := by
  obtain ⟨hd, hnd, -⟩ := assign_spec (Nat.le_refl _) (distinct_empty _) ha
  refine ⟨hd, hnd, fun hp => ?_, fun n hn k hk => (checkBatch_eq_ok_iff.1 hc n hn k hk).1⟩
  rcases mem_of_assign ha hp with h | h
  · cases h
  · exact h

/-- A placeholder stands for a new node of the owner. -/
theorem BatchFits.owned (hb : BatchFits s.lastUid last assigned batch) {p uid : String}
    (hp : assigned.find? p = some uid) :
    ∃ r, ({ s with lastUid := last }.addRecords owner group now assigned batch).nodes.find? uid =
      some r ∧ r.owner = owner := by
  obtain ⟨n, hn, rfl⟩ := List.mem_map.1 (hb.mem hp)
  exact ⟨_, find?_addRecords hb.toDistinct hb.once hn hp _, rfl⟩

theorem Intact.addRecords (h : Intact s) (hs : Sound s) (hl : s.lastUid ≤ last)
    (hb : BatchFits s.lastUid last assigned batch) (hg : group ≠ "") :
    Intact ({ s with lastUid := last }.addRecords owner group now assigned batch) := by
  obtain ⟨hlast, haccounts, -⟩ :=
    addRecords_frame owner group now assigned batch { s with lastUid := last }
  have he : Extends s ({ s with lastUid := last }.addRecords owner group now assigned batch) :=
    Grows.extends (E := fun _ _ => False) (grows_addRecords hs hl hb.toDistinct hb.once)
  refine h.extend he (nodup_keys_addRecords h.nodeKeys) ?_ (fun {uid r} hr => ?_) (fun ha => ?_)
  · rw [haccounts]
    exact h.accountKeys
  · rcases of_find?_addRecords hb.toDistinct hb.once hr with ⟨n, hn, hu, rfl⟩ | hr
    · refine .inr ⟨?_, hg, fun c hc => ?_⟩
      · rw [hlast]
        exact (hb.fresh hu).mono (Nat.zero_le _) (Nat.le_refl _)
      · obtain ⟨k, hk, hc⟩ := List.mem_filterMap.1 hc
        obtain ⟨r, hr, -⟩ := hb.owned hc
        refine ⟨Index.contains_iff.2 ⟨r, hr⟩, fun e => hb.link n hn k hk ?_⟩
        exact hb.injective (e ▸ hc) hu
    · exact .inl hr
  · rw [haccounts] at ha
    exact .inl ha

/-- New nodes of an owner are put on the list of those that the owner owns. -/
theorem Intact.own (h : Intact s) {uids : List String}
    (hu : ∀ n ∈ uids, ∃ r, s.nodes.find? n = some r ∧ r.owner = owner) (hnd : uids.Nodup)
    (hnew : ∀ {a}, s.accounts.find? owner = some a → ∀ n ∈ uids, n ∉ a.owned) :
    Intact { s with
      accounts := s.accounts.modify owner fun a => { a with owned := a.owned ++ uids } } := by
  unfold Index.modify
  split
  · rename_i a ha
    have hfit := h.account ha
    refine h.putAccount (Nat.le_refl _) s.usernames ⟨hfit.numbered, fun n hn => ?_, ?_, hfit.shared⟩
    · rcases List.mem_append.1 hn with hn | hn
      · exact hfit.owned n hn
      · exact hu n hn
    · refine List.nodup_append.2 ⟨hfit.ownedOnce, hnd, fun x hx y hy e => ?_⟩
      exact hnew ha y hy (e ▸ hx)
  · exact h

theorem BatchFits.nodup_uids {base : Nat} (hb : BatchFits base last assigned batch) :
    ((roots batch).filterMap assigned.find?).Nodup := by
  refine List.Nodup.filterMap ?_ (hb.once.filter _)
  intro p q uid hp hq
  exact hb.injective hp hq

theorem attach_parent (now : Timestamp) (owner parent : String) (uids : List String) (s : Store) :
    attach now owner (some parent) uids s =
      (uids.map fun uid => (parent, uid)).foldl (fun s e => s.link now e.1 e.2) s := by
  rw [List.foldl_map]
  rfl

theorem Intact.create (h : Intact s) (hs : Sound s) (hg : group ≠ "") (parent : Option String) :
    Intact (s.create now group owner parent batch).2 := by
  rcases create_cases s now group owner parent batch with ⟨e, last, hl, he⟩ |
    ⟨assigned, last, hcheck, ha, hc, he⟩
  · rw [he]
    exact h.skip hl
  · have hb := batchFits_of_create ha hc
    have hl := le_assign batch ∅ s.lastUid
    rw [ha] at hl
    have hadd : Intact ({ s with lastUid := last }.addRecords owner group now assigned batch) :=
      h.addRecords hs hl hb hg
    rw [he]
    cases parent with
    | none =>
      refine hadd.own (fun n hn => ?_) hb.nodup_uids (fun {a} hown n hn hold => ?_)
      · obtain ⟨p, -, hp⟩ := List.mem_filterMap.1 hn
        exact hb.owned hp
      · -- What is owned already was there before, and these uids were nobody's.
        obtain ⟨p, -, hp⟩ := List.mem_filterMap.1 hn
        rw [(addRecords_frame owner group now assigned batch { s with lastUid := last }).2.1] at hown
        obtain ⟨r, hr, -⟩ := (h.account hown).owned n hold
        rw [(hs.find?_of_fresh (hb.fresh hp)).1] at hr
        cases hr
    | some p =>
      rw [attach_parent]
      refine hadd.linkAll fun e he => ?_
      obtain ⟨u, hu, rfl⟩ := List.mem_map.1 he
      obtain ⟨q, -, hq⟩ := List.mem_filterMap.1 hu
      obtain ⟨r, hr, -⟩ : ∃ r, ({ s with lastUid := last }.addRecords owner group now assigned
          batch).nodes.find? u = some r ∧ r.owner = owner := hb.owned hq
      refine ⟨Index.contains_iff.2 ⟨r, hr⟩, ?_⟩
      intro (e : u = p)
      obtain ⟨r', hr'⟩ := Index.contains_iff.1 ((checkCreate_eq_ok_iff.1 hcheck).2.2 p rfl)
      rw [← e, (hs.find?_of_fresh (hb.fresh hq)).1] at hr'
      cases hr'

end Create

/-! ### Any number of operations -/

theorem intact_perform (action : Action) {s : Store} (hs : Sound s) (h : Intact s) :
    Intact (action.perform s) := by
  cases action with
  | create now millis random owner parent batch =>
    exact h.create hs (Registry.isGroup_groupId millis random).1 parent
  | update now nodes => exact h.update nodes
  | addEdges => exact h.addEdges
  | removeEdges => exact h.removeEdges
  | share change nodes users => exact h.share change nodes users
  | createAccount new => exact h.createAccount new
  | updateAccounts updates => exact h.updateAccounts updates

theorem intact_after (actions : List Action) : Intact (after actions) := by
  have h : Sound (after actions) ∧ Intact (after actions) :=
    after_induction (P := fun s => Sound s ∧ Intact s) ⟨sound_empty, intact_empty⟩
      (fun action _ hs => ⟨sound_perform action hs.1, intact_perform action hs.1 hs.2⟩) actions
  exact h.2

theorem uidOf_eq_toDigits (n : Nat) : uidOf n = "0x" ++ String.ofList (Nat.toDigits 16 n) := by
  unfold uidOf
  rw [Text.hexText_eq_toDigits]
  simp [String.ext_iff]

section Integrity

variable {s : Store}

theorem Intact.nodup_uids (h : Intact s) (hs : Sound s) : s.uids.Nodup := by
  refine List.nodup_append.2 ⟨h.nodeKeys, h.accountKeys, fun x hx y hy e => ?_⟩
  obtain ⟨r, hr⟩ := Index.contains_iff.1 (Index.mem_keys_iff.1 hx)
  obtain ⟨a, ha⟩ := Index.contains_iff.1 (Index.mem_keys_iff.1 hy)
  rw [← e, hs.disjoint hr] at ha
  cases ha

theorem Intact.numbered (h : Intact s) {uid : String} (hu : uid ∈ s.uids) :
    Fresh 0 s.lastUid uid := by
  rcases mem_uids_iff.1 hu with hu | hu
  · obtain ⟨r, hr⟩ := Index.contains_iff.1 hu
    exact (h.record hr).numbered
  · obtain ⟨a, ha⟩ := Index.contains_iff.1 hu
    exact (h.account ha).numbered

/-- **No node is owned twice**: one list has no node twice, and two accounts cannot both be the
owner. -/
theorem Intact.nodup_owned (h : Intact s) : (s.accounts.values.flatMap Account.owned).Nodup := by
  have hfind : ∀ e ∈ s.accounts.entries, s.accounts.find? e.1 = some e.2 := fun e he =>
    (Index.find?_eq_some_iff_mem h.accountKeys).2 he
  unfold Index.values
  rw [List.flatMap_map, List.nodup_flatMap]
  refine ⟨fun e he => (h.account (hfind e he)).ownedOnce, ?_⟩
  refine (List.pairwise_map.1 h.accountKeys).imp_of_mem fun {e e'} he he' hne => ?_
  intro n hn hn'
  obtain ⟨r, hr, ho⟩ := (h.account (hfind e he)).owned n hn
  obtain ⟨r', hr', ho'⟩ := (h.account (hfind e' he')).owned n hn'
  rw [hr] at hr'
  cases hr'
  exact hne (ho.symm.trans ho')

end Integrity

end Store

/-! ### Whole nodes and users -/

namespace WholeStore

open Store (Action Fresh Intact Sound)

/-- The uids of the nodes and of the users. -/
def uids (w : WholeStore) : List String := w.nodes.keys ++ w.users.keys

/-- What is true of the uids of a store, of its nodes and of its users, as they are kept. -/
structure Integrity (w : WholeStore) : Prop where
  /-- no two nodes, no two users, and no node and user have one uid -/
  distinct : w.uids.Nodup
  /-- a uid is a number in lower-case hexadecimal, up to that of the last one -/
  numbered : ∀ uid ∈ w.uids,
    ∃ n, 1 ≤ n ∧ n ≤ w.lastUid ∧ uid = "0x" ++ String.ofList (Nat.toDigits 16 n)
  /-- a node is stored under its uid, without token and links, with an owner who has an account and
  with a group -/
  node : ∀ {uid r}, w.nodes.find? uid = some r →
    r.node.uid = uid ∧ r.node.token = none ∧ r.node.children = [] ∧
    (∃ owner, r.node.owner = some owner ∧ w.users.contains owner = true) ∧
    ∃ group, r.node.group = some group ∧ group ≠ ""
  /-- a user is stored under the uid -/
  user : ∀ {uid r}, w.users.find? uid = some r → r.user.uid = uid
  /-- a node links to nodes, and not to itself -/
  child : ∀ {uid r}, w.nodes.find? uid = some r →
    ∀ c ∈ r.children, w.nodes.contains c = true ∧ c ≠ uid
  /-- what a user owns is a node with that owner -/
  owned : ∀ {uid r}, w.users.find? uid = some r →
    ∀ n ∈ r.owned, ∃ q, w.nodes.find? n = some q ∧ q.node.owner = some uid
  /-- no node is owned in two places, be it of one user or of two -/
  ownedOnce : (w.users.values.flatMap UserRecord.owned).Nodup
  /-- what is shared with a user is a node -/
  shared : ∀ {uid r}, w.users.find? uid = some r → ∀ n ∈ r.shared, w.nodes.contains n = true

/-- A store and a later one: nodes and users stay, nodes with their owner, permissions, group and
time of creation, and whatever came in since has a uid with a number that had not been given
out. -/
structure Follows (w x : WholeStore) : Prop where
  node : ∀ {uid r}, w.nodes.find? uid = some r → ∃ r', x.nodes.find? uid = some r' ∧
    r'.node.owner = r.node.owner ∧ r'.node.permissions = r.node.permissions ∧
    r'.node.group = r.node.group ∧ r'.node.created = r.node.created
  user : ∀ {uid}, w.users.contains uid = true → x.users.contains uid = true
  fresh : ∀ uid ∈ x.uids, uid ∈ w.uids ∨ Fresh w.lastUid x.lastUid uid

section Whole

variable {s t : Store}

theorem uids_whole (s : Store) : s.whole.uids = s.uids := by
  unfold uids Store.uids Store.whole
  rw [Index.keys_mapWithKey, Index.keys_mapWithKey]

theorem exists_of_find?_whole {uid : String} {r : NodeRecord}
    (h : s.whole.nodes.find? uid = some r) :
    ∃ q, s.nodes.find? uid = some q ∧ r = q.whole uid := by
  rw [find?_whole_nodes] at h
  obtain ⟨q, hq, e⟩ := Option.map_eq_some_iff.1 h
  exact ⟨q, hq, e.symm⟩

theorem exists_of_find?_whole_users {uid : String} {r : UserRecord}
    (h : s.whole.users.find? uid = some r) :
    ∃ a, s.accounts.find? uid = some a ∧ r = a.whole uid := by
  rw [find?_whole_users] at h
  obtain ⟨a, ha, e⟩ := Option.map_eq_some_iff.1 h
  exact ⟨a, ha, e.symm⟩

theorem integrity_whole (h : Intact s) (hs : Sound s) : Integrity s.whole where
  distinct := by
    rw [uids_whole]
    exact h.nodup_uids hs
  numbered uid hu := by
    rw [uids_whole] at hu
    obtain ⟨n, hn, hn', e⟩ := h.numbered hu
    exact ⟨n, hn, hn', e.trans (Store.uidOf_eq_toDigits n)⟩
  node hr := by
    obtain ⟨q, hq, rfl⟩ := exists_of_find?_whole hr
    refine ⟨rfl, rfl, rfl, ⟨q.owner, rfl, ?_⟩, q.group, rfl, (h.record hq).group⟩
    rw [contains_whole_users]
    exact hs.owner hq
  user hr := by
    obtain ⟨a, -, rfl⟩ := exists_of_find?_whole_users hr
    rfl
  child hr c hc := by
    obtain ⟨q, hq, rfl⟩ := exists_of_find?_whole hr
    rw [contains_whole_nodes]
    exact (h.record hq).child c hc
  owned hr n hn := by
    obtain ⟨a, ha, rfl⟩ := exists_of_find?_whole_users hr
    obtain ⟨q, hq, rfl⟩ := (h.account ha).owned n hn
    exact ⟨q.whole n, by rw [find?_whole_nodes, hq]; rfl, rfl⟩
  ownedOnce := by
    have hvalues : s.whole.users.values.flatMap UserRecord.owned =
        s.accounts.values.flatMap Account.owned := by
      unfold Store.whole Index.values Index.mapWithKey
      rw [List.map_map, List.flatMap_map, List.flatMap_map]
      rfl
    rw [hvalues]
    exact h.nodup_owned
  shared hr n hn := by
    obtain ⟨a, ha, rfl⟩ := exists_of_find?_whole_users hr
    rw [contains_whole_nodes]
    exact (h.account ha).shared n hn

theorem follows_whole (h : Store.Follows s t) : Follows s.whole t.whole where
  node {uid r} hr := by
    obtain ⟨q, hq, rfl⟩ := exists_of_find?_whole hr
    obtain ⟨q', hq', hown, hperm, hgroup, hcreated⟩ := h.kept.node hq
    refine ⟨q'.whole uid, by rw [find?_whole_nodes, hq']; rfl, ?_, hperm, ?_, ?_⟩
    · exact congrArg some hown
    · exact congrArg some hgroup
    · exact congrArg some hcreated
  user hu := by
    rw [contains_whole_users] at hu ⊢
    exact h.kept.account hu
  fresh uid hu := by
    rw [uids_whole] at hu ⊢
    exact h.fresh uid hu

end Whole

end WholeStore

/-- **The store keeps its integrity**, whatever is done to it and whatever of that is refused, with
all that it keeps of nodes and users; what comes in later has uids that were never given out before;
and this store is the one that answers. -/
theorem Store.integrity_after (actions more : List Store.Action) :
    WholeStore.Integrity (WholeStore.after actions) ∧
    WholeStore.Follows (WholeStore.after actions) (WholeStore.after (actions ++ more)) ∧
    WholeStore.Agrees (WholeStore.after actions) (Store.after actions) := by
  refine ⟨?_, ?_, WholeStore.agrees_after actions⟩
  · rw [WholeStore.after_whole]
    exact WholeStore.integrity_whole (Store.intact_after actions) (Store.sound_after actions)
  · rw [WholeStore.after_whole, WholeStore.after_whole]
    exact WholeStore.follows_whole (Store.follows_after actions more)

end SealedGraph
