import SealedGraph.Proofs.Store.Update
import SealedGraph.Store.Create

/-!
# What the creation of nodes adds

* `create_cases`: a batch is refused, and nothing but the number of the last uid is another; or it
  is taken in with the uids that `assign` found.
* `grows_create`: whatever comes of it, new nodes have new uids, the given owner and the given group,
  and of what was there only the links of the parent and the list of owned nodes are others.
* `mirrors_create`: the new nodes are shown as they are stored.
-/

namespace SealedGraph.Store

/-! ### Uids for placeholders -/

/-- What is true of the uids given out since the one with number `base`: they are new, and no two
placeholders have the same. -/
structure Distinct (base last : Nat) (assigned : Index String) : Prop where
  fresh : ∀ {p uid}, assigned.find? p = some uid → Fresh base last uid
  injective : ∀ {p q uid}, assigned.find? p = some uid → assigned.find? q = some uid → p = q

theorem le_assign (batch : List Node) (assigned : Index String) (last : Nat) :
    last ≤ (assign batch assigned last).2 := by
  fun_induction assign batch assigned last with
  | case1 => exact Nat.le_refl _
  | case2 => exact Nat.le_refl _
  | case3 n ns assigned last h ih => omega

theorem Distinct.insert {base last : Nat} {assigned : Index String} (hb : base ≤ last)
    (hd : Distinct base last assigned) (placeholder : String) :
    Distinct base (last + 1) (assigned.insert placeholder (uidOf (last + 1))) := by
  have hold : ∀ {p uid}, assigned.find? p = some uid → uid ≠ uidOf (last + 1) := by
    rintro p uid hp rfl
    obtain ⟨k, -, hk, e⟩ := hd.fresh hp
    have := uidOf_injective e
    omega
  refine ⟨fun {p uid} hp => ?_, fun {p q uid} hp hq => ?_⟩
  · rw [Index.find?_insert] at hp
    split at hp
    · cases hp
      exact ⟨last + 1, by omega, by omega, rfl⟩
    · obtain ⟨k, hk, hk', e⟩ := hd.fresh hp
      exact ⟨k, hk, by omega, e⟩
  · -- Only the new uid could be that of two placeholders, and no other one has it.
    rw [Index.find?_insert] at hp hq
    split at hp
    · rename_i hpe
      cases hp
      split at hq
      · rename_i hqe
        rw [hpe, hqe]
      · exact absurd rfl (hold hq)
    · split at hq
      · cases hq
        exact absurd rfl (hold hp)
      · exact hd.injective hp hq

theorem distinct_empty (last : Nat) : Distinct last last ∅ where
  fresh h := by simp [EmptyCollection.emptyCollection] at h
  injective h := by simp [EmptyCollection.emptyCollection] at h

/-- **Every placeholder gets a uid of its own**, in the order of the batch. -/
theorem assign_spec {base : Nat} {batch : List Node} {assigned : Index String} {last : Nat}
    (hb : base ≤ last) (hd : Distinct base last assigned) {assigned' : Index String} {last' : Nat}
    (h : assign batch assigned last = (.ok assigned', last')) :
    Distinct base last' assigned' ∧ (batch.map Node.uid).Nodup ∧
      (∀ n ∈ batch, assigned.find? n.uid = none) := by
  fun_induction assign batch assigned last with
  | case1 assigned last =>
    cases h
    exact ⟨hd, List.nodup_nil, by simp⟩
  | case2 => cases h
  | case3 n ns assigned last hn ih =>
    rw [Bool.or_eq_true, not_or, Bool.not_eq_true, Bool.not_eq_true,
      Index.contains_eq_false_iff] at hn
    obtain ⟨hd', hnd, hnone⟩ := ih (by omega) (hd.insert hb n.uid) h
    refine ⟨hd', ?_, ?_⟩
    · rw [List.map_cons, List.nodup_cons]
      refine ⟨fun hm => ?_, hnd⟩
      obtain ⟨k, hk, e⟩ := List.mem_map.1 hm
      have := hnone k hk
      simp [e] at this
    · intro k hk
      rcases List.mem_cons.1 hk with rfl | hk
      · exact hn.2
      · have := hnone k hk
        rw [Index.find?_insert] at this
        split at this
        · cases this
        · exact this

/-- Only the placeholders of the batch get uids. -/
theorem mem_of_assign {batch : List Node} {assigned assigned' : Index String} {last last' : Nat}
    (h : assign batch assigned last = (.ok assigned', last')) {p uid : String}
    (hp : assigned'.find? p = some uid) :
    assigned.find? p = some uid ∨ p ∈ batch.map Node.uid := by
  fun_induction assign batch assigned last with
  | case1 assigned last =>
    cases h
    exact .inl hp
  | case2 => cases h
  | case3 n ns assigned last hn ih =>
    rcases ih h with hp | hp
    · rw [Index.find?_insert] at hp
      split at hp
      · rename_i e
        exact .inr (by simp [e])
      · exact .inl hp
    · exact .inr (List.mem_cons_of_mem _ hp)

/-! ### Links in a batch -/

theorem checkEdges_eq_ok_iff {assigned : Index String} {uid : String} {targets : List String} :
    checkEdges assigned uid targets = .ok () ↔
      ∀ target ∈ targets, target ≠ uid ∧ assigned.contains target = true := by
  fun_induction checkEdges assigned uid targets with
  | case1 => simp
  | case2 => simp
  | case3 target targets hne hin ih => simp [ih, hne, hin]
  | case4 target targets hne hout => simp [hout]

/-- **The links of a batch** are taken in if each leads to another node of it. -/
theorem checkBatch_eq_ok_iff {assigned : Index String} {batch : List Node} :
    checkBatch assigned batch = .ok () ↔
      ∀ n ∈ batch, ∀ k ∈ n.children, k.uid ≠ n.uid ∧ assigned.contains k.uid = true := by
  induction batch with
  | nil => simp [checkBatch]
  | cons n ns ih =>
    have hn : checkEdges assigned n.uid (n.children.map Node.uid) = .ok () ↔
        ∀ k ∈ n.children, k.uid ≠ n.uid ∧ assigned.contains k.uid = true := by
      rw [checkEdges_eq_ok_iff, List.forall_mem_map]
    rw [List.forall_mem_cons, ← hn, ← ih, checkBatch]
    cases checkEdges assigned n.uid (n.children.map Node.uid) with
    | error e => simp [bind, Except.bind]
    | ok _ => simp [bind, Except.bind]

/-! ### Records -/

section Records

variable {owner group : String} {now : Timestamp} {assigned : Index String} {batch : List Node}
  {s : Store}

theorem addRecords_cons (n : Node) :
    s.addRecords owner group now assigned (n :: batch) =
      (match assigned.find? n.uid with
        | some uid =>
          { s with nodes := s.nodes.insert uid (newRecord owner group now assigned n) }
        | none => s).addRecords owner group now assigned batch := by
  unfold addRecords
  cases h : assigned.find? n.uid with
  | none => simp only [List.foldl_cons, h]
  | some uid => simp only [List.foldl_cons, h]

theorem addRecords_frame (owner group : String) (now : Timestamp) (assigned : Index String)
    (batch : List Node) (s : Store) :
    (s.addRecords owner group now assigned batch).lastUid = s.lastUid ∧
    (s.addRecords owner group now assigned batch).accounts = s.accounts ∧
    (s.addRecords owner group now assigned batch).usernames = s.usernames := by
  induction batch generalizing s with
  | nil => exact ⟨rfl, rfl, rfl⟩
  | cons n ns ih =>
    rw [addRecords_cons]
    cases assigned.find? n.uid with
    | none => exact ih s
    | some uid => exact ih _

/-- A uid that is assigned to no node of the batch keeps what it had. -/
theorem find?_addRecords_of_ne {uid : String} (h : ∀ n ∈ batch, assigned.find? n.uid ≠ some uid) :
    (s.addRecords owner group now assigned batch).nodes.find? uid = s.nodes.find? uid := by
  induction batch generalizing s with
  | nil => rfl
  | cons n ns ih =>
    rw [addRecords_cons, ih fun k hk => h k (List.mem_cons_of_mem _ hk)]
    have hn := h n (by simp)
    cases hf : assigned.find? n.uid with
    | none => rfl
    | some uid' =>
      rw [hf] at hn
      simp only [Index.find?_insert]
      rw [if_neg fun e => hn (by rw [e])]

/-- **Every node of a batch has its record.** -/
theorem find?_addRecords {base last : Nat} (hd : Distinct base last assigned)
    (hnd : (batch.map Node.uid).Nodup) {n : Node} (hn : n ∈ batch) {uid : String}
    (hu : assigned.find? n.uid = some uid) (s : Store) :
    (s.addRecords owner group now assigned batch).nodes.find? uid =
      some (newRecord owner group now assigned n) := by
  induction batch generalizing s with
  | nil => cases hn
  | cons k ks ih =>
    rw [List.map_cons, List.nodup_cons] at hnd
    rw [addRecords_cons]
    rcases List.mem_cons.1 hn with rfl | hn
    · rw [find?_addRecords_of_ne]
      · simp [hu]
      · intro k hk hku
        exact hnd.1 (hd.injective hu hku ▸ List.mem_map_of_mem hk)
    · exact ih hnd.2 hn _

/-- What is there after all is the record of a node of the batch, or was there before. -/
theorem of_find?_addRecords {base last : Nat} (hd : Distinct base last assigned)
    (hnd : (batch.map Node.uid).Nodup) {uid : String} {r : Record}
    (hr : (s.addRecords owner group now assigned batch).nodes.find? uid = some r) :
    (∃ n ∈ batch, assigned.find? n.uid = some uid ∧ r = newRecord owner group now assigned n) ∨
      s.nodes.find? uid = some r := by
  by_cases h : ∃ n ∈ batch, assigned.find? n.uid = some uid
  · obtain ⟨n, hn, hu⟩ := h
    rw [find?_addRecords hd hnd hn hu] at hr
    cases hr
    exact .inl ⟨n, hn, hu, rfl⟩
  · rw [find?_addRecords_of_ne fun n hn hu => h ⟨n, hn, hu⟩] at hr
    exact .inr hr

theorem nodup_keys_addRecords (h : s.nodes.keys.Nodup) :
    (s.addRecords owner group now assigned batch).nodes.keys.Nodup := by
  induction batch generalizing s with
  | nil => exact h
  | cons n ns ih =>
    rw [addRecords_cons]
    cases assigned.find? n.uid with
    | none => exact ih h
    | some uid => exact ih (Index.nodup_keys_insert h _ _)

end Records

/-! ### The whole creation -/

/-- What the creation of nodes does to a store: new nodes have new uids, the given owner and the
given group; nodes that were there have new links at most, within bounds; accounts have other lists
of owned nodes at most. -/
structure Grows (owner group : String) (E : String → String → Prop) (s t : Store) : Prop where
  lastUid : s.lastUid ≤ t.lastUid
  usernames : t.usernames = s.usernames
  account : ∀ {uid a}, s.accounts.find? uid = some a →
    ∃ owned, t.accounts.find? uid = some { a with owned := owned }
  noAccount : ∀ {uid}, s.accounts.find? uid = none → t.accounts.find? uid = none
  node : ∀ {uid r}, s.nodes.find? uid = some r →
    ∃ r', t.nodes.find? uid = some r' ∧ Altered (fun _ => False) E uid r r'
  new : ∀ {uid r'}, t.nodes.find? uid = some r' → s.nodes.find? uid = none →
    Fresh s.lastUid t.lastUid uid ∧ r'.owner = owner ∧ r'.group = group

section Grows

variable {owner group : String} {E : String → String → Prop} {s t : Store}

theorem Grows.extends (h : Grows owner group E s t) : Extends s t where
  lastUid := h.lastUid
  node hr := by
    obtain ⟨r', hr', ha⟩ := h.node hr
    exact ⟨r', hr', ha.owner, ha.permissions, ha.group, ha.created⟩
  account ha := by
    obtain ⟨a, ha⟩ := Index.contains_iff.1 ha
    obtain ⟨owned, ha'⟩ := h.account ha
    exact Index.contains_iff.2 ⟨_, ha'⟩

theorem Grows.of_account (h : Grows owner group E s t) {uid : String} {a' : Account}
    (ha' : t.accounts.find? uid = some a') :
    ∃ a owned, s.accounts.find? uid = some a ∧ a' = { a with owned := owned } := by
  cases ha : s.accounts.find? uid with
  | none => rw [h.noAccount ha] at ha'; cases ha'
  | some a =>
    obtain ⟨owned, ho⟩ := h.account ha
    rw [ha'] at ho
    cases ho
    exact ⟨a, owned, rfl, rfl⟩

theorem Grows.sound (h : Grows owner group E s t) (hs : Sound s) (ho : s.hasAccount owner = true) :
    Sound t where
  nodeUid {uid r'} hr' := by
    cases hr : s.nodes.find? uid with
    | none => exact (h.new hr' hr).1.assigned
    | some r => exact (hs.nodeUid hr).mono h.lastUid
  accountUid ha' := by
    obtain ⟨a, owned, ha, -⟩ := h.of_account ha'
    exact (hs.accountUid ha).mono h.lastUid
  disjoint {uid r'} hr' := by
    cases hr : s.nodes.find? uid with
    | none => exact h.noAccount (hs.find?_of_fresh (h.new hr' hr).1).2
    | some r => exact h.noAccount (hs.disjoint hr)
  owner {uid r'} hr' := by
    cases hr : s.nodes.find? uid with
    | none =>
      rw [(h.new hr' hr).2.1]
      exact h.extends.account ho
    | some r =>
      rw [(Altered.of_find? h.node hr hr').owner]
      exact h.extends.account (hs.owner hr)
  role ha' := by
    obtain ⟨a, owned, ha, rfl⟩ := h.of_account ha'
    have hr := hs.role ha
    exact hr

end Grows

section Create

variable {s : Store} {now : Timestamp} {group owner : String} {parent : Option String}
  {batch : List Node}

theorem checkCreate_eq_ok_iff : s.checkCreate owner parent batch = .ok () ↔
    batch ≠ [] ∧ s.hasAccount owner = true ∧ ∀ p, parent = some p → s.hasNode p = true := by
  unfold checkCreate
  by_cases hb : batch = []
  · simp [hb]
  · by_cases ho : s.hasAccount owner = true
    · cases parent with
      | none => simp [hb, ho, requireNodes]
      | some p => simp [hb, ho, requireNodes]
    · simp [hb, ho]

/-- **A batch is refused or taken in.** -/
theorem create_cases (s : Store) (now : Timestamp) (group owner : String) (parent : Option String)
    (batch : List Node) :
    (∃ e last, s.lastUid ≤ last ∧
      s.create now group owner parent batch = (.error e, { s with lastUid := last })) ∨
    ∃ assigned last, s.checkCreate owner parent batch = .ok () ∧
      assign batch ∅ s.lastUid = (.ok assigned, last) ∧ checkBatch assigned batch = .ok () ∧
      s.create now group owner parent batch =
        (.ok (createdNodes owner group now assigned batch),
          ({ s with lastUid := last }.addRecords owner group now assigned batch).attach now owner
            parent ((roots batch).filterMap assigned.find?)) := by
  unfold create
  split
  · exact .inl ⟨_, s.lastUid, Nat.le_refl _, rfl⟩
  · rename_i hc
    have hle := le_assign batch ∅ s.lastUid
    split
    · rename_i e last he
      rw [he] at hle
      exact .inl ⟨_, last, hle, rfl⟩
    · rename_i assigned last ha
      rw [ha] at hle
      simp only
      split
      · exact .inl ⟨_, last, hle, rfl⟩
      · rename_i hb
        split
        · exact .inl ⟨_, last, hle, rfl⟩
        · exact .inr ⟨assigned, last, hc, ha, hb, rfl⟩

theorem alters_foldl_link (now : Timestamp) (parent : String) (uids : List String) (s : Store) :
    Alters (fun _ => False) (fun x y => x = parent ∧ y ∈ uids) s
      (uids.foldl (fun s uid => s.link now parent uid) s) := by
  refine alters_foldl (fun uid hu t => ?_) s
  refine (alters_link now parent uid t).mono (fun _ h => h) ?_
  rintro x y ⟨rfl, rfl⟩
  exact ⟨rfl, hu⟩

theorem grows_addRecords (hs : Sound s) {assigned : Index String} {last : Nat}
    {E : String → String → Prop} (hle : s.lastUid ≤ last) (hd : Distinct s.lastUid last assigned)
    (hnd : (batch.map Node.uid).Nodup) :
    Grows owner group E s ({ s with lastUid := last }.addRecords owner group now assigned batch) := by
  obtain ⟨hl, ha, hu⟩ :=
    addRecords_frame owner group now assigned batch { s with lastUid := last }
  have hold : ∀ {uid}, (∀ n ∈ batch, assigned.find? n.uid ≠ some uid) →
      ({ s with lastUid := last }.addRecords owner group now assigned batch).nodes.find? uid =
        s.nodes.find? uid := fun h => find?_addRecords_of_ne h
  refine ⟨by rw [hl]; exact hle, hu, fun {uid a} h => ⟨a.owned, by rw [ha]; exact h⟩,
    fun h => by rw [ha]; exact h, fun {uid r} hr => ⟨r, ?_, .refl _ _⟩, fun {uid r'} hr' hr => ?_⟩
  · rw [hold]
    · exact hr
    · intro n _ hn
      have := (hs.find?_of_fresh (hd.fresh hn)).1
      rw [hr] at this
      cases this
  · rcases of_find?_addRecords hd hnd hr' with ⟨n, -, hu, rfl⟩ | h
    · rw [hl]
      exact ⟨hd.fresh hu, rfl, rfl⟩
    · rw [hr] at h
      cases h

theorem Grows.alters {E : String → String → Prop} {t u : Store} (h : Grows owner group E s t)
    (h' : Alters (fun _ => False) E t u) : Grows owner group E s u where
  lastUid := by
    rw [h'.lastUid]
    exact h.lastUid
  usernames := h'.usernames.trans h.usernames
  account ha := by
    rw [h'.accounts]
    exact h.account ha
  noAccount ha := by
    rw [h'.accounts]
    exact h.noAccount ha
  node hr := by
    obtain ⟨r', hr', ha⟩ := h.node hr
    obtain ⟨r'', hr'', ha'⟩ := h'.node hr'
    exact ⟨r'', hr'', ha.trans ha'⟩
  new hr'' hr := by
    obtain ⟨r', hr', ha⟩ := h'.of_find? hr''
    rw [h'.lastUid, ha.owner, ha.group]
    exact h.new hr' hr

theorem Grows.own {E : String → String → Prop} {t : Store} (h : Grows owner group E s t)
    (uids : List String) :
    Grows owner group E s
      { t with
        accounts := t.accounts.modify owner fun a => { a with owned := a.owned ++ uids } } where
  lastUid := h.lastUid
  usernames := h.usernames
  account {uid a} ha := by
    obtain ⟨owned, ha'⟩ := h.account ha
    simp only [Index.find?_modify]
    by_cases e : uid = owner
    · subst e
      exact ⟨owned ++ uids, by simp [ha']⟩
    · exact ⟨owned, by simp [e, ha']⟩
  noAccount {uid} ha := by
    simp only [Index.find?_modify]
    by_cases e : uid = owner
    · subst e
      simp [h.noAccount ha]
    · simp [e, h.noAccount ha]
  node := h.node
  new := h.new

/-- **A creation adds new nodes of the owner**, and links to them from the parent. -/
theorem grows_create (hs : Sound s) :
    Grows owner group
      (fun x y => parent = some x ∧
        Fresh s.lastUid (s.create now group owner parent batch).2.lastUid y) s
      (s.create now group owner parent batch).2 := by
  rcases create_cases s now group owner parent batch with ⟨e, last, hle, h⟩ |
    ⟨assigned, last, -, ha, -, h⟩
  · rw [h]
    exact ⟨hle, rfl, fun ha => ⟨_, ha⟩, fun ha => ha, fun hr => ⟨_, hr, .refl _ _⟩,
      fun hr hn => by rw [hr] at hn; cases hn⟩
  · obtain ⟨hd, hnd, -⟩ := assign_spec (Nat.le_refl _) (distinct_empty _) ha
    have hle := le_assign batch ∅ s.lastUid
    rw [ha] at hle
    have hl := (addRecords_frame owner group now assigned batch { s with lastUid := last }).1
    rw [h]
    cases parent with
    | none => exact (grows_addRecords hs hle hd hnd).own _
    | some p =>
      have hlink := alters_foldl_link now p ((roots batch).filterMap assigned.find?)
        ({ s with lastUid := last }.addRecords owner group now assigned batch)
      refine (grows_addRecords hs hle hd hnd).alters (hlink.mono (fun _ h => h) ?_)
      rintro x y ⟨rfl, hy⟩
      obtain ⟨q, -, hq⟩ := List.mem_filterMap.1 hy
      refine ⟨rfl, ?_⟩
      have hl' : (attach now owner (some x) ((roots batch).filterMap assigned.find?)
          ({ s with lastUid := last }.addRecords owner group now assigned batch)).lastUid = last :=
        hlink.lastUid.trans hl
      rw [hl']
      exact hd.fresh hq

theorem sound_create (hs : Sound s) : Sound (s.create now group owner parent batch).2 := by
  rcases create_cases s now group owner parent batch with ⟨e, last, hle, h⟩ |
    ⟨assigned, last, hc, -⟩
  · rw [h]
    exact ⟨fun hr => (hs.nodeUid hr).mono hle, fun ha => (hs.accountUid ha).mono hle, hs.disjoint,
      hs.owner, hs.role⟩
  · exact (grows_create hs).sound hs (checkCreate_eq_ok_iff.1 hc).2.1

/-- **New nodes are shown as they are stored.** -/
theorem mirrors_create {created : List (String × Node)} {t : Store}
    (h : s.create now group owner parent batch = (.ok created, t)) {x : String × Node}
    (hx : x ∈ created) : t.MirrorsAll x.2 := by
  rcases create_cases s now group owner parent batch with ⟨e, last, -, hc⟩ |
    ⟨assigned, last, -, ha, -, hc⟩
  · rw [hc] at h
    cases h
  · obtain ⟨hd, hnd, -⟩ := assign_spec (Nat.le_refl _) (distinct_empty _) ha
    rw [hc] at h
    cases h
    obtain ⟨n, hn, hx⟩ := List.mem_filterMap.1 hx
    obtain ⟨uid, hu, rfl⟩ := Option.map_eq_some_iff.1 hx
    have hm : MirrorsAll ({ s with lastUid := last }.addRecords owner group now assigned batch)
        ((newRecord owner group now assigned n).toNode uid) :=
      ⟨⟨_, find?_addRecords hd hnd hn hu _, rfl, rfl⟩, by simp [Record.toNode]⟩
    cases parent with
    | none => exact hm
    | some p => exact hm.extends (alters_foldl_link now p _ _).extends

end Create

end SealedGraph.Store
