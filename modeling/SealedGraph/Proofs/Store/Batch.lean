import SealedGraph.Proofs.Store.Edges
import SealedGraph.Proofs.Store.Roots

/-!
# A batch is embedded as it is

The nodes of a batch name each other by placeholders, before and behind their own place in it. What
comes of them are records that name each other by uids in the same way, and nothing but the place
where they are hung up is written besides.

* `Creatable`: what a batch has to be like, said without the checks.
* `Embedded`: what is stored and given back for one that is taken in.
* `create_exact`: a batch is taken in if it is creatable, and embedded then.
-/

namespace SealedGraph.Store

/-- What a batch and those whom it is created for have to be like. -/
structure Creatable (s : Store) (owner : String) (parent : Option String) (batch : List Node) :
    Prop where
  nonempty : batch ≠ []
  owner : s.hasAccount owner = true
  parent : ∀ p, parent = some p → s.hasNode p = true
  placeholder : ∀ n ∈ batch, isPlaceholder n.uid = true
  once : (batch.map Node.uid).Nodup
  edge : ∀ n ∈ batch, ∀ k ∈ n.children, k.uid ≠ n.uid ∧ k.uid ∈ batch.map Node.uid
  root : ∃ n ∈ batch, ∀ m ∈ batch, ∀ k ∈ m.children, k.uid ≠ n.uid

/-- The record of a new node, if the nodes of its batch are stored under some uids. -/
def embed (now : Timestamp) (group owner : String) (uid : String → String) (n : Node) : Record :=
  ⟨owner, n.permissions, group, n.children.map fun k => uid k.uid, n.content, now, now⟩

/-- The nodes of a batch have uids that were assigned just now, each its own. -/
structure Numbered (batch : List Node) (uid : String → String) (s t : Store) : Prop where
  fresh : ∀ p ∈ batch.map Node.uid, Fresh s.lastUid t.lastUid (uid p) ∧
    s.hasNode (uid p) = false ∧ s.hasAccount (uid p) = false
  injective : ∀ p ∈ batch.map Node.uid, ∀ q ∈ batch.map Node.uid, uid p = uid q → p = q

/-- What comes of a batch, the nodes of which are stored under some uids. -/
structure Embedded (now : Timestamp) (group owner : String) (parent : Option String)
    (batch : List Node) (uid : String → String) (s : Store) (created : List (String × Node))
    (t : Store) : Prop extends Numbered batch uid s t where
  /-- what is given back are the placeholders of the batch and the new nodes -/
  created : created =
    batch.map fun n => (n.uid, (embed now group owner uid n).toNode (uid n.uid))
  record : ∀ n ∈ batch, t.nodes.find? (uid n.uid) = some (embed now group owner uid n)
  hung : ∀ p r, parent = some p → s.nodes.find? p = some r → t.nodes.find? p =
    some { r with children := r.children ++ (roots batch).map uid, modified := now }
  owned : parent = none → ∀ a, s.accounts.find? owner = some a → t.accounts.find? owner =
    some { a with owned := a.owned ++ (roots batch).map uid }
  otherNode : ∀ k, parent ≠ some k → (∀ p ∈ batch.map Node.uid, k ≠ uid p) →
    t.nodes.find? k = s.nodes.find? k
  otherAccount : ∀ k, (parent = none → k ≠ owner) → t.accounts.find? k = s.accounts.find? k
  usernames : t.usernames = s.usernames
  lastUid : t.lastUid = s.lastUid + batch.length

variable {s : Store} {now : Timestamp} {group owner : String} {parent : Option String}
  {batch : List Node} {assigned : Index String} {last : Nat}

/-! ### When a batch is taken in -/

/-- **Uids are assigned** unless a placeholder is none, or there is one twice. -/
theorem assign_eq_ok_iff : (∃ assigned', (assign batch assigned last).1 = .ok assigned') ↔
    (∀ n ∈ batch, isPlaceholder n.uid = true ∧ assigned.find? n.uid = none) ∧
      (batch.map Node.uid).Nodup := by
  fun_induction assign batch assigned last with
  | case1 => simp
  | case2 n ns assigned last bad =>
    simp only [reduceCtorEq, exists_false, List.forall_mem_cons, false_iff]
    rintro ⟨⟨⟨good, new⟩, -⟩, -⟩
    simp [good, Index.contains_eq_false_iff.2 new] at bad
  | case3 n ns assigned last good ih =>
    rw [Bool.or_eq_true, not_or, Bool.not_eq_true', Bool.not_eq_false, Bool.not_eq_true,
      Index.contains_eq_false_iff] at good
    rw [ih]
    simp only [Index.find?_insert, List.forall_mem_cons, List.map_cons, List.nodup_cons,
      List.mem_map, not_exists, not_and]
    constructor
    · rintro ⟨rest, once⟩
      refine ⟨⟨good, fun m hm => ⟨(rest m hm).1, ?_⟩⟩, fun m hm e => ?_, once⟩
      · have := (rest m hm).2
        split at this
        · cases this
        · exact this
      · have := (rest m hm).2
        rw [if_pos e] at this
        cases this
    · rintro ⟨⟨-, rest⟩, other, once⟩
      refine ⟨fun m hm => ⟨(rest m hm).1, ?_⟩, once⟩
      rw [if_neg (other m hm)]
      exact (rest m hm).2

/-- **A batch is taken in** if no check refuses it. -/
theorem create_eq_ok_iff :
    (∃ created, (s.create now group owner parent batch).1 = .ok created) ↔
      s.checkCreate owner parent batch = .ok () ∧
      (∃ assigned, (assign batch ∅ s.lastUid).1 = .ok assigned ∧
        checkBatch assigned batch = .ok ()) ∧
      roots batch ≠ [] := by
  unfold create
  cases hc : s.checkCreate owner parent batch with
  | error e => simp
  | ok _ =>
    rcases ha : assign batch ∅ s.lastUid with ⟨e | assigned, last⟩
    · simp
    · cases hb : checkBatch assigned batch with
      | error e => simp [hb]
      | ok _ => by_cases hr : roots batch = [] <;> simp [hb, hr]

theorem roots_ne_nil_iff :
    roots batch ≠ [] ↔ ∃ n ∈ batch, ∀ m ∈ batch, ∀ k ∈ m.children, k.uid ≠ n.uid := by
  constructor
  · intro some_root
    obtain ⟨p, hp⟩ := List.exists_mem_of_ne_nil _ some_root
    obtain ⟨hm, unlinked⟩ := mem_roots.1 hp
    obtain ⟨n, hn, rfl⟩ := List.mem_map.1 hm
    exact ⟨n, hn, fun m hm k hk e => unlinked m.uid ⟨m, hm, rfl, k, hk, e⟩⟩
  · rintro ⟨n, hn, unlinked⟩
    refine List.ne_nil_of_mem (mem_roots.2 ⟨List.mem_map_of_mem hn, ?_⟩)
    rintro _ ⟨m, hm, -, k, hk, e⟩
    exact unlinked m hm k hk e

/-- What has a uid is what the batch has. -/
theorem contains_of_assign (h : assign batch ∅ s.lastUid = (.ok assigned, last)) {p : String} :
    assigned.contains p = true ↔ p ∈ batch.map Node.uid := by
  rw [Index.contains_iff]
  constructor
  · rintro ⟨uid, hp⟩
    rcases mem_of_assign h hp with hp | hp
    · cases hp
    · exact hp
  · exact (find?_of_assign h).2 p

/-- **A batch is taken in exactly if it is creatable.** -/
theorem create_eq_ok_iff_creatable :
    (∃ created, (s.create now group owner parent batch).1 = .ok created) ↔
      Creatable s owner parent batch := by
  rw [create_eq_ok_iff, checkCreate_eq_ok_iff, roots_ne_nil_iff]
  constructor
  · rintro ⟨⟨nonempty, owner, parent⟩, ⟨assigned, ha, hb⟩, root⟩
    obtain ⟨good, once⟩ := assign_eq_ok_iff.1 ⟨assigned, ha⟩
    refine ⟨nonempty, owner, parent, fun n hn => (good n hn).1, once, fun n hn k hk => ?_, root⟩
    rw [← contains_of_assign (Prod.ext ha rfl)]
    exact checkBatch_eq_ok_iff.1 hb n hn k hk
  · intro h
    obtain ⟨assigned, ha⟩ : ∃ assigned, (assign batch ∅ s.lastUid).1 = .ok assigned :=
      assign_eq_ok_iff.2 ⟨fun n hn => ⟨h.placeholder n hn, rfl⟩, h.once⟩
    refine ⟨⟨h.nonempty, h.owner, h.parent⟩, ⟨assigned, ha, ?_⟩, h.root⟩
    refine checkBatch_eq_ok_iff.2 fun n hn k hk => ?_
    rw [contains_of_assign (Prod.ext ha rfl)]
    exact h.edge n hn k hk

theorem creatable_of_create {created : List (String × Node)} {t : Store}
    (h : s.create now group owner parent batch = (.ok created, t)) :
    Creatable s owner parent batch :=
  create_eq_ok_iff_creatable.1 ⟨created, congrArg Prod.fst h⟩

/-! ### What comes of a batch -/

theorem last_of_assign {assigned' : Index String} {last' : Nat}
    (h : assign batch assigned last = (.ok assigned', last')) : last' = last + batch.length := by
  fun_induction assign batch assigned last with
  | case1 =>
    cases h
    rfl
  | case2 => cases h
  | case3 n ns assigned last _ ih =>
    rw [ih h, List.length_cons]
    omega

/-- The uid for a placeholder that has one. -/
def uidIn (assigned : Index String) (placeholder : String) : String :=
  (assigned.find? placeholder).getD ""

theorem find?_eq_uidIn (h : assign batch ∅ s.lastUid = (.ok assigned, last)) {p : String}
    (hp : p ∈ batch.map Node.uid) : assigned.find? p = some (uidIn assigned p) := by
  obtain ⟨uid, hu⟩ := (find?_of_assign h).2 p hp
  rw [uidIn, hu]
  rfl

/-- What is looked up placeholder by placeholder is found. -/
theorem filterMap_eq_map_uidIn {α : Type} {f : α → String} {xs : List α}
    (h : assign batch ∅ s.lastUid = (.ok assigned, last))
    (hx : ∀ x ∈ xs, f x ∈ batch.map Node.uid) :
    xs.filterMap (fun x => assigned.find? (f x)) = xs.map fun x => uidIn assigned (f x) := by
  rw [← List.filterMap_eq_map]
  exact List.filterMap_congr fun x hm => find?_eq_uidIn h (hx x hm)

theorem newRecord_eq_embed (h : assign batch ∅ s.lastUid = (.ok assigned, last)) {n : Node}
    (hn : ∀ k ∈ n.children, k.uid ∈ batch.map Node.uid) :
    newRecord owner group now assigned n = embed now group owner (uidIn assigned) n := by
  unfold newRecord embed
  rw [filterMap_eq_map_uidIn (f := Node.uid) h hn]

theorem createdNodes_eq (h : assign batch ∅ s.lastUid = (.ok assigned, last))
    (hedge : ∀ n ∈ batch, ∀ k ∈ n.children, k.uid ∈ batch.map Node.uid) :
    createdNodes owner group now assigned batch = batch.map fun n =>
      (n.uid, (embed now group owner (uidIn assigned) n).toNode (uidIn assigned n.uid)) := by
  unfold createdNodes
  rw [← List.filterMap_eq_map]
  refine List.filterMap_congr fun n hn => ?_
  rw [find?_eq_uidIn h (List.mem_map_of_mem hn), newRecord_eq_embed h (hedge n hn)]
  rfl

theorem distinct_eq_self {seen xs : List String} (once : xs.Nodup) (new : ∀ x ∈ xs, x ∉ seen) :
    distinct seen xs = xs := by
  induction xs generalizing seen with
  | nil => rfl
  | cons x xs ih =>
    obtain ⟨hx, once⟩ := List.nodup_cons.1 once
    obtain ⟨hnew, new⟩ := List.forall_mem_cons.1 new
    unfold distinct
    rw [if_neg (by simpa using hnew), ih once]
    intro y hy
    rw [List.mem_cons, not_or]
    exact ⟨fun e => hx (e ▸ hy), new y hy⟩

theorem targets_map_pair (source source' : String) (uids : List String) :
    targets (uids.map fun uid => (source, uid)) source' =
      if source' = source then uids else [] := by
  unfold targets
  rw [List.filter_map]
  by_cases e : source' = source
  · simp [e, Function.comp_def]
  · simp [e, Ne.symm e, Function.comp_def]

theorem find?_attach_parent (p : String) (uids : List String) (s : Store) (k : String) :
    (attach now owner (some p) uids s).nodes.find? k =
      if k = p then (s.nodes.find? k).map (Record.linkedTo now uids) else s.nodes.find? k := by
  rw [attach_parent, find?_foldl_link, targets_map_pair]
  split
  · rfl
  · rw [Record.linkedTo_nil, Option.map_id, id]

/-- New children that a node does not have yet are put behind those that it has. -/
theorem linkedTo_of_new {r : Record} {uids : List String} (some_uid : uids ≠ [])
    (once : uids.Nodup) (new : ∀ u ∈ uids, u ∉ r.children) :
    r.linkedTo now uids = { r with children := r.children ++ uids, modified := now } := by
  simp only [Record.linkedTo, distinct_eq_self once new, if_neg some_uid]

/-- The records of a batch are in the store, and nothing hangs them up yet. -/
structure Recorded (now : Timestamp) (group owner : String) (batch : List Node)
    (uid : String → String) (s t : Store) : Prop extends Numbered batch uid s t where
  record : ∀ n ∈ batch, t.nodes.find? (uid n.uid) = some (embed now group owner uid n)
  other : ∀ k, (∀ p ∈ batch.map Node.uid, k ≠ uid p) → t.nodes.find? k = s.nodes.find? k
  accounts : t.accounts = s.accounts
  usernames : t.usernames = s.usernames
  lastUid : t.lastUid = s.lastUid + batch.length

theorem recorded_addRecords (hs : Sound s) (ha : assign batch ∅ s.lastUid = (.ok assigned, last))
    (hb : checkBatch assigned batch = .ok ()) :
    Recorded now group owner batch (uidIn assigned) s
      ({ s with lastUid := last }.addRecords owner group now assigned batch) := by
  have fits := batchFits_of_create ha hb
  have hedge : ∀ n ∈ batch, ∀ k ∈ n.children, k.uid ∈ batch.map Node.uid := fun n hn k hk =>
    (contains_of_assign ha).1 (checkBatch_eq_ok_iff.1 hb n hn k hk).2
  obtain ⟨hlast, haccounts, husernames⟩ :=
    addRecords_frame owner group now assigned batch { s with lastUid := last }
  refine ⟨⟨fun p hp => ?_, fun p hp q hq e => ?_⟩, fun n hn => ?_, fun k hk => ?_, haccounts,
    husernames, hlast.trans (last_of_assign ha)⟩
  · have hfresh := fits.fresh (find?_eq_uidIn ha hp)
    obtain ⟨hnode, haccount⟩ := hs.find?_of_fresh hfresh
    rw [hlast]
    exact ⟨hfresh, Index.contains_eq_false_iff.2 hnode, Index.contains_eq_false_iff.2 haccount⟩
  · exact fits.injective (find?_eq_uidIn ha hp) (e ▸ find?_eq_uidIn ha hq)
  · rw [← newRecord_eq_embed ha (hedge n hn)]
    exact find?_addRecords fits.toDistinct fits.once hn
      (find?_eq_uidIn ha (List.mem_map_of_mem hn)) _
  · refine find?_addRecords_of_ne fun n hn e => ?_
    have hp := List.mem_map_of_mem (f := Node.uid) hn
    rw [find?_eq_uidIn ha hp] at e
    exact hk n.uid hp (Option.some.inj e).symm

section Numbered

variable {uid : String → String} {t : Store} (h : Numbered batch uid s t)

include h

/-- What was there before has another uid than the new nodes. -/
theorem Numbered.ne_uid {k : String} (hk : s.hasNode k = true) :
    ∀ p ∈ batch.map Node.uid, k ≠ uid p := by
  rintro p hp rfl
  rw [(h.fresh p hp).2.1] at hk
  cases hk

theorem Numbered.nodup_roots (once : (batch.map Node.uid).Nodup) :
    ((roots batch).map uid).Nodup := by
  refine (once.filter _).map_on fun p hp q hq e => ?_
  exact h.injective p (List.mem_filter.1 hp).1 q (List.mem_filter.1 hq).1 e

end Numbered

section Recorded

variable {uid : String → String} {t : Store} (h : Recorded now group owner batch uid s t)

include h

/-- The roots of the batch go under its parent. -/
theorem Recorded.hang (hi : Intact s) (fits : Creatable s owner (some p) batch) :
    Embedded now group owner (some p) batch uid s
      (batch.map fun n => (n.uid, (embed now group owner uid n).toNode (uid n.uid)))
      (t.attach now owner (some p) ((roots batch).map uid)) := by
  have frame : SameElsewhere t (t.attach now owner (some p) ((roots batch).map uid)) :=
    (alters_foldl_link now p ((roots batch).map uid) t).sameElsewhere
  have hp : s.hasNode p = true := fits.parent p rfl
  constructor
  case toNumbered =>
    refine ⟨fun q hq => ?_, h.injective⟩
    rw [frame.lastUid]
    exact h.fresh q hq
  case created => rfl
  case record =>
    intro n hn
    have hne := h.ne_uid hp n.uid (List.mem_map_of_mem hn)
    rw [find?_attach_parent, if_neg (Ne.symm hne)]
    exact h.record n hn
  case hung =>
    rintro _ r ⟨⟩ hr
    rw [find?_attach_parent, if_pos rfl, h.other p (h.ne_uid hp), hr, Option.map_some,
      linkedTo_of_new (by simpa using roots_ne_nil_iff.2 fits.root) (h.nodup_roots fits.once)]
    intro u hu hc
    obtain ⟨q, hq, rfl⟩ := List.mem_map.1 hu
    exact h.ne_uid ((hi.record hr).child _ hc).1 q (mem_roots.1 hq).1 rfl
  case owned =>
    intro e
    cases e
  case otherNode =>
    intro k hk hnew
    rw [find?_attach_parent, if_neg fun e => hk (by rw [e])]
    exact h.other k hnew
  case otherAccount =>
    intro k _
    rw [frame.accounts, h.accounts]
  case usernames => exact frame.usernames.trans h.usernames
  case lastUid => exact frame.lastUid.trans h.lastUid

/-- The roots of the batch go on the list of what the owner owns. -/
theorem Recorded.own :
    Embedded now group owner none batch uid s
      (batch.map fun n => (n.uid, (embed now group owner uid n).toNode (uid n.uid)))
      (t.attach now owner none ((roots batch).map uid)) where
  toNumbered := ⟨h.fresh, h.injective⟩
  created := rfl
  record := h.record
  hung p r e := by cases e
  owned _ a ha := by
    unfold attach
    rw [Index.find?_modify, if_pos rfl, h.accounts, ha]
    rfl
  otherNode k _ := h.other k
  otherAccount k hk := by
    unfold attach
    rw [Index.find?_modify, if_neg (hk rfl), h.accounts]
  usernames := h.usernames
  lastUid := h.lastUid

end Recorded

/-- **A batch that is taken in is embedded.** -/
theorem embedded_create (hs : Sound s) (hi : Intact s) {created : List (String × Node)} {t : Store}
    (h : s.create now group owner parent batch = (.ok created, t)) :
    ∃ uid, Embedded now group owner parent batch uid s created t := by
  have fits := creatable_of_create h
  rcases create_cases s now group owner parent batch with ⟨e, last, -, hc⟩ |
    ⟨assigned, last, -, ha, hb, hc⟩
  · rw [hc] at h
    cases h
  · have recorded : Recorded now group owner batch (uidIn assigned) s
        ({ s with lastUid := last }.addRecords owner group now assigned batch) :=
      recorded_addRecords hs ha hb
    have huids : (roots batch).filterMap assigned.find? = (roots batch).map (uidIn assigned) :=
      filterMap_eq_map_uidIn (f := id) ha fun p hp => (mem_roots.1 hp).1
    rw [hc, huids, createdNodes_eq ha fun n hn k hk => (fits.edge n hn k hk).2] at h
    cases h
    refine ⟨uidIn assigned, ?_⟩
    cases parent with
    | none => exact recorded.own
    | some p => exact recorded.hang hi fits

/-- **Batches are embedded faithfully.** A batch is taken in exactly if there is something in it,
someone and something to create it for, every node of it has a placeholder of its own, every link
leads to another node of it, and some node is not linked to. What is stored then are the nodes of
the batch, under new uids that stand for their placeholders in all links; those that are not linked
to are put behind the children of the parent or behind what the owner owns; and nothing else is
different but the time at which the parent was modified and the number of the last uid. -/
theorem create_exact (hs : Sound s) (hi : Intact s) (now : Timestamp) (group owner : String)
    (parent : Option String) (batch : List Node) :
    ((∃ created, (s.create now group owner parent batch).1 = .ok created) ↔
      Creatable s owner parent batch) ∧
    ∀ created t, s.create now group owner parent batch = (.ok created, t) →
      ∃ uid, Embedded now group owner parent batch uid s created t :=
  ⟨create_eq_ok_iff_creatable, fun _ _ h => embedded_create hs hi h⟩

namespace Trellis

/-- Ann owns one node. -/
def history : List Action :=
  [.createAccount ⟨"ann", "", "user", none⟩, .create default 0 [] "0x1" none [draft "$r" []]]

/-- Two roots, and links to nodes before and behind. -/
def drafts : List Node :=
  [draft "$a" ["$c", "$b"], draft "$b" [], draft "$c" ["$b"], draft "$d" []]

end Trellis

open Trellis in
theorem create_exact_trellis :
    Creatable (after history) "0x1" (some "0x2") drafts ∧
    ∃ uid created t, (after history).create default "g" "0x1" (some "0x2") drafts =
        (.ok created, t) ∧
      Embedded default "g" "0x1" (some "0x2") drafts uid (after history) created t := by
  obtain ⟨accepted, embedded⟩ := create_exact (sound_after history) (intact_after history) default
    "g" "0x1" (some "0x2") drafts
  have isOk : ((after history).create default "g" "0x1" (some "0x2") drafts).1.toOption.isSome =
      true := by decide +kernel
  rcases hc : (after history).create default "g" "0x1" (some "0x2") drafts with ⟨e | created, t⟩
  · rw [hc] at isOk
    cases isOk
  · obtain ⟨uid, h⟩ := embedded created t hc
    exact ⟨accepted.1 ⟨created, by rw [hc]⟩, uid, created, t, rfl, h⟩

end SealedGraph.Store
