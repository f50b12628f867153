import Mathlib.Data.Set.Finite.List
import Mathlib.Order.WellFounded
import SealedGraph.Proofs.Store.Integrity
import SealedGraph.Proofs.Store.Reach

/-!
# Where new nodes hang

A batch that is taken in is hung under its parent, or put on the list of what its owner owns, by
those of its nodes that no other one links to. All that these lead to can be reached from there; a
cycle that they do not lead to is taken in with the rest, and cannot.

* `Hangs`: what the roots of a batch lead to, by the links that the batch brings.
* `TakenIn`: what a batch adds to a store, as links.
* `TakenIn.attached_iff`: what can be reached is what hangs.
* `hangs_of_acyclic`: whatever no cycle leads to hangs.
* `create_attaches`: both for every batch, and that there is no way in for one without roots.
-/

namespace SealedGraph.Store

/-! ### Batches -/

/-- A node of a batch links to a placeholder. -/
def BatchLinks (batch : List Node) (p q : String) : Prop :=
  ∃ n ∈ batch, n.uid = p ∧ ∃ k ∈ n.children, k.uid = q

/-- The roots of a batch lead to a placeholder. -/
inductive Hangs (batch : List Node) : String → Prop
  | root {p : String} : p ∈ roots batch → Hangs batch p
  | link {p q : String} : Hangs batch p → BatchLinks batch p q → Hangs batch q

variable {batch : List Node}

theorem mem_roots {p : String} :
    p ∈ roots batch ↔ p ∈ batch.map Node.uid ∧ ∀ q, ¬ BatchLinks batch q p := by
  unfold roots linked
  rw [List.mem_filter, Bool.not_eq_true', ← Bool.not_eq_true, List.contains_iff_mem,
    List.mem_flatMap]
  refine and_congr_right fun _ => ⟨?_, ?_⟩
  · rintro h q ⟨n, hn, -, k, hk, rfl⟩
    exact h ⟨n, hn, List.mem_map_of_mem hk⟩
  · rintro h ⟨n, hn, hp⟩
    obtain ⟨k, hk, rfl⟩ := List.mem_map.1 hp
    exact h n.uid ⟨n, hn, rfl, k, hk, rfl⟩

/-- One node of a batch comes before another on a way to a third. -/
def Precedes (batch : List Node) (p : String) (a b : { q // q ∈ batch.map Node.uid }) : Prop :=
  Relation.TransGen (BatchLinks batch) a.1 b.1 ∧ Relation.ReflTransGen (BatchLinks batch) b.1 p

theorem wellFounded_precedes {p : String}
    (acyclic : ∀ q, Relation.TransGen (BatchLinks batch) q q →
      ¬ Relation.ReflTransGen (BatchLinks batch) q p) : WellFounded (Precedes batch p) := by
  have : Finite { q // q ∈ batch.map Node.uid } := (List.finite_toSet _).to_subtype
  have : IsTrans _ (Precedes batch p) := ⟨fun _ _ _ h h' => ⟨h.1.trans h'.1, h'.2⟩⟩
  have : Std.Irrefl (Precedes batch p) := ⟨fun a h => acyclic a.1 h.1 h.2⟩
  exact Finite.wellFounded_of_trans_of_irrefl _

/-- **What no cycle leads to hangs**: going back along the links from there has to end. -/
theorem hangs_of_acyclic {p : String} (hp : p ∈ batch.map Node.uid)
    (acyclic : ∀ q, Relation.TransGen (BatchLinks batch) q q →
      ¬ Relation.ReflTransGen (BatchLinks batch) q p) : Hangs batch p := by
  suffices all : ∀ q : { q // q ∈ batch.map Node.uid },
      Relation.ReflTransGen (BatchLinks batch) q.1 p → Hangs batch q.1 from all ⟨p, hp⟩ .refl
  intro q
  induction q using (wellFounded_precedes acyclic).induction with
  | _ q ih =>
    intro hq
    by_cases root : q.1 ∈ roots batch
    · exact .root root
    · have linked : ∃ a, BatchLinks batch a q.1 := by
        by_contra none
        exact root (mem_roots.2 ⟨q.2, not_exists.1 none⟩)
      obtain ⟨a, link⟩ := linked
      have ha : a ∈ batch.map Node.uid := by
        obtain ⟨n, hn, rfl, -⟩ := link
        exact List.mem_map_of_mem hn
      exact .link (ih ⟨a, ha⟩ ⟨.single link, hq⟩ (.head link hq)) link

/-! ### What a batch adds -/

/-- Where the nodes of an owner are looked for: under a parent, or among all that are owned. -/
def anchors (t : Store) (owner : String) : Option String → List String
  | some parent => [parent]
  | none => ((t.accounts.find? owner).map Account.owned).getD []

/-- A node can be reached from the parent, or from what the owner owns if there is no parent. -/
def Attached (t : Store) (owner : String) (parent : Option String) (uid : String) : Prop :=
  ∃ n, t.Reached (t.anchors owner parent) n uid

/-- What comes of a batch that is taken in: its nodes have uids that are new, they are linked as
their placeholders are, and its roots are hung up. -/
structure TakenIn (s : Store) (owner : String) (parent : Option String) (batch : List Node)
    (assigned : Index String) (t : Store) : Prop where
  /-- new uids are nobody's -/
  new : ∀ {p uid}, assigned.find? p = some uid → s.nodes.find? uid = none
  injective : ∀ {p q uid}, assigned.find? p = some uid → assigned.find? q = some uid → p = q
  node : ∀ {p}, p ∈ batch.map Node.uid →
    ∃ uid, assigned.find? p = some uid ∧ t.hasNode uid = true
  links : ∀ {a b}, t.Links a b ↔ s.Links a b ∨
    (∃ p q, BatchLinks batch p q ∧ assigned.find? p = some a ∧ assigned.find? q = some b) ∨
    parent = some a ∧ ∃ p ∈ roots batch, assigned.find? p = some b
  under : ∀ p, parent = some p → s.hasNode p = true ∧ t.hasNode p = true
  owned : parent = none → ∀ {uid}, uid ∈ t.anchors owner none ↔
    uid ∈ s.anchors owner none ∨ ∃ p ∈ roots batch, assigned.find? p = some uid

section TakenIn

variable {s t : Store} {owner : String} {parent : Option String} {assigned : Index String}

theorem BatchLinks.source {p q : String} (h : BatchLinks batch p q) :
    p ∈ batch.map Node.uid := by
  obtain ⟨n, hn, rfl, -⟩ := h
  exact List.mem_map_of_mem hn

theorem TakenIn.attached (h : TakenIn s owner parent batch assigned t) {p uid : String}
    (hangs : Hangs batch p) (hp : assigned.find? p = some uid) : t.Attached owner parent uid := by
  induction hangs generalizing uid with
  | @root p root =>
    cases parent with
    | none =>
      obtain ⟨uid', hp', there⟩ := h.node (mem_roots.1 root).1
      rw [hp] at hp'
      cases hp'
      exact ⟨0, .root ((h.owned rfl).2 (.inr ⟨p, root, hp⟩)) there⟩
    | some q =>
      have link : t.Links q uid := h.links.2 (.inr (.inr ⟨rfl, p, root, hp⟩))
      exact ⟨1, .link (.root (List.mem_singleton.2 rfl) (h.under q rfl).2) link⟩
  | @link p q _ link ih =>
    obtain ⟨a, ha, -⟩ := h.node link.source
    obtain ⟨n, reached⟩ := ih ha
    exact ⟨n + 1, .link reached (h.links.2 (.inr (.inl ⟨p, q, link, ha, hp⟩)))⟩

/-- What the owner owns is there. -/
theorem Intact.hasNode_of_anchors (h : Intact s) {uid : String}
    (hu : uid ∈ s.anchors owner none) : s.hasNode uid = true := by
  unfold anchors at hu
  cases ha : s.accounts.find? owner with
  | none =>
    rw [ha] at hu
    cases hu
  | some a =>
    rw [ha] at hu
    obtain ⟨r, hr, -⟩ := (h.account ha).owned uid hu
    exact Index.contains_iff.2 ⟨r, hr⟩

theorem TakenIn.hangs (h : TakenIn s owner parent batch assigned t) (hs : Intact s)
    {p uid : String} (hp : assigned.find? p = some uid) {n : Nat}
    (reached : t.Reached (t.anchors owner parent) n uid) : Hangs batch p := by
  -- What was there before is no new node, and links to none.
  have old : ∀ {p uid}, assigned.find? p = some uid → s.hasNode uid = true → False := by
    intro p uid hp hu
    obtain ⟨r, hr⟩ := Index.contains_iff.1 hu
    rw [h.new hp] at hr
    cases hr
  induction reached generalizing p with
  | @root uid anchor _ =>
    cases parent with
    | none =>
      rcases (h.owned rfl).1 anchor with hu | ⟨q, root, hq⟩
      · exact (old hp (hs.hasNode_of_anchors hu)).elim
      · rw [h.injective hp hq]
        exact .root root
    | some q =>
      obtain rfl := List.mem_singleton.1 anchor
      exact (old hp (h.under uid rfl).1).elim
  | @link n a b _ link ih =>
    rcases h.links.1 link with ⟨r, hr, hc⟩ | ⟨p', q, link, ha, hq⟩ | ⟨-, q, root, hq⟩
    · exact (old hp ((hs.record hr).child b hc).1).elim
    · rw [h.injective hp hq]
      exact .link (ih ha) link
    · rw [h.injective hp hq]
      exact .root root

/-- **What can be reached is what hangs**. -/
theorem TakenIn.attached_iff (h : TakenIn s owner parent batch assigned t) (hs : Intact s)
    {p uid : String} (hp : assigned.find? p = some uid) :
    t.Attached owner parent uid ↔ Hangs batch p :=
  ⟨fun ⟨_, reached⟩ => h.hangs hs hp reached, fun hangs => h.attached hangs hp⟩

end TakenIn

/-! ### What the creation of a batch does -/

/-- Every placeholder of a batch gets a uid, and keeps one that it has. -/
theorem find?_of_assign {assigned assigned' : Index String} {last last' : Nat}
    (h : assign batch assigned last = (.ok assigned', last')) :
    (∀ {p uid}, assigned.find? p = some uid → assigned'.find? p = some uid) ∧
      ∀ p ∈ batch.map Node.uid, ∃ uid, assigned'.find? p = some uid := by
  fun_induction assign batch assigned last with
  | case1 assigned last =>
    cases h
    exact ⟨id, by simp⟩
  | case2 => cases h
  | case3 n ns assigned last hn ih =>
    obtain ⟨kept, all⟩ := ih h
    rw [Bool.or_eq_true, not_or, Bool.not_eq_true, Bool.not_eq_true,
      Index.contains_eq_false_iff] at hn
    refine ⟨fun {p uid} hp => kept ?_, fun p hp => ?_⟩
    · rw [Index.find?_insert, if_neg]
      · exact hp
      · rintro rfl
        rw [hn.2] at hp
        cases hp
    · rcases List.mem_cons.1 hp with rfl | hp
      · exact ⟨_, kept (by rw [Index.find?_insert, if_pos rfl])⟩
      · exact all p hp

section Links

variable {s : Store} {now : Timestamp} {owner group : String} {assigned : Index String}
  {a b : String}

/-- The records of a batch bring its links. -/
theorem links_addRecords {base last : Nat} (hd : Distinct base last assigned)
    (hnd : (batch.map Node.uid).Nodup)
    (new : ∀ {p uid}, assigned.find? p = some uid → s.nodes.find? uid = none) :
    (s.addRecords owner group now assigned batch).Links a b ↔ s.Links a b ∨
      ∃ p q, BatchLinks batch p q ∧ assigned.find? p = some a ∧ assigned.find? q = some b := by
  constructor
  · rintro ⟨r, hr, hb⟩
    rcases of_find?_addRecords hd hnd hr with ⟨n, hn, ha, rfl⟩ | hr
    · obtain ⟨k, hk, hb⟩ := List.mem_filterMap.1 hb
      exact .inr ⟨n.uid, k.uid, ⟨n, hn, rfl, k, hk, rfl⟩, ha, hb⟩
    · exact .inl ⟨r, hr, hb⟩
  · rintro (⟨r, hr, hb⟩ | ⟨_, _, ⟨n, hn, rfl, k, hk, rfl⟩, ha, hb⟩)
    · refine ⟨r, ?_, hb⟩
      rw [find?_addRecords_of_ne]
      · exact hr
      · intro n _ ha
        rw [new ha] at hr
        cases hr
    · exact ⟨_, find?_addRecords hd hnd hn ha s, List.mem_filterMap.2 ⟨k, hk, hb⟩⟩

theorem links_link {source target : String} :
    (s.link now source target).Links a b ↔
      s.Links a b ∨ a = source ∧ b = target ∧ s.hasNode source = true := by
  unfold link Links hasNode
  simp only [Index.find?_modify, Index.contains_iff]
  by_cases e : a = source
  · subst e
    cases hr : s.nodes.find? a with
    | none => simp
    | some r =>
      simp only [if_true, Option.map_some, Option.some.injEq, exists_eq_left', true_and,
        exists_eq', and_true]
      split
      · rename_i old
        rw [List.contains_iff_mem] at old
        exact ⟨.inl, fun h => h.elim id fun e => e ▸ old⟩
      · rw [List.mem_append, List.mem_singleton]
  · simp [e]

theorem hasNode_link {source target uid : String} :
    (s.link now source target).hasNode uid = s.hasNode uid := by
  unfold link hasNode Index.contains
  rw [Index.find?_modify]
  split
  · rename_i e
    rw [e, Option.isSome_map]
  · rfl

/-- Links from one node to some others. -/
theorem links_foldl_link {parent : String} (there : s.hasNode parent = true) (uids : List String) :
    (uids.foldl (fun s uid => s.link now parent uid) s).Links a b ↔
      s.Links a b ∨ a = parent ∧ b ∈ uids := by
  induction uids generalizing s with
  | nil => simp
  | cons u us ih =>
    rw [List.foldl_cons, ih (hasNode_link.trans there), links_link, List.mem_cons]
    simp only [there, and_true]
    tauto

end Links

/-- The records of a batch are there, and nothing hangs them up yet. -/
structure Added (s : Store) (batch : List Node) (assigned : Index String) (t : Store) : Prop where
  new : ∀ {p uid}, assigned.find? p = some uid → s.nodes.find? uid = none
  injective : ∀ {p q uid}, assigned.find? p = some uid → assigned.find? q = some uid → p = q
  node : ∀ {p}, p ∈ batch.map Node.uid →
    ∃ uid, assigned.find? p = some uid ∧ t.hasNode uid = true
  links : ∀ {a b}, t.Links a b ↔ s.Links a b ∨
    ∃ p q, BatchLinks batch p q ∧ assigned.find? p = some a ∧ assigned.find? q = some b
  kept : ∀ {uid}, s.hasNode uid = true → t.hasNode uid = true
  accounts : t.accounts = s.accounts

section Create

variable {s t : Store} {now : Timestamp} {group owner : String} {parent : Option String}
  {assigned : Index String} {last : Nat} {created : List (String × Node)}

theorem added_addRecords (hs : Sound s) (ha : assign batch ∅ s.lastUid = (.ok assigned, last)) :
    Added s batch assigned
      ({ s with lastUid := last }.addRecords owner group now assigned batch) := by
  obtain ⟨hd, hnd, -⟩ := assign_spec (Nat.le_refl _) (distinct_empty _) ha
  have hl := le_assign batch ∅ s.lastUid
  rw [ha] at hl
  have new : ∀ {p uid}, assigned.find? p = some uid → s.nodes.find? uid = none :=
    fun hp => (hs.find?_of_fresh (hd.fresh hp)).1
  have kept : Extends s ({ s with lastUid := last }.addRecords owner group now assigned batch) :=
    Grows.extends (E := fun _ _ => False) (grows_addRecords hs hl hd hnd)
  refine ⟨new, hd.injective, fun {p} hp => ?_, links_addRecords hd hnd new, kept.hasNode,
    (addRecords_frame owner group now assigned batch { s with lastUid := last }).2.1⟩
  obtain ⟨uid, hu⟩ := (find?_of_assign ha).2 p hp
  obtain ⟨n, hn, rfl⟩ := List.mem_map.1 hp
  exact ⟨uid, hu, Index.contains_iff.2 ⟨_, find?_addRecords hd hnd hn hu _⟩⟩

/-- The roots go on the list of what the owner owns. -/
theorem Added.own (h : Added s batch assigned t) (ho : s.hasAccount owner = true) :
    TakenIn s owner none batch assigned
      (t.attach now owner none ((roots batch).filterMap assigned.find?)) where
  new := h.new
  injective := h.injective
  node := h.node
  links {a b} := by
    refine h.links.trans (or_congr_right ⟨.inl, fun hl => hl.elim id ?_⟩)
    rintro ⟨e, -⟩
    cases e
  under p e := by cases e
  owned _ {uid} := by
    obtain ⟨a, ha⟩ := Index.contains_iff.1 ho
    have ha' : t.accounts.find? owner = some a := by rw [h.accounts, ha]
    unfold anchors attach
    rw [Index.find?_modify, if_pos rfl, ha', ha]
    simp [List.mem_append, List.mem_filterMap]

/-- The roots are hung under the parent. -/
theorem Added.hang (h : Added s batch assigned t) {p : String} (hp : s.hasNode p = true) :
    TakenIn s owner (some p) batch assigned
      (t.attach now owner (some p) ((roots batch).filterMap assigned.find?)) := by
  have kept : Extends t (t.attach now owner (some p) ((roots batch).filterMap assigned.find?)) :=
    (alters_foldl_link now p _ t).extends
  constructor
  case new => exact h.new
  case injective => exact h.injective
  case node =>
    intro q hq
    obtain ⟨uid, hu, there⟩ := h.node hq
    exact ⟨uid, hu, kept.hasNode there⟩
  case links =>
    intro a b
    unfold attach
    rw [links_foldl_link (h.kept hp), h.links, or_assoc, List.mem_filterMap]
    refine or_congr_right (or_congr_right (and_congr_left fun _ => ?_))
    rw [Option.some.injEq, eq_comm]
  case under =>
    rintro _ ⟨⟩
    exact ⟨hp, kept.hasNode (h.kept hp)⟩
  case owned =>
    intro e
    cases e

/-- **A batch that is not refused is taken in**. -/
theorem takenIn_create (hs : Sound s)
    (h : s.create now group owner parent batch = (.ok created, t)) :
    ∃ assigned, TakenIn s owner parent batch assigned t ∧
      created = createdNodes owner group now assigned batch := by
  rcases create_cases s now group owner parent batch with ⟨e, last, -, hc⟩ |
    ⟨assigned, last, hcheck, ha, -, hc⟩
  · rw [hc] at h
    cases h
  · obtain ⟨-, howner, hparent⟩ := checkCreate_eq_ok_iff.1 hcheck
    have added : Added s batch assigned
        ({ s with lastUid := last }.addRecords owner group now assigned batch) :=
      added_addRecords hs ha
    rw [hc] at h
    cases h
    refine ⟨assigned, ?_, rfl⟩
    cases parent with
    | none => exact added.own howner
    | some p => exact added.hang (hparent p rfl)

theorem of_mem_createdNodes {x : String × Node}
    (hx : x ∈ createdNodes owner group now assigned batch) :
    x.1 ∈ batch.map Node.uid ∧ assigned.find? x.1 = some x.2.uid := by
  obtain ⟨n, hn, hx⟩ := List.mem_filterMap.1 hx
  obtain ⟨uid, hu, rfl⟩ := Option.map_eq_some_iff.1 hx
  exact ⟨List.mem_map_of_mem hn, hu⟩

/-- Every node of a batch is among those that were created, in the order of the batch. -/
theorem map_fst_createdNodes
    (all : ∀ p ∈ batch.map Node.uid, ∃ uid, assigned.find? p = some uid) :
    (createdNodes owner group now assigned batch).map Prod.fst = batch.map Node.uid := by
  unfold createdNodes
  induction batch with
  | nil => rfl
  | cons n ns ih =>
    obtain ⟨first, rest⟩ := List.forall_mem_cons.1 all
    obtain ⟨uid, hu⟩ := first
    rw [List.filterMap_cons_some (by rw [hu]; rfl), List.map_cons, List.map_cons, ih rest]

/-! ### Batches without roots -/

theorem classOf_assign {assigned : Index String} {e : StoreError} {last last' : Nat}
    (h : assign batch assigned last = (.error e, last')) : e.classOf = .invalid := by
  fun_induction assign batch assigned last with
  | case1 => cases h
  | case2 =>
    cases h
    rfl
  | case3 _ _ _ _ _ ih => exact ih h

theorem classOf_checkEdges {assigned : Index String} {e : StoreError} {uid : String}
    {targets : List String} (h : checkEdges assigned uid targets = .error e) :
    e.classOf = .invalid := by
  fun_induction checkEdges assigned uid targets with
  | case1 => cases h
  | case2 =>
    cases h
    rfl
  | case3 _ _ _ _ ih => exact ih h
  | case4 =>
    cases h
    rfl

theorem classOf_checkBatch {assigned : Index String} {e : StoreError}
    (h : checkBatch assigned batch = .error e) : e.classOf = .invalid := by
  induction batch with
  | nil => cases h
  | cons n ns ih =>
    unfold checkBatch at h
    cases hn : checkEdges assigned n.uid (n.children.map Node.uid) with
    | error e' =>
      rw [hn] at h
      cases h
      exact classOf_checkEdges hn
    | ok _ =>
      rw [hn] at h
      exact ih h

/-- **A batch without roots** is refused, once there is someone and something to create it for. -/
theorem create_of_roots_eq_nil (hc : s.checkCreate owner parent batch = .ok ())
    (none : roots batch = []) :
    ∃ e t, s.create now group owner parent batch = (.error e, t) ∧ e.classOf = .invalid := by
  unfold create
  rw [hc]
  simp only [none, List.isEmpty_nil, if_true]
  split
  · rename_i e last ha
    exact ⟨e, _, rfl, classOf_assign ha⟩
  · split
    · rename_i e hb
      exact ⟨e, _, rfl, classOf_checkBatch hb⟩
    · exact ⟨_, _, rfl, rfl⟩

end Create

/-- **Where new nodes can be found.** A batch that is taken in creates every node that it has. A
new node can be reached from the parent, or without one from what its owner owns, exactly if the
roots of the batch lead to it; and they lead to every node that no cycle of the batch leads to. A
batch without roots is refused. -/
theorem create_attaches (actions : List Action) (now : Timestamp) (group owner : String)
    (parent : Option String) (batch : List Node) :
    (∀ created t, (after actions).create now group owner parent batch = (.ok created, t) →
      created.map Prod.fst = batch.map Node.uid ∧
      ∀ x ∈ created, (t.Attached owner parent x.2.uid ↔ Hangs batch x.1) ∧
        ((∀ q, Relation.TransGen (BatchLinks batch) q q →
          ¬ Relation.ReflTransGen (BatchLinks batch) q x.1) → t.Attached owner parent x.2.uid)) ∧
    ((after actions).checkCreate owner parent batch = .ok () → roots batch = [] →
      ∃ e t, (after actions).create now group owner parent batch = (.error e, t) ∧
        e.classOf = .invalid) := by
  refine ⟨fun created t h => ?_, create_of_roots_eq_nil⟩
  obtain ⟨assigned, taken, rfl⟩ := takenIn_create (sound_after actions) h
  have all : ∀ p ∈ batch.map Node.uid, ∃ uid, assigned.find? p = some uid := fun p hp =>
    (taken.node hp).imp fun _ => And.left
  refine ⟨map_fst_createdNodes all, fun x hx => ?_⟩
  obtain ⟨mem, hu⟩ := of_mem_createdNodes hx
  have attached := taken.attached_iff (intact_after actions) hu
  exact ⟨attached, fun acyclic => attached.2 (hangs_of_acyclic mem acyclic)⟩

namespace Detached

/-- Ann is the only user, and there are no nodes. -/
def store : Store := after [.createAccount ⟨"ann", "", "user", none⟩]

/-- A node that links to another. -/
def chain : List Node := [draft "$a" ["$b"], draft "$b" []]

/-- Two nodes that link to each other. -/
def ring : List Node := [draft "$b" ["$c"], draft "$c" ["$b"]]

/-- What Ann gets and what becomes of the store when she creates some nodes. -/
def created (batch : List Node) : Except StoreError (List (String × Node)) × Store :=
  store.create default "g" "0x1" none batch

end Detached

open Detached in
theorem create_attaches_chain :
    (∃ nodes t, created chain = (.ok nodes, t) ∧ nodes.map Prod.fst = ["$a", "$b"] ∧
      ∀ x ∈ nodes, t.Attached "0x1" none x.2.uid) ∧
    ∃ e t, created ring = (.error e, t) ∧ e.classOf = .invalid := by
  have taken := (create_attaches [.createAccount ⟨"ann", "", "user", none⟩] default "g" "0x1" none
    chain).1
  have refused := (create_attaches [.createAccount ⟨"ann", "", "user", none⟩] default "g" "0x1"
    none ring).2
  have isOk : (created chain).1.toOption.isSome = true := by decide +kernel
  refine ⟨?_, refused (by decide +kernel) (by decide +kernel)⟩
  cases hc : created chain with
  | mk result t =>
    cases result with
    | error e =>
      rw [hc] at isOk
      cases isOk
    | ok nodes =>
      obtain ⟨names, found⟩ := taken nodes t hc
      have root : Hangs chain "$a" := .root (by decide +kernel)
      have link : BatchLinks chain "$a" "$b" :=
        ⟨_, List.mem_cons_self, rfl, _, List.mem_cons_self, rfl⟩
      refine ⟨nodes, t, rfl, names, fun x hx => (found x hx).1.2 ?_⟩
      have name : x.1 ∈ chain.map Node.uid := by
        rw [← names]
        exact List.mem_map_of_mem hx
      rcases List.mem_cons.1 name with e | name
      · rw [e]
        exact root
      · rw [List.mem_singleton.1 name]
        exact root.link link

open Detached in
/-- **A cycle beside a root is lost.** Ann creates a node, and with it two that link to each other.
None of this is refused, and no node that she owns leads to the two. -/
theorem ring_detached :
    (created (draft "$a" [] :: ring)).1.toOption.isSome = true ∧
    (created (draft "$a" [] :: ring)).2.hasNode "0x3" = true ∧
    ¬ (created (draft "$a" [] :: ring)).2.Attached "0x1" none "0x3" := by
  refine ⟨by decide +kernel, by decide +kernel, ?_⟩
  rintro ⟨n, reached⟩
  have only : ∀ {n uid}, (created (draft "$a" [] :: ring)).2.Reached
      ((created (draft "$a" [] :: ring)).2.anchors "0x1" none) n uid → uid = "0x2" := by
    intro n uid reached
    induction reached with
    | root anchor _ =>
      have owned : (created (draft "$a" [] :: ring)).2.anchors "0x1" none = ["0x2"] := by
        decide +kernel
      rw [owned] at anchor
      exact List.mem_singleton.1 anchor
    | link _ link ih =>
      subst ih
      obtain ⟨r, hr, hc⟩ := link
      have leaf : ((created (draft "$a" [] :: ring)).2.nodes.find? "0x2").map Record.children =
          some [] := by decide +kernel
      rw [hr] at leaf
      rw [Option.some.inj leaf] at hc
      cases hc
  exact absurd (only reached) (by decide)

end SealedGraph.Store
