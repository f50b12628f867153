import SealedGraph.Proofs.Store.Integrity
import SealedGraph.Proofs.Store.Reach
import SealedGraph.Store.Query

/-!
# The search is exact

A query finds each node that is few enough links away from a root, once, the near ones first, and
shows it as it is stored; and it ends, whatever the links are.

The queue is the reason. Its levels never fall and differ by at most one (`Frontier.sorted`), and
what is left in it leads to all that has not been met (`Frontier.ahead`), so that a uid is met for
the first time at its distance (`Frontier.distance`). Each turn keeps this (`Frontier.skip`,
`Frontier.pass`, `Frontier.visit`), and a search from there finds what it should (`Finds`).

The queue can grow in a turn, but every link is put into it at most once, which bounds the turns
(`searchWithin_eq`).

* `query_exact`: the result of a query.
-/

namespace SealedGraph.Store

variable {s : Store} {roots : List String} {depth : Nat} {queue : List (String × Nat)}
  {visited : List String} {uid : String} {level : Nat}

/-! ### One node -/

/-- The node as it is stored, with the nodes that it links to in the stored order, none of which
has children itself. -/
structure Shows (s : Store) (n : Node) : Prop where
  stored : ∃ r, s.nodes.find? n.uid = some r ∧
    n = { r.toNode n.uid with children := n.children } ∧
    n.children.map some = r.children.map s.node?
  leaf : ∀ c ∈ n.children, c.children = []

theorem hasNode_iff_expand? : s.hasNode uid = true ↔ ∃ node, s.expand? uid = some node := by
  unfold hasNode expand?
  rw [Index.contains_iff]
  constructor
  · rintro ⟨r, hr⟩
    exact ⟨_, by rw [hr]; rfl⟩
  · rintro ⟨node, h⟩
    obtain ⟨r, hr, -⟩ := Option.map_eq_some_iff.1 h
    exact ⟨r, hr⟩

theorem map_some_filterMap_node? {children : List String}
    (there : ∀ c ∈ children, s.hasNode c = true) :
    (children.filterMap s.node?).map some = children.map s.node? := by
  induction children with
  | nil => rfl
  | cons c cs ih =>
    obtain ⟨r, hr⟩ := Index.contains_iff.1 (there c (by simp))
    have found : s.node? c = some (r.toNode c) := by simp [node?, hr]
    rw [List.filterMap_cons_some found, List.map_cons, List.map_cons, found,
      ih fun d hd => there d (List.mem_cons_of_mem _ hd)]

theorem shows_of_expand? (whole : s.Whole) {node : Node} (found : s.expand? uid = some node) :
    node.uid = uid ∧ s.Shows node := by
  obtain ⟨r, hr, rfl⟩ := Option.map_eq_some_iff.1 found
  refine ⟨rfl, ⟨r, hr, rfl, map_some_filterMap_node? (whole uid r hr)⟩, fun c hc => ?_⟩
  obtain ⟨d, -, hd⟩ := List.mem_filterMap.1 hc
  obtain ⟨r', -, rfl⟩ := Option.map_eq_some_iff.1 hd
  rfl

/-- The children that are shown are those that are linked to. -/
theorem links_iff_of_expand? (whole : s.Whole) {node : Node} (found : s.expand? uid = some node)
    {c : String} : s.Links uid c ↔ ∃ k ∈ node.children, k.uid = c := by
  obtain ⟨r, hr, rfl⟩ := Option.map_eq_some_iff.1 found
  constructor
  · rintro ⟨r', hr', hc⟩
    rw [hr] at hr'
    cases hr'
    obtain ⟨q, hq⟩ := Index.contains_iff.1 (whole uid r hr c hc)
    exact ⟨q.toNode c, List.mem_filterMap.2 ⟨c, hc, by rw [node?, hq]; rfl⟩, rfl⟩
  · rintro ⟨k, hk, rfl⟩
    obtain ⟨c, hc, hk⟩ := List.mem_filterMap.1 hk
    obtain ⟨q, -, rfl⟩ := Option.map_eq_some_iff.1 hk
    exact ⟨r, hr, hc⟩

/-- What is put behind the queue when a node is met. -/
theorem mem_next (whole : s.Whole) {node : Node} (found : s.expand? uid = some node)
    (e : String × Nat) :
    e ∈ (if level < depth then node.children.map fun c => (c.uid, level + 1) else []) ↔
      level < depth ∧ e.2 = level + 1 ∧ s.Links uid e.1 := by
  obtain ⟨c, i⟩ := e
  rw [links_iff_of_expand? whole found]
  split
  · rename_i near
    rw [List.mem_map]
    constructor
    · rintro ⟨k, hk, e⟩
      cases e
      exact ⟨near, rfl, k, hk, rfl⟩
    · rintro ⟨-, rfl, k, hk, rfl⟩
      exact ⟨k, hk, rfl⟩
  · rename_i far
    exact iff_of_false List.not_mem_nil fun h => far h.1

/-! ### What holds when a turn of the search begins -/

/-- What is to be looked at leads to all that has not been met, and the near ones come first. -/
structure Frontier (s : Store) (roots : List String) (depth : Nat) (queue : List (String × Nat))
    (visited : List String) : Prop where
  /-- an entry is within the depth, and a node is reached with as many links as it says -/
  reached : ∀ e ∈ queue, e.2 ≤ depth ∧ (s.hasNode e.1 = true → s.Reached roots e.2 e.1)
  /-- the levels never fall, and differ by at most one -/
  sorted : queue.Pairwise fun e e' => e.2 ≤ e'.2 ∧ e'.2 ≤ e.2 + 1
  root : ∀ uid ∈ roots, uid ∈ visited ∨ (uid, 0) ∈ queue
  /-- what a visited node links to is visited or waits, unless it is too far away -/
  child : ∀ {v k c}, v ∈ visited → s.Distance roots v k → k < depth → s.Links v c →
    c ∈ visited ∨ (c, k + 1) ∈ queue

theorem frontier_roots (s : Store) (roots : List String) (depth : Nat) :
    Frontier s roots depth (roots.map fun uid => (uid, 0)) [] where
  reached e he := by
    obtain ⟨uid, hm, rfl⟩ := List.mem_map.1 he
    exact ⟨Nat.zero_le _, .root hm⟩
  sorted := List.pairwise_map.2 (List.pairwise_of_forall fun _ _ => ⟨Nat.le_refl _, Nat.zero_le _⟩)
  root uid hm := .inr (List.mem_map.2 ⟨uid, hm, rfl⟩)
  child hv := by cases hv

namespace Frontier

/-- **What is within the depth** has been met, or there is something in the queue that has not been
met and is no farther away. -/
theorem ahead (h : Frontier s roots depth queue visited) {i : Nat} (hi : i ≤ depth)
    (reached : s.Reached roots i uid) :
    uid ∈ visited ∨ ∃ e ∈ queue, e.1 ∉ visited ∧ e.2 ≤ i := by
  induction reached with
  | @root uid hm _ =>
    by_cases hv : uid ∈ visited
    · exact .inl hv
    · exact .inr ⟨_, (h.root uid hm).resolve_left hv, hv, Nat.le_refl _⟩
  | @link n a b ha hl ih =>
    rcases ih (by omega) with ha' | ⟨e, he, hv, hn⟩
    · obtain ⟨k, hk, hd⟩ := ha.distance
      by_cases hv : b ∈ visited
      · exact .inl hv
      · exact .inr ⟨_, (h.child ha' hd (by omega) hl).resolve_left hv, hv, by simpa using hk⟩
    · exact .inr ⟨e, he, hv, by omega⟩

/-- What is first in the queue is no farther away than all that has not been met. -/
theorem le_of_reached (h : Frontier s roots depth ((uid, level) :: queue) visited) {u : String}
    (hu : u ∉ visited) {i : Nat} (reached : s.Reached roots i u) : level ≤ i := by
  rcases Nat.lt_or_ge depth i with hi | hi
  · have := (h.reached _ List.mem_cons_self).1
    simp only at this
    omega
  · obtain ⟨e, he, -, hn⟩ := (h.ahead hi reached).resolve_left hu
    rcases List.mem_cons.1 he with rfl | he
    · exact hn
    · have := ((List.pairwise_cons.1 h.sorted).1 e he).1
      simp only at this
      omega

/-- **A node is met for the first time at its distance**. -/
theorem distance (h : Frontier s roots depth ((uid, level) :: queue) visited)
    (new : uid ∉ visited) (there : s.hasNode uid = true) : s.Distance roots uid level :=
  ⟨(h.reached _ List.mem_cons_self).2 there, fun _ => h.le_of_reached new⟩

/-- Once the first entry is done with, its uid has been met. -/
theorem met_or_waits {c : String} {k : Nat}
    (h : c ∈ visited ∨ (c, k) ∈ (uid, level) :: queue) : c ∈ uid :: visited ∨ (c, k) ∈ queue := by
  rcases h with hv | hq
  · exact .inl (List.mem_cons_of_mem _ hv)
  · rcases List.mem_cons.1 hq with e | hq
    · cases e
      exact .inl List.mem_cons_self
    · exact .inr hq

/-- An entry whose uid has been met is dropped. -/
theorem skip (h : Frontier s roots depth ((uid, level) :: queue) visited) (old : uid ∈ visited) :
    Frontier s roots depth queue visited := by
  have met : ∀ c ∈ uid :: visited, c ∈ visited := by
    intro c hc
    rcases List.mem_cons.1 hc with rfl | hc
    · exact old
    · exact hc
  exact {
    reached := fun e he => h.reached e (List.mem_cons_of_mem _ he)
    sorted := (List.pairwise_cons.1 h.sorted).2
    root := fun u hu => (met_or_waits (h.root u hu)).imp_left (met u)
    child := fun hv hd hk hl => (met_or_waits (h.child hv hd hk hl)).imp_left (met _) }

/-- **A turn that meets a new uid**: what it links to is put behind the queue, unless that is too
far away. -/
theorem visit (h : Frontier s roots depth ((uid, level) :: queue) visited) (new : uid ∉ visited)
    {next : List (String × Nat)}
    (hnext : ∀ e, e ∈ next ↔ level < depth ∧ e.2 = level + 1 ∧ s.Links uid e.1) :
    Frontier s roots depth (queue ++ next) (uid :: visited) := by
  obtain ⟨hhead, htail⟩ := List.pairwise_cons.1 h.sorted
  constructor
  case reached =>
    intro e he
    rcases List.mem_append.1 he with he | he
    · exact h.reached e (List.mem_cons_of_mem _ he)
    · obtain ⟨hlt, hlevel, hl⟩ := (hnext e).1 he
      rw [hlevel]
      exact ⟨hlt, fun _ => .link (h.distance new hl.source).1 hl⟩
  case sorted =>
    refine List.pairwise_append.2 ⟨htail, List.pairwise_of_forall_mem_list ?_, ?_⟩
    · intro e he e' he'
      rw [((hnext e).1 he).2.1, ((hnext e').1 he').2.1]
      omega
    · intro e he e' he'
      have := hhead e he
      rw [((hnext e').1 he').2.1]
      simp only at this
      omega
  case root =>
    intro u hu
    exact (met_or_waits (h.root u hu)).imp_right (List.mem_append_left _)
  case child =>
    intro v k c hv hd hk hl
    rcases List.mem_cons.1 hv with rfl | hv
    · obtain rfl := hd.unique (h.distance new hl.source)
      exact .inr (List.mem_append_right _ ((hnext _).2 ⟨hk, rfl, hl⟩))
    · exact (met_or_waits (h.child hv hd hk hl)).imp_right (List.mem_append_left _)

/-- When nothing is left to be looked at, all that is within the depth has been met. -/
theorem met (h : Frontier s roots depth [] visited) {k : Nat} (hk : k ≤ depth)
    (hd : s.Distance roots uid k) : uid ∈ visited := by
  rcases h.ahead hk hd.1 with hv | ⟨e, he, -⟩
  · exact hv
  · cases he

end Frontier

/-! ### What the search finds -/

/-- The nodes within the depth that have not been visited, once each, the near ones first, and as
they are stored. -/
structure Finds (s : Store) (roots : List String) (depth : Nat) (visited : List String)
    (nodes : List Node) : Prop where
  mem : ∀ uid, uid ∈ nodes.map Node.uid ↔
    uid ∉ visited ∧ ∃ k ≤ depth, s.Distance roots uid k
  once : (nodes.map Node.uid).Nodup
  sorted : nodes.Pairwise fun n n' => ∀ k k', s.Distance roots n.uid k →
    s.Distance roots n'.uid k' → k ≤ k'
  shows : ∀ n ∈ nodes, s.Shows n

/-- A uid that no node has is not found. -/
theorem Finds.pass {nodes : List Node} (h : Finds s roots depth (uid :: visited) nodes)
    (whole : s.Whole) (missing : s.hasNode uid = false) : Finds s roots depth visited nodes where
  mem u := by
    rw [h.mem u, List.mem_cons, not_or, and_assoc]
    refine ⟨fun hu => hu.2, fun hu => ⟨?_, hu⟩⟩
    rintro rfl
    obtain ⟨-, k, -, hd⟩ := hu
    rw [hd.1.hasNode whole] at missing
    cases missing
  once := h.once
  sorted := h.sorted
  shows := h.shows

/-- A node that is met for the first time comes before what is found from then on. -/
theorem Finds.visit {node : Node} {nodes : List Node}
    (h : Finds s roots depth (node.uid :: visited) nodes)
    (frontier : Frontier s roots depth ((node.uid, level) :: queue) visited)
    (new : node.uid ∉ visited) (there : s.hasNode node.uid = true) (shows : s.Shows node) :
    Finds s roots depth visited (node :: nodes) := by
  have hd := frontier.distance new there
  constructor
  case mem =>
    intro u
    rw [List.map_cons, List.mem_cons, h.mem u, List.mem_cons, not_or]
    constructor
    · rintro (rfl | ⟨hu, hk⟩)
      · exact ⟨new, level, (frontier.reached _ List.mem_cons_self).1, hd⟩
      · exact ⟨hu.2, hk⟩
    · rintro ⟨hu, hk⟩
      by_cases e : u = node.uid
      · exact .inl e
      · exact .inr ⟨⟨e, hu⟩, hk⟩
  case once =>
    refine List.nodup_cons.2 ⟨fun hm => ?_, h.once⟩
    exact ((h.mem _).1 hm).1 List.mem_cons_self
  case sorted =>
    refine List.pairwise_cons.2 ⟨fun n hn k k' hk hk' => ?_, h.sorted⟩
    obtain ⟨hu, -⟩ := (h.mem n.uid).1 (List.mem_map_of_mem hn)
    rw [hk.unique hd]
    exact frontier.le_of_reached (fun hv => hu (List.mem_cons_of_mem _ hv)) hk'.1
  case shows => exact List.forall_mem_cons.2 ⟨shows, h.shows⟩

/-- **The search finds** all that the queue leads to. -/
theorem finds_search (whole : s.Whole) (h : Frontier s roots depth queue visited) :
    Finds s roots depth visited (s.search depth queue visited) := by
  fun_induction search s depth queue visited with
  | case1 visited =>
    refine ⟨fun u => ⟨fun hu => (by cases hu), ?_⟩, List.nodup_nil, .nil, by simp⟩
    rintro ⟨hu, k, hk, hd⟩
    exact absurd (h.met hk hd) hu
  | case2 visited uid level queue old ih => exact ih (h.skip (List.contains_iff_mem.1 old))
  | case3 visited uid level queue new found ih =>
    have new : uid ∉ visited := fun hm => new (List.contains_iff_mem.2 hm)
    have missing : s.hasNode uid = false := by
      rw [← Bool.not_eq_true, hasNode_iff_expand?, found]
      simp
    have nothing : ∀ e : String × Nat,
        e ∈ [] ↔ level < depth ∧ e.2 = level + 1 ∧ s.Links uid e.1 := by
      refine fun e => iff_of_false List.not_mem_nil ?_
      rintro ⟨-, -, hl⟩
      rw [hl.source] at missing
      cases missing
    have h := h.visit new nothing
    rw [List.append_nil] at h
    exact (ih h).pass whole missing
  | case4 visited uid level queue new node found next ih =>
    have new : uid ∉ visited := fun hm => new (List.contains_iff_mem.2 hm)
    obtain ⟨rfl, shows⟩ := shows_of_expand? whole found
    exact (ih (h.visit new (mem_next whole found))).visit h new
      (hasNode_iff_expand?.2 ⟨_, found⟩) shows

/-! ### The search ends -/

/-- The search, given up when a number of turns is used up and the queue still holds something. -/
def searchWithin (s : Store) (depth : Nat) :
    Nat → List (String × Nat) → List String → Option (List Node)
  | _, [], _ => some []
  | 0, _ :: _, _ => none
  | turns + 1, (uid, level) :: queue, visited =>
    if visited.contains uid then searchWithin s depth turns queue visited
    else
      match s.expand? uid with
      | none => searchWithin s depth turns queue (uid :: visited)
      | some node =>
        let next := if level < depth then node.children.map fun c => (c.uid, level + 1) else []
        (searchWithin s depth turns (queue ++ next) (uid :: visited)).map (node :: ·)

/-- The number of links of the entries that have not been visited. -/
def linksLeft (visited : List String) : List (String × Record) → Nat
  | [] => 0
  | e :: es => (if visited.contains e.1 then 0 else e.2.children.length) + linksLeft visited es

theorem linksLeft_nil (entries : List (String × Record)) :
    linksLeft [] entries = ((entries.map Prod.snd).flatMap Record.children).length := by
  induction entries with
  | nil => rfl
  | cons e es ih =>
    rw [List.map_cons, List.flatMap_cons, List.length_append, ← ih]
    rfl

theorem linksLeft_cons_le (uid : String) (visited : List String)
    (entries : List (String × Record)) :
    linksLeft (uid :: visited) entries ≤ linksLeft visited entries := by
  induction entries with
  | nil => exact Nat.le_refl _
  | cons e es ih =>
    simp only [linksLeft, List.contains_cons] at ih ⊢
    cases visited.contains e.1 with
    | true =>
      rw [Bool.or_true]
      exact Nat.add_le_add_left ih _
    | false =>
      rw [Bool.or_false, if_neg Bool.false_ne_true]
      refine Nat.add_le_add ?_ ih
      split
      · exact Nat.zero_le _
      · exact Nat.le_refl _

/-- The links of a node that is met are no longer left. -/
theorem linksLeft_cons_of_lookup {entries : List (String × Record)} {r : Record}
    (found : Index.lookupEntry uid entries = some r) (new : visited.contains uid = false) :
    linksLeft (uid :: visited) entries + r.children.length ≤ linksLeft visited entries := by
  induction entries with
  | nil => cases found
  | cons e es ih =>
    unfold Index.lookupEntry at found
    by_cases he : e.1 = uid
    · rw [if_pos he] at found
      cases found
      have := linksLeft_cons_le uid visited es
      simp only [linksLeft, List.contains_cons, he, beq_self_eq_true,
        Bool.true_or, if_true, new, Bool.false_eq_true, if_false] at this ⊢
      omega
    · rw [if_neg he] at found
      have := ih found
      have hne : (e.1 == uid) = false := by simpa using he
      simp only [linksLeft, List.contains_cons, hne, Bool.false_or]
        at this ⊢
      omega

theorem ne_zero_of_enough {e : String × Nat} {turns k : Nat}
    (enough : (e :: queue).length + k ≤ turns) : turns ≠ 0 := by
  rw [List.length_cons] at enough
  omega

/-- **The search ends**: every turn takes one entry, and puts links back only that have not been
there before. -/
theorem searchWithin_eq {turns : Nat}
    (enough : queue.length + linksLeft visited s.nodes.entries ≤ turns) :
    s.searchWithin depth turns queue visited = some (s.search depth queue visited) := by
  fun_induction search s depth queue visited generalizing turns with
  | case1 visited => rw [searchWithin]
  | case2 visited uid level queue old ih =>
    obtain ⟨turns, rfl⟩ := Nat.exists_eq_add_one_of_ne_zero (ne_zero_of_enough enough)
    rw [searchWithin, if_pos old]
    refine ih ?_
    simp only [List.length_cons] at enough
    omega
  | case3 visited uid level queue new found ih =>
    obtain ⟨turns, rfl⟩ := Nat.exists_eq_add_one_of_ne_zero (ne_zero_of_enough enough)
    rw [searchWithin, if_neg new, found]
    refine ih ?_
    have := linksLeft_cons_le uid visited s.nodes.entries
    simp only [List.length_cons] at enough
    omega
  | case4 visited uid level queue new node found next =>
    rename_i ih
    obtain ⟨turns, rfl⟩ := Nat.exists_eq_add_one_of_ne_zero (ne_zero_of_enough enough)
    rw [searchWithin, if_neg new, found]
    refine (congrArg (Option.map (node :: ·)) (ih ?_)).trans rfl
    obtain ⟨r, hr, rfl⟩ := Option.map_eq_some_iff.1 found
    have hleft := linksLeft_cons_of_lookup hr (by simpa using new)
    have hnext : next.length ≤ r.children.length := by
      simp only [next]
      split
      · rw [List.length_map]
        exact List.length_filterMap_le _ _
      · exact Nat.zero_le _
    simp only [List.length_cons, List.length_append] at enough ⊢
    omega

/-- **A query is exact, and ends**, whatever links there are, roots that are not there or are there
twice included. The nodes found are those at most `depth` and at most 20 links away from a root;
none is found twice, none before one that is nearer, and each is shown as it is stored, its direct
children with it. For this the search takes no more turns than there are roots and links. -/
theorem query_exact (whole : s.Whole) (roots : List String) (depth : Nat) :
    (∀ uid, uid ∈ (s.query roots depth).map Node.uid ↔
      ∃ k ≤ min depth 20, s.Distance roots uid k) ∧
    ((s.query roots depth).map Node.uid).Nodup ∧
    ((s.query roots depth).Pairwise fun n n' => ∀ k k', s.Distance roots n.uid k →
      s.Distance roots n'.uid k' → k ≤ k') ∧
    (∀ n ∈ s.query roots depth, s.Shows n) ∧
    s.searchWithin (min depth 20)
        (roots.length + (s.nodes.values.flatMap Record.children).length)
        (roots.map fun uid => (uid, 0)) [] =
      some (s.query roots depth) := by
  have finds : Finds s roots (min depth 20) [] (s.query roots depth) :=
    finds_search whole (frontier_roots s roots (min depth 20))
  refine ⟨fun uid => ?_, finds.once, finds.sorted, finds.shows, searchWithin_eq ?_⟩
  · simpa using finds.mem uid
  · rw [List.length_map, linksLeft_nil]
    exact Nat.le_refl _

namespace Ring

/-- Two ways lead from the first node to the last, which links back to the first. -/
def store : Store :=
  after [.createAccount ⟨"ann", "", "user", none⟩,
    .create default 0 [] "0x1" none
      [draft "$a" ["$b", "$c"], draft "$b" ["$d"], draft "$c" ["$d"], draft "$d" []],
    .addEdges default ["0x5"] [] ["0x2"]]

/-- A uid that no node has, and a node twice. -/
def asked : List String := ["0x9", "0x2", "0x2"]

end Ring

theorem query_exact_ring :
    Ring.store.Whole ∧
    (Ring.store.query Ring.asked 1).map Node.uid = ["0x2", "0x3", "0x4"] ∧
    ∀ uid, uid ∈ ["0x2", "0x3", "0x4"] ↔
      ∃ k ≤ min 1 20, Ring.store.Distance Ring.asked uid k := by
  have whole : Ring.store.Whole := fun _ _ hr c hc => (((intact_after _).record hr).child c hc).1
  obtain ⟨mem, -, -, -, ends⟩ := query_exact whole Ring.asked 1
  have uids : (Ring.store.query Ring.asked 1).map Node.uid = ["0x2", "0x3", "0x4"] := by
    have evaluated : (Ring.store.searchWithin 1
        (Ring.asked.length + (Ring.store.nodes.values.flatMap Record.children).length)
        (Ring.asked.map fun uid => (uid, 0)) []).map (List.map Node.uid) =
        some ["0x2", "0x3", "0x4"] := by decide +kernel
    have ends := congrArg (Option.map (List.map Node.uid)) ends
    exact Option.some.inj (ends.symm.trans evaluated)
  rw [uids] at mem
  exact ⟨whole, uids, mem⟩

end SealedGraph.Store
