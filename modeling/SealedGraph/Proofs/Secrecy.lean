import Mathlib.Data.List.Basic
import SealedGraph.Proofs.Index
import SealedGraph.Proofs.Server.Service
import SealedGraph.Proofs.Store.Accounts
import SealedGraph.Proofs.Visibility

/-!
# What hidden nodes give away

Queries and listings walk through nodes that the caller cannot view, and put hidden children into the
nodes that they find; only then is anything filtered. Nothing of what hidden nodes hold gets through:
two stores that differ in nothing but the contents of hidden nodes, and the times of their last
changes, give the caller the same answers.

* `Store.AlikeFor`: stores that differ in nothing else.
* `Caller.veilAll`: what is left of a node when its hidden contents are taken away.
* `map_veilAll_query`, `AlikeFor.nodesOf`: what two such stores find is the same then.
* `Service.outcome_pack_congr`: and the filter makes the same of it.
* `answers_alike`: two servers with such stores answer alike.
-/

namespace SealedGraph

open Registry (Table)

/-! ### Nodes without their hidden contents -/

namespace Caller

variable {c : Caller} {t : Table} {n n' : Node} {ns : List Node}

theorem canView_congr (ho : n'.owner = n.owner) (hp : n'.permissions = n.permissions)
    (hg : n'.group = n.group) : c.CanView t n' ↔ c.CanView t n := by
  unfold CanView
  rw [ho, hp, hg]

theorem question?_congr (ho : n'.owner = n.owner) (hp : n'.permissions = n.permissions)
    (hg : n'.group = n.group) : c.question? n' = c.question? n := by
  unfold question? Node.group?
  rw [ho, hp, hg]

/-- The node, without its contents and the time of its last change if the caller cannot view it. -/
def veil (c : Caller) (t : Table) (n : Node) : Node :=
  { n with
    content := if c.CanView t n then n.content else .empty
    modified := if c.CanView t n then n.modified else none }

/-- The node and its children without their hidden contents. -/
def veilAll (c : Caller) (t : Table) (n : Node) : Node :=
  { c.veil t n with children := n.children.map (c.veil t) }

theorem veil_of_canView (h : c.CanView t n) : c.veil t n = n := by
  cases n
  simp only [veil, h, if_true]

/-- Veiled or not, whether a node can be viewed is the same. -/
@[simp] theorem canView_veil : c.CanView t (c.veil t n) ↔ c.CanView t n := canView_congr rfl rfl rfl

@[simp] theorem canView_veilAll : c.CanView t (c.veilAll t n) ↔ c.CanView t n :=
  canView_congr rfl rfl rfl

@[simp] theorem question?_veil : c.question? (c.veil t n) = c.question? n :=
  question?_congr rfl rfl rfl

@[simp] theorem question?_veilAll : c.question? (c.veilAll t n) = c.question? n :=
  question?_congr rfl rfl rfl

/-- The veil hides no links. -/
theorem map_children_of_veilAll_eq {α : Type} (f : String → α)
    (h : c.veilAll t n' = c.veilAll t n) :
    n'.children.map (fun k => f k.uid) = n.children.map fun k => f k.uid := by
  have hkids := congrArg (fun n => n.children.map fun k => f k.uid) h
  unfold veilAll at hkids
  simp only [List.map_map] at hkids
  exact hkids

theorem questions_map_veil : c.questions (ns.map (c.veil t)) = c.questions ns := by
  unfold questions
  rw [List.flatMap_map]
  simp only [question?_veil]

theorem viewable_map_veil : c.viewable t (ns.map (c.veil t)) = c.viewable t ns := by
  induction ns with
  | nil => rfl
  | cons n ns ih =>
    rw [List.map_cons, viewable_cons, viewable_cons, ih]
    by_cases h : c.CanView t n
    · rw [if_pos (canView_veil.2 h), if_pos h, veil_of_canView h]
    · rw [if_neg fun h' => h (canView_veil.1 h'), if_neg h]

/-- **The questions that are put** about nodes do not depend on what the veil takes away. -/
theorem allQuestions_map_veilAll :
    c.allQuestions t (ns.map (c.veilAll t)) = c.allQuestions t ns := by
  unfold allQuestions
  rw [List.flatMap_map]
  refine List.flatMap_congr fun n _ => ?_
  have hchildren : c.questions (c.veilAll t n).children = c.questions n.children :=
    questions_map_veil
  simp only [question?_veilAll, canView_veilAll, hchildren]

/-- **What is shown of nodes** does not depend on what the veil takes away. -/
theorem map_pruned_viewable_map_veilAll :
    (c.viewable t (ns.map (c.veilAll t))).map (c.pruned t) =
      (c.viewable t ns).map (c.pruned t) := by
  induction ns with
  | nil => rfl
  | cons n ns ih =>
    rw [List.map_cons, viewable_cons, viewable_cons]
    by_cases h : c.CanView t n
    · have hpruned : c.pruned t (c.veilAll t n) = c.pruned t n := by
        unfold pruned veilAll
        rw [viewable_map_veil, veil_of_canView h]
      rw [if_pos (canView_veilAll.2 h), if_pos h, List.map_cons, List.map_cons, ih, hpruned]
    · rw [if_neg fun h' => h (canView_veilAll.1 h'), if_neg h, ih]

end Caller

/-! ### Stores that are alike -/

namespace Store

/-- The stores have the same accounts and the same nodes with the same links, and a node that differs
does so in nothing but its contents and the time of its last change, and cannot be viewed by the
caller. -/
structure AlikeFor (c : Caller) (table : Table) (s t : Store) : Prop where
  account : ∀ uid, t.accounts.find? uid = s.accounts.find? uid
  noNode : ∀ {uid}, s.nodes.find? uid = none → t.nodes.find? uid = none
  node : ∀ {uid r}, s.nodes.find? uid = some r → ∃ r', t.nodes.find? uid = some r' ∧
    r'.owner = r.owner ∧ r'.permissions = r.permissions ∧ r'.group = r.group ∧
    r'.children = r.children ∧ r'.created = r.created ∧
    (c.CanView table (r.toNode uid) → r' = r)

variable {c : Caller} {table : Table} {s t : Store}

/-- A hidden node gets new contents. -/
theorem alikeFor_setContent {uid : String} (now : Timestamp) (content : Content)
    (hidden : ∀ r, s.nodes.find? uid = some r → ¬ c.CanView table (r.toNode uid)) :
    s.AlikeFor c table (s.setContent now uid content) where
  account _ := rfl
  noNode {uid'} h := by
    unfold setContent
    rw [Index.find?_modify]
    split
    · rename_i e
      rw [← e, h]
      rfl
    · exact h
  node {uid' r} h := by
    unfold setContent
    rw [Index.find?_modify]
    by_cases e : uid' = uid
    · subst e
      rw [if_pos rfl, h]
      exact ⟨_, rfl, rfl, rfl, rfl, rfl, rfl, fun hv => absurd hv (hidden r h)⟩
    · rw [if_neg e]
      exact ⟨r, h, rfl, rfl, rfl, rfl, rfl, fun _ => rfl⟩

section Alike

variable (h : s.AlikeFor c table t)

include h

/-- The two records of a node leave the same behind the veil. -/
theorem AlikeFor.veil_toNode {uid : String} {r : Record} (hr : s.nodes.find? uid = some r) :
    ∃ r', t.nodes.find? uid = some r' ∧ r'.children = r.children ∧
      c.veil table (r'.toNode uid) = c.veil table (r.toNode uid) := by
  obtain ⟨r', hr', hown, hperm, hgroup, hchildren, hcreated, heq⟩ := h.node hr
  refine ⟨r', hr', hchildren, ?_⟩
  by_cases hv : c.CanView table (r.toNode uid)
  · rw [heq hv]
  · have hv' : ¬ c.CanView table (r'.toNode uid) := by
      rwa [Caller.canView_congr (n := r.toNode uid) (congrArg some hown) hperm
        (congrArg some hgroup)]
    unfold Caller.veil
    rw [if_neg hv, if_neg hv, if_neg hv', if_neg hv']
    unfold Record.toNode
    rw [hown, hperm, hgroup, hcreated]

theorem AlikeFor.map_veil_node? (uid : String) :
    (t.node? uid).map (c.veil table) = (s.node? uid).map (c.veil table) := by
  unfold node?
  cases hr : s.nodes.find? uid with
  | none => rw [h.noNode hr]
  | some r =>
    obtain ⟨r', hr', -, hveil⟩ := h.veil_toNode hr
    rw [hr', Option.map_some, Option.map_some, Option.map_some, Option.map_some, hveil]

theorem AlikeFor.map_veilAll_expand? (uid : String) :
    (t.expand? uid).map (c.veilAll table) = (s.expand? uid).map (c.veilAll table) := by
  have hkids : ∀ uids : List String,
      (uids.filterMap t.node?).map (c.veil table) = (uids.filterMap s.node?).map (c.veil table) := by
    intro uids
    rw [List.map_filterMap, List.map_filterMap]
    exact List.filterMap_congr fun k _ => h.map_veil_node? k
  have hveil (n : Node) (kids : List Node) :
      c.veilAll table { n with children := kids } =
        { c.veil table n with children := kids.map (c.veil table) } := rfl
  unfold expand?
  cases hr : s.nodes.find? uid with
  | none =>
    rw [h.noNode hr]
    rfl
  | some r =>
    obtain ⟨r', hr', hchildren, hn⟩ := h.veil_toNode hr
    rw [hr', Option.map_some, Option.map_some, Option.map_some, Option.map_some, hveil, hveil, hn,
      hchildren, hkids]

/-- **The walk takes the same way** through both stores: only uids lead it. -/
theorem AlikeFor.map_veilAll_search (depth : Nat) (queue : List (String × Nat))
    (visited : List String) :
    (t.search depth queue visited).map (c.veilAll table) =
      (s.search depth queue visited).map (c.veilAll table) := by
  fun_induction search s depth queue visited with
  | case1 => rw [search]
  | case2 visited uid level queue new ih =>
    rw [search, dif_pos new]
    exact ih
  | case3 visited uid level queue new missing ih =>
    have hnone : t.expand? uid = none := by
      have he := h.map_veilAll_expand? uid
      rwa [missing, Option.map_none, Option.map_eq_none_iff] at he
    rw [search, dif_neg new]
    split
    · exact ih
    · rename_i found
      rw [hnone] at found
      cases found
  | case4 visited uid level queue new node found next ih =>
    have he := h.map_veilAll_expand? uid
    rw [found, Option.map_some, Option.map_eq_some_iff] at he
    obtain ⟨node', found', hnode⟩ := he
    -- Both stores have the same links, so the same nodes are looked at next.
    have hnext : (if level < depth then node'.children.map fun k => (k.uid, level + 1) else []) =
        next := by
      rw [Caller.map_children_of_veilAll_eq (fun uid => (uid, level + 1)) hnode]
      by_cases hl : level < depth
      · simp only [next, hl, if_true, dite_true]
      · simp only [next, hl, if_false, dite_false]
    rw [search, dif_neg new]
    split
    · rename_i missing
      rw [found'] at missing
      cases missing
    · rename_i node'' found''
      rw [found'] at found''
      cases found''
      rw [List.map_cons, List.map_cons, hnode, hnext, ih]

theorem AlikeFor.map_veilAll_query (roots : List String) (depth : Nat) :
    (t.query roots depth).map (c.veilAll table) = (s.query roots depth).map (c.veilAll table) :=
  h.map_veilAll_search _ _ _

theorem AlikeFor.nodesOf (uid : String) (relation : Relation) :
    (∃ e, s.nodesOf uid relation = .error e ∧ t.nodesOf uid relation = .error e) ∨
    ∃ nodes nodes', s.nodesOf uid relation = .ok nodes ∧ t.nodesOf uid relation = .ok nodes' ∧
      nodes'.map (c.veilAll table) = nodes.map (c.veilAll table) := by
  unfold Store.nodesOf
  rw [h.account]
  cases s.accounts.find? uid with
  | none => exact .inl ⟨_, rfl, rfl⟩
  | some a =>
    refine .inr ⟨_, _, rfl, rfl, ?_⟩
    rw [List.map_filterMap, List.map_filterMap]
    exact List.filterMap_congr fun k _ => h.map_veilAll_expand? k

end Alike

end Store

/-! ### Answers -/

/-- The answer as it would have been given at another time. -/
def Answer.givenAt (time : Timestamp) : Answer → Answer
  | .graph a => .graph { a with time := time }
  | answer => answer

section Answers

variable {c : Caller} {nodes nodes' : List Node}

/-- What comes of filtering an answer. -/
theorem Service.outcome_pack (m : Moment) (c : Caller) (nodes : List Node) (s : Server) :
    ((pack m c nodes).run s).1 =
      match s.registry.failureWithin (c.allQuestions s.registry.table nodes).length with
      | some e => .error (.access (.unavailable e))
      | none => .ok (((c.viewable s.registry.table nodes).map (c.pruned s.registry.table)).map
          (Node.stamp c.key)) := by
  obtain ⟨hok, hfail⟩ := run_inquire (Caller.settles_pack c m.instant s.registry nodes)
  unfold pack
  rw [Attempt.run_bind]
  cases hf : s.registry.failureWithin (c.allQuestions s.registry.table nodes).length with
  | some e =>
    obtain ⟨l', hr, -⟩ := hfail e hf
    rw [hr]
  | none =>
    rw [hok hf]
    rfl

/-- **The filter makes the same** of nodes that are the same behind the veil. -/
theorem Service.outcome_pack_congr (m m' : Moment) {s s' : Server}
    (hreg : s'.registry = s.registry)
    (hn : nodes'.map (c.veilAll s.registry.table) = nodes.map (c.veilAll s.registry.table)) :
    ((pack m' c nodes').run s').1 = ((pack m c nodes).run s).1 := by
  have hquestions : c.allQuestions s.registry.table nodes' =
      c.allQuestions s.registry.table nodes := by
    rw [← Caller.allQuestions_map_veilAll, hn, Caller.allQuestions_map_veilAll]
  have hshown : (c.viewable s.registry.table nodes').map (c.pruned s.registry.table) =
      (c.viewable s.registry.table nodes).map (c.pruned s.registry.table) := by
    rw [← Caller.map_pruned_viewable_map_veilAll, hn, Caller.map_pruned_viewable_map_veilAll]
  rw [outcome_pack, outcome_pack, hreg, hquestions, hshown]

namespace Call

theorem outcome_shown (m : Moment) (c : Caller) (nodes : List Node) (s : Server) :
    ((shown m c nodes).run s).1 =
      ((Service.pack m c nodes).run s).1.map fun packed => .graph ⟨packed, [], m.clock⟩ := by
  unfold shown
  rw [Attempt.run_bind]
  rcases (Service.pack m c nodes).run s with ⟨e | packed, t⟩
  · rfl
  · rfl

theorem outcome_shown_congr (m m' : Moment) {s s' : Server} (hreg : s'.registry = s.registry)
    (hn : nodes'.map (c.veilAll s.registry.table) = nodes.map (c.veilAll s.registry.table)) :
    ((shown m' c nodes').run s').1 =
      ((shown m c nodes).run s).1.map (Answer.givenAt m'.clock) := by
  rw [outcome_shown, outcome_shown, Service.outcome_pack_congr m m' hreg hn]
  rcases ((Service.pack m c nodes).run s).1 with e | packed
  · rfl
  · rfl

end Call

/-- **Hidden nodes give nothing away.** Let two servers have the same registry, whatever it will do,
and stores that differ in nothing but the contents, and the times of the last changes, of nodes that
the caller cannot view. Then every query and every listing of the caller has the same outcome at both,
but for the time that the answer tells. -/
theorem answers_alike (m m' : Moment) (s s' : Server) (hreg : s'.registry = s.registry)
    (halike : s.store.AlikeFor c s.registry.table s'.store) :
    (∀ request, (((Call.query request).perform m' c).run s').1 =
      (((Call.query request).perform m c).run s).1.map (Answer.givenAt m'.clock)) ∧
    ∀ name, (((Call.list name).perform m' c).run s').1 =
      (((Call.list name).perform m c).run s).1.map (Answer.givenAt m'.clock) := by
  constructor
  · intro request
    unfold Call.perform
    rw [Service.run_bound_bind, Service.run_bound_bind]
    cases request.bind c with
    | error e => rfl
    | ok q =>
      simp only
      split
      · rfl
      · refine Call.outcome_shown_congr m m' hreg ?_
        split
        · rfl
        · exact halike.map_veilAll_query q.roots q.depth
  · intro name
    have hrelation (r : Server) : (Service.onStore fun t => (Relation.ofName name, t)).run r =
        ((Relation.ofName name).mapError .store, r) := by
      rw [Service.run_onStore]
      rcases Relation.ofName name with e | relation
      · rfl
      · rfl
    unfold Call.perform
    rw [Attempt.run_bind, Attempt.run_bind, hrelation, hrelation]
    rcases Relation.ofName name with e | relation
    · rfl
    · simp only [Except.mapError]
      rw [Attempt.run_bind, Attempt.run_bind, Service.run_onStore, Service.run_onStore]
      rcases halike.nodesOf c.uid relation with ⟨e, h, h'⟩ | ⟨nodes, nodes', h, h', hn⟩
      · rw [h, h']
        rfl
      · rw [h, h']
        exact Call.outcome_shown_congr m m' hreg hn

end Answers

/-! ### A hidden node between two that are not -/

namespace Tunnel

/-- A node without permissions. -/
def record (owner : String) (children : List String) : Record :=
  ⟨owner, .none, "g", children, .empty, ⟨0, 0⟩, ⟨0, 0⟩⟩

/-- Two users, and three nodes that are linked one to the next; the one in between is that of the
other user. -/
def store : Store :=
  { Store.withAccounts [⟨"ann", "secret", "user", none⟩, ⟨"bob", "secret", "user", none⟩] with
    nodes := ⟨[("0x3", record "0x1" ["0x4"]), ("0x4", record "0x2" ["0x5"]),
      ("0x5", record "0x1" [])]⟩ }

/-- A server with this store. -/
def server : Server where
  gate := ⟨⟨[7], by decide⟩, 3600⟩
  maxFailures := 0
  store := store
  registry := .responsive (.empty 0)
  metrics := .empty

/-- The same server after the other user has given the node new contents. -/
def changed : Server :=
  { server with
    store := store.setContent ⟨5, 0⟩ "0x4" { Content.empty with s1 := some "private" } }

def caller : Caller := .of server.gate.master "0x1" "user" "s"

def moment : Moment := ⟨⟨9, 0⟩, 0, "", ""⟩

/-- A query from the first node on. -/
def query : QueryRequest where
  roots := [NodeDescriptor.pack caller.key.bytes ⟨"0x3", "0x1", .none⟩]
  rootQuery := none
  depth := 5

theorem alike : server.store.AlikeFor caller server.registry.table changed.store := by
  refine Store.alikeFor_setContent _ _ fun r hr => ?_
  have hr : some (record "0x2" ["0x5"]) = some r := hr
  cases hr
  decide

theorem uids_query : (server.store.query ["0x3"] 5).map Node.uid = ["0x3", "0x4", "0x5"] := by
  simp +decide [Store.query, Store.search, Store.maxDepth, Store.expand?, Store.node?, server,
    store, record, Index.find?, Index.lookupEntry, Record.toNode]

end Tunnel

/-- A query that goes through the hidden node is answered the same whatever this node holds. -/
theorem answers_alike_tunnel :
    Tunnel.changed.store ≠ Tunnel.server.store ∧
    (Tunnel.server.store.query ["0x3"] 5).map Node.uid = ["0x3", "0x4", "0x5"] ∧
    (((Call.query Tunnel.query).perform Tunnel.moment Tunnel.caller).run Tunnel.changed).1 =
      (((Call.query Tunnel.query).perform Tunnel.moment Tunnel.caller).run Tunnel.server).1.map
        (Answer.givenAt Tunnel.moment.clock) := by
  refine ⟨by decide, Tunnel.uids_query, ?_⟩
  have h := answers_alike Tunnel.moment Tunnel.moment Tunnel.server Tunnel.changed rfl Tunnel.alike
  exact h.1 Tunnel.query

end SealedGraph
