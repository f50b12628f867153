import SealedGraph.Store.Basic

/-!
# Queries

The nodes that a user owns or has been given, and the nodes that are reached from some roots within
a number of links, breadth first. Each node is found once, however many ways lead to it.
-/

namespace SealedGraph.Store

/-- The most links that a query follows. -/
def maxDepth : Nat := 20

/-- The number of stored nodes that are not among some uids. -/
def unvisited (visited : List String) (entries : List (String × Record)) : Nat :=
  entries.countP fun e => !visited.contains e.1

theorem unvisited_cons_le (uid : String) (visited : List String) (es : List (String × Record)) :
    unvisited (uid :: visited) es ≤ unvisited visited es :=
  List.countP_mono_left fun e _ h => by
    simp only [List.contains_cons, Bool.not_or, Bool.and_eq_true] at h
    exact h.2

theorem unvisited_cons_lt {uid : String} {visited : List String} {es : List (String × Record)}
    (new : visited.contains uid = false) (stored : (Index.lookupEntry uid es).isSome) :
    unvisited (uid :: visited) es < unvisited visited es := by
  induction es with
  | nil => simp [Index.lookupEntry] at stored
  | cons e es ih =>
    by_cases h : e.1 = uid
    · have := unvisited_cons_le uid visited es
      subst h
      simp only [unvisited, List.countP_cons, new, List.contains_cons, beq_self_eq_true,
        Bool.true_or, Bool.not_true, Bool.not_false, if_true, Bool.false_eq_true, if_false] at *
      omega
    · simp only [Index.lookupEntry, h, if_false] at stored
      have := ih stored
      have h' : (e.1 == uid) = false := by simpa using h
      simp only [unvisited, List.countP_cons, List.contains_cons, h', Bool.false_or] at *
      omega

/-- The nodes that are found when the uids in `queue`, each with the number of links that led to it,
are still to be looked at and those in `visited` have been. -/
def search (s : Store) (depth : Nat) (queue : List (String × Nat)) (visited : List String) :
    List Node :=
  match queue with
  | [] => []
  | (uid, level) :: queue =>
    if _new : visited.contains uid then search s depth queue visited
    else
      match _found : s.expand? uid with
      | none => search s depth queue (uid :: visited)
      | some node =>
        let next := if level < depth then node.children.map fun c => (c.uid, level + 1) else []
        node :: search s depth (queue ++ next) (uid :: visited)
termination_by (unvisited visited s.nodes.entries, queue.length)
decreasing_by
  · exact Prod.Lex.right _ (Nat.lt_succ_self _)
  · rcases Nat.lt_or_eq_of_le (unvisited_cons_le uid visited s.nodes.entries) with h | h
    · exact Prod.Lex.left _ _ h
    · rw [h]; exact Prod.Lex.right _ (Nat.lt_succ_self _)
  · refine Prod.Lex.left _ _ (unvisited_cons_lt (by simpa using _new) ?_)
    rw [expand?, Option.map_eq_some_iff] at _found
    obtain ⟨r, h, -⟩ := _found
    exact Option.isSome_iff_exists.2 ⟨r, h⟩

/-- The nodes within a number of links of the roots, each with its direct children. Roots that the
store does not have are passed over. -/
def query (s : Store) (roots : List String) (depth : Nat) : List Node :=
  s.search (min depth maxDepth) (roots.map fun uid => (uid, 0)) []

/-- The nodes with a relation to a user, each with its direct children. -/
def nodesOf (s : Store) (uid : String) (relation : Relation) : Except StoreError (List Node) :=
  match s.accounts.find? uid with
  | some a => .ok ((a.related relation).filterMap s.expand?)
  | none => .error (.noUser uid)

end SealedGraph.Store
