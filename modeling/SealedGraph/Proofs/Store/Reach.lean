import Mathlib.Data.Nat.Find
import SealedGraph.Proofs.Store.Share

/-!
# What is reached along links

Which nodes are reached from some roots, and with how few links. Nothing here is about how anything
is searched for.

* `Store.Reached`: a node is reached from roots with a number of links.
* `Store.Distance`: the fewest links that lead to a node.
* `Store.Whole`: no link leads to a uid that no node has.
-/

namespace SealedGraph.Store

/-- A uid is reached with a number of links from one of the roots, which has to be there. -/
inductive Reached (s : Store) (roots : List String) : Nat → String → Prop
  | root {uid : String} : uid ∈ roots → s.hasNode uid = true → Reached s roots 0 uid
  | link {n : Nat} {a b : String} : Reached s roots n a → s.Links a b → Reached s roots (n + 1) b

/-- The fewest links that lead from one of the roots to a uid. -/
def Distance (s : Store) (roots : List String) (uid : String) (k : Nat) : Prop :=
  s.Reached roots k uid ∧ ∀ j, s.Reached roots j uid → k ≤ j

/-- Every uid that a node links to is that of a node. -/
def Whole (s : Store) : Prop :=
  ∀ uid r, s.nodes.find? uid = some r → ∀ c ∈ r.children, s.hasNode c = true

/-- A node to create, with the placeholders that it links to and nothing else. -/
def draft (placeholder : String) (links : List String) : Node :=
  ⟨placeholder, none, none, .none, none,
    links.map fun uid => ⟨uid, none, none, .none, none, [], .empty, none, none⟩, .empty, none, none⟩

variable {s : Store} {roots : List String} {uid : String} {n : Nat}

theorem Links.source {a b : String} (h : s.Links a b) : s.hasNode a = true := by
  obtain ⟨r, hr, -⟩ := h
  exact Index.contains_iff.2 ⟨r, hr⟩

theorem Reached.hasNode (whole : s.Whole) (h : s.Reached roots n uid) : s.hasNode uid = true := by
  cases h with
  | root _ h => exact h
  | link _ h =>
    obtain ⟨r, hr, hc⟩ := h
    exact whole _ r hr _ hc

/-- **What is reached has a distance**. -/
theorem Reached.distance (h : s.Reached roots n uid) : ∃ k ≤ n, s.Distance roots uid k := by
  classical
  have reached : ∃ k, s.Reached roots k uid := ⟨n, h⟩
  exact ⟨Nat.find reached, Nat.find_min' reached h, Nat.find_spec reached,
    fun _ => Nat.find_min' reached⟩

theorem Distance.unique {k k' : Nat} (h : s.Distance roots uid k) (h' : s.Distance roots uid k') :
    k = k' :=
  Nat.le_antisymm (h.2 _ h'.1) (h'.2 _ h.1)

end SealedGraph.Store
