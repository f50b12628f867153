import SealedGraph.Proofs.Store.Update
import SealedGraph.Store.Query

/-!
# Nodes that the store gives out

Whatever the store gives out shows the owners and permissions that it has.

* `expand?_of_mem_search`, `expand?_of_mem_nodesOf`: nodes that are listed are looked up one by one.
* `mirrors_query`, `mirrors_nodesOf`: so they are shown as they are stored.
* `mirrors_update`: nodes that were just changed.
-/

namespace SealedGraph.Store

variable {s : Store}

/-- **What a search finds** is looked up under its uid. -/
theorem expand?_of_mem_search {depth : Nat} {queue : List (String × Nat)} {visited : List String}
    {n : Node} (h : n ∈ s.search depth queue visited) : s.expand? n.uid = some n := by
  fun_induction search s depth queue visited with
  | case1 => cases h
  | case2 _ _ _ _ _ ih => exact ih h
  | case3 _ _ _ _ _ _ ih => exact ih h
  | case4 visited uid level queue _ node found next ih =>
    rcases List.mem_cons.1 h with rfl | h
    · obtain ⟨r, hr, rfl⟩ := Option.map_eq_some_iff.1 found
      exact found
    · exact ih h

theorem expand?_of_mem_nodesOf {uid : String} {relation : Relation} {nodes : List Node}
    (h : s.nodesOf uid relation = .ok nodes) {n : Node} (hn : n ∈ nodes) :
    s.expand? n.uid = some n := by
  unfold nodesOf at h
  split at h
  · cases h
    obtain ⟨u, -, hu⟩ := List.mem_filterMap.1 hn
    obtain ⟨r, hr, rfl⟩ := Option.map_eq_some_iff.1 hu
    exact hu
  · cases h

theorem mirrors_query {roots : List String} {depth : Nat} {n : Node}
    (h : n ∈ s.query roots depth) : MirrorsAll s n :=
  mirrorsAll_of_expand? (expand?_of_mem_search h)

theorem mirrors_nodesOf {uid : String} {relation : Relation} {nodes : List Node}
    (h : s.nodesOf uid relation = .ok nodes) {n : Node} (hn : n ∈ nodes) : MirrorsAll s n :=
  mirrorsAll_of_expand? (expand?_of_mem_nodesOf h hn)

theorem mirrors_applyContents {now : Timestamp} {nodes : List Node} {n : Node}
    (h : n ∈ (applyContents now nodes s).1) : MirrorsAll (applyContents now nodes s).2 n := by
  induction nodes generalizing s with
  | nil => cases h
  | cons k ks ih =>
    have hext := (alters_applyContents (E := fun _ _ => False) now ks
      (s.setContent now k.uid k.content)).extends
    rcases List.mem_append.1 h with h | h
    · rw [Option.mem_toList] at h
      exact (mirrorsAll_of_node? h).extends hext
    · exact ih h

theorem mirrors_update {now : Timestamp} {nodes updated : List Node} {t : Store}
    (h : s.update now nodes = (.ok updated, t)) {n : Node} (hn : n ∈ updated) :
    t.MirrorsAll n := by
  unfold update at h
  split at h
  · cases h
  · cases h
    exact mirrors_applyContents hn

end SealedGraph.Store
