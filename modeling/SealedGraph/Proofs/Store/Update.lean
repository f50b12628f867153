import SealedGraph.Proofs.Store.Basic
import SealedGraph.Store.Update

/-!
# What changes of stored nodes touch

* `alters_update`: new contents go to the named nodes alone.
* `alters_addEdges`, `alters_removeEdges`: links are made and cut only between the named nodes, and
  only in the named directions.
-/

namespace SealedGraph.Store

variable {W : String → Prop} {E : String → String → Prop}

/-! ### Contents -/

theorem alters_setContent (now : Timestamp) (uid : String) (content : Content) (s : Store) :
    Alters (· = uid) E s (s.setContent now uid content) := by
  unfold setContent
  refine alters_modify uid _ (fun r => ?_) s
  exact ⟨rfl, rfl, rfl, rfl, fun _ => rfl, fun _ => .inl Iff.rfl⟩

theorem Alters.mono {W' : String → Prop} {E' : String → String → Prop} {s t : Store}
    (h : Alters W E s t) (hW : ∀ u, W u → W' u) (hE : ∀ u v, E u v → E' u v) :
    Alters W' E' s t where
  lastUid := h.lastUid
  accounts := h.accounts
  usernames := h.usernames
  node hr := by
    obtain ⟨r', hr', ha⟩ := h.node hr
    refine ⟨r', hr', ha.owner, ha.permissions, ha.group, ha.created, fun hc => hW _ (ha.content hc),
      fun target => ?_⟩
    exact (ha.link target).imp_right (hE _ _)
  noNode hn := h.noNode hn

theorem alters_applyContents (now : Timestamp) (nodes : List Node) (s : Store) :
    Alters (· ∈ nodes.map Node.uid) E s (applyContents now nodes s).2 := by
  induction nodes generalizing s with
  | nil => exact .refl s
  | cons n ns ih =>
    have h₁ := alters_setContent (E := E) now n.uid n.content s
    have h₂ := ih (s.setContent now n.uid n.content)
    refine (h₁.mono ?_ fun _ _ h => h).trans (h₂.mono ?_ fun _ _ h => h)
    · rintro u rfl
      simp
    · intro u hu
      exact List.mem_cons_of_mem _ hu

/-- **New contents** go to the nodes that they are for. -/
theorem alters_update (now : Timestamp) (nodes : List Node) (s : Store) :
    Alters (· ∈ nodes.map Node.uid) E s (s.update now nodes).2 := by
  unfold update
  split
  · exact .refl s
  · exact alters_applyContents now nodes s

/-! ### Links -/

theorem alters_link (now : Timestamp) (source target : String) (s : Store) :
    Alters W (fun x y => x = source ∧ y = target) s (s.link now source target) := by
  unfold link
  refine alters_modify source _ (fun r => ?_) s
  refine ⟨rfl, rfl, rfl, rfl, fun h => absurd rfl h, fun y => ?_⟩
  by_cases hy : y = target
  · exact .inr ⟨rfl, hy⟩
  · left
    simp only
    split
    · exact Iff.rfl
    · simp [hy]

theorem alters_unlink (now : Timestamp) (source target : String) (s : Store) :
    Alters W (fun x y => x = source ∧ y = target) s (s.unlink now source target) := by
  unfold unlink
  refine alters_modify source _ (fun r => ?_) s
  split
  · refine ⟨rfl, rfl, rfl, rfl, fun h => absurd rfl h, fun y => ?_⟩
    by_cases hy : y = target
    · exact .inr ⟨rfl, hy⟩
    · left
      simp [hy]
  · exact .refl _ _

theorem mem_edges {subjects incoming outgoing : List String} {x y : String} :
    (x, y) ∈ edges subjects incoming outgoing ↔
      x ∈ incoming ∧ y ∈ subjects ∨ x ∈ subjects ∧ y ∈ outgoing := by
  unfold edges
  simp only [List.mem_flatMap, List.mem_append, List.mem_map, Prod.mk.injEq]
  constructor
  · rintro ⟨z, hz, ⟨w, hw, rfl, rfl⟩ | ⟨w, hw, rfl, rfl⟩⟩
    · exact .inl ⟨hw, hz⟩
    · exact .inr ⟨hz, hw⟩
  · rintro (⟨hx, hy⟩ | ⟨hx, hy⟩)
    · exact ⟨y, hy, .inl ⟨x, hx, rfl, rfl⟩⟩
    · exact ⟨x, hx, .inr ⟨y, hy, rfl, rfl⟩⟩

variable (now : Timestamp) (subjects incoming outgoing : List String) (s : Store)

/-- **New links** go from incoming nodes to the subjects, and from these to the outgoing ones. -/
theorem alters_addEdges :
    Alters W (fun x y => (x, y) ∈ edges subjects incoming outgoing) s
      (s.addEdges now subjects incoming outgoing).2 := by
  unfold addEdges
  split
  · exact .refl s
  · split
    · exact .refl s
    · refine alters_foldl (fun e he t => ?_) s
      refine (alters_link now e.1 e.2 t).mono (fun _ h => h) ?_
      rintro x y ⟨rfl, rfl⟩
      exact he

/-- **Links are cut** where they would be made. -/
theorem alters_removeEdges :
    Alters W (fun x y => (x, y) ∈ edges subjects incoming outgoing) s
      (s.removeEdges now subjects incoming outgoing).2 := by
  unfold removeEdges
  split
  · exact .refl s
  · refine alters_foldl (fun e he t => ?_) s
    refine (alters_unlink now e.1 e.2 t).mono (fun _ h => h) ?_
    rintro x y ⟨rfl, rfl⟩
    exact he

end SealedGraph.Store
