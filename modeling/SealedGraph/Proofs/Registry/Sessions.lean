import SealedGraph.Proofs.Registry.Link

/-!
# Active sessions

Which sessions are active after an operation of the registry, for every session alike.

* `hasSession_addSession`, `hasSession_deleteSession`, `hasSession_purgeSessions`.
* `Link.Calm`: what calls that are not about sessions do to a link.
-/

namespace SealedGraph.Registry

/-! ### Sets -/

theorem mem_foldl_addTo {xs set : List String} {x : String} :
    x ∈ xs.foldl (fun set x => addTo x set) set ↔ x ∈ set ∨ x ∈ xs := by
  induction xs generalizing set with
  | nil => simp
  | cons y ys ih =>
    rw [List.foldl_cons, ih, List.mem_cons, ← or_assoc]
    refine or_congr_left ?_
    unfold addTo
    split
    · rename_i h
      rw [List.contains_iff_mem] at h
      constructor
      · exact .inl
      · rintro (h' | rfl)
        · exact h'
        · exact h
    · rw [List.mem_append, List.mem_singleton]

/-- Nothing comes in that is there already. -/
theorem foldl_addTo_of_subset {xs set : List String} (h : ∀ x ∈ xs, x ∈ set) :
    xs.foldl (fun set x => addTo x set) set = set := by
  induction xs with
  | nil => rfl
  | cons y ys ih =>
    have hy : addTo y set = set := by
      unfold addTo
      rw [if_pos (List.contains_iff_mem.2 (h y (by simp)))]
    rw [List.foldl_cons, hy]
    exact ih fun x hx => h x (List.mem_cons_of_mem _ hx)

/-! ### One operation -/

theorem find?_shrink (key key' : String) (f : List String → List String) (m : Index (List String)) :
    ((shrink key f m).find? key').getD [] =
      if key' = key then ((m.find? key).map f).getD [] else (m.find? key').getD [] := by
  unfold shrink
  cases h : m.find? key with
  | none =>
    by_cases e : key' = key
    · simp [e, h]
    · simp [e]
  | some set =>
    simp only
    split
    · rename_i he
      by_cases e : key' = key
      · simp [e, List.isEmpty_iff.1 he]
      · simp [e]
    · by_cases e : key' = key
      · simp [e]
      · simp [e]

namespace Table

variable (t : Table) (uid session uid' session' : String)

theorem hasSession_iff :
    t.hasSession uid session = true ↔ session ∈ (t.sessions.find? uid).getD [] := by
  rw [hasSession, List.contains_iff_mem]

/-- **A session that is entered** is active, and so are those that were. -/
theorem hasSession_addSession :
    (t.addSession uid session).hasSession uid' session' = true ↔
      t.hasSession uid' session' = true ∨
        (uid ≠ "" ∧ session ≠ "" ∧ uid' = uid ∧ session' = session) := by
  unfold addSession
  by_cases h : (uid.isEmpty || session.isEmpty) = true
  · rw [if_pos h]
    rw [Bool.or_eq_true, String.isEmpty_iff, String.isEmpty_iff] at h
    constructor
    · exact .inl
    · rintro (h' | ⟨hu, hs, -, -⟩)
      · exact h'
      · exact absurd h (by simp [hu, hs])
  · rw [if_neg h]
    rw [Bool.or_eq_true, String.isEmpty_iff, String.isEmpty_iff, not_or] at h
    rw [hasSession_iff, hasSession_iff]
    simp only [Index.find?_insert]
    by_cases e : uid' = uid
    · subst e
      simp only [if_true, Option.getD_some, addTo]
      split
      · rename_i hc
        rw [List.contains_iff_mem] at hc
        constructor
        · exact .inl
        · rintro (h' | ⟨-, -, -, rfl⟩)
          · exact h'
          · exact hc
      · simp [h]
    · simp [e]

/-- **A session that is deleted** is not active any more; all others stay as they are. -/
theorem hasSession_deleteSession :
    (t.deleteSession uid session).hasSession uid' session' = true ↔
      t.hasSession uid' session' = true ∧ ¬ (uid' = uid ∧ session' = session) := by
  rw [hasSession_iff, hasSession_iff]
  unfold deleteSession
  rw [find?_shrink]
  by_cases e : uid' = uid
  · subst e
    cases t.sessions.find? uid' with
    | none => simp
    | some set => simp
  · simp [e]

/-- **The sessions of one user** are not active any more; all others stay as they are. -/
theorem hasSession_purgeSessions :
    (t.purgeSessions uid).hasSession uid' session' = true ↔
      t.hasSession uid' session' = true ∧ uid' ≠ uid := by
  rw [hasSession_iff, hasSession_iff]
  unfold purgeSessions
  simp only [Index.find?_erase]
  by_cases e : uid' = uid
  · simp [e]
  · simp [e]

end Table

/-! ### Calls that are not about sessions -/

namespace Link

/-- The registry answers if it did so before, and no session was touched. -/
structure Calm (l l' : Link) : Prop where
  responsive : l.isResponsive = true → l'.isResponsive = true
  sessions : l'.table.sessions = l.table.sessions

theorem Calm.refl (l : Link) : Calm l l := ⟨id, rfl⟩

theorem Calm.trans {l l' l'' : Link} (h : Calm l l') (h' : Calm l' l'') : Calm l l'' :=
  ⟨fun hr => h'.responsive (h.responsive hr), h'.sessions.trans h.sessions⟩

theorem Calm.hasSession {l l' : Link} (h : Calm l l') (uid session : String) :
    l'.table.hasSession uid session = l.table.hasSession uid session := by
  unfold Table.hasSession
  rw [h.sessions]

theorem Told.calm {parts : List Part} {l l' : Link} (h : Told parts l l')
    (hp : Part.sessions ∉ parts) : Calm l l' :=
  ⟨h.isResponsive, h.same hp⟩

end Link

end SealedGraph.Registry
