import SealedGraph.Fresh
import SealedGraph.Proofs.Envelope
import SealedGraph.Proofs.Registry.Sessions

/-!
# Open groups

Which groups are open to whom after an operation of the registry. Groups travel as one text with
commas in it, and so what arrives is what was sent only if no group is empty or has a comma in it.
The ids that are made for new groups are not, and have none.

* `hasGroup_allow`, `hasGroup_revoke`: the groups of a list are opened and closed, for one user.
* `listEntries_listOf`, `isGroup_groupId`: what arrives is what was sent.
* `groups_apply`: nothing else opens or closes a group.
-/

namespace SealedGraph.Registry

/-! ### Lists of groups -/

/-- A text that can be an entry of a list of groups. -/
def IsGroup (g : String) : Prop := g ≠ "" ∧ listSeparator ∉ g.toList

instance (g : String) : Decidable (IsGroup g) := inferInstanceAs (Decidable (_ ∧ _))

theorem isEmpty_toList_eq_false {s : String} (h : s ≠ "") : s.toList.isEmpty = false := by
  rw [List.isEmpty_eq_false_iff]
  intro e
  exact h (String.toList_inj.1 e)

/-- **What arrives is what was sent**, if all of it can be sent. -/
theorem listEntries_listOf {groups : List String} (h : ∀ g ∈ groups, IsGroup g) :
    listEntries (listOf groups) = groups := by
  have hback : (groups.map String.toList).map String.ofList = groups := by
    rw [List.map_map]
    have : String.ofList ∘ String.toList = id := funext fun s => String.ofList_toList
    rw [this, List.map_id]
  unfold listEntries listOf
  rw [String.toList_ofList]
  rcases groups with _ | ⟨g, gs⟩
  · -- No groups are sent as the empty text, which has one entry, and that one is empty.
    rfl
  · rw [Text.split_join (by simp) (by simpa using fun g hg => (h g hg).2), List.filter_eq_self.2]
    · exact hback
    · intro e he
      obtain ⟨g', hg', rfl⟩ := List.mem_map.1 he
      rw [isEmpty_toList_eq_false (h g' hg').1, Bool.not_false]

theorem ne_empty_of_mem_listEntries {list g : String} (h : g ∈ listEntries list) : g ≠ "" := by
  obtain ⟨e, he, rfl⟩ := List.mem_map.1 h
  have hne := (List.mem_filter.1 he).2
  rintro h
  have := congrArg String.toList h
  rw [String.toList_ofList] at this
  rw [this] at hne
  cases hne

/-- **The ids of new groups** can be sent. -/
theorem isGroup_groupId (millis : Nat) (random : List UInt8) :
    IsGroup (Fresh.groupId millis random) := by
  unfold IsGroup Fresh.groupId
  rw [String.toList_ofList]
  constructor
  · intro h
    have h := congrArg String.toList h
    rw [String.toList_ofList] at h
    cases h
  · intro h
    obtain ⟨n, hn, e⟩ := Base64Url.isSymbol_of_mem_encode h
    have hcomma : ∀ n < 64, Base64Url.symbol n ≠ listSeparator := by decide
    exact hcomma n hn e.symm

/-! ### One operation -/

namespace Table

variable (t : Table) (uid list uid' g : String)

theorem hasGroup_iff :
    t.hasGroup uid g = true ↔ g ≠ "" ∧ g ∈ (t.groups.find? uid).getD [] := by
  rw [hasGroup, Bool.and_eq_true, List.contains_iff_mem, Bool.not_eq_true',
    String.isEmpty_eq_false_iff]

/-- **The groups of a list are opened to a user**; all others stay as they are. -/
theorem hasGroup_allow :
    (t.allow uid list).hasGroup uid' g = true ↔
      t.hasGroup uid' g = true ∨ (uid ≠ "" ∧ uid' = uid ∧ g ∈ listEntries list) := by
  unfold allow
  by_cases h : (uid.isEmpty || (listEntries list).isEmpty) = true
  · simp only [h, if_true]
    rw [Bool.or_eq_true, String.isEmpty_iff, List.isEmpty_iff] at h
    constructor
    · exact .inl
    · rintro (h' | ⟨hu, -, hg⟩)
      · exact h'
      · rcases h with h | h
        · exact absurd h hu
        · rw [h] at hg
          cases hg
  · simp only [h]
    rw [Bool.or_eq_true, String.isEmpty_iff, not_or] at h
    rw [hasGroup_iff, hasGroup_iff]
    by_cases e : uid' = uid
    · subst e
      simp only [Bool.false_eq_true, if_false, Index.find?_insert, if_true, Option.getD_some,
        mem_foldl_addTo, true_and]
      constructor
      · rintro ⟨hne, hg | hg⟩
        · exact .inl ⟨hne, hg⟩
        · exact .inr ⟨h.1, hg⟩
      · rintro (⟨hne, hg⟩ | ⟨-, hg⟩)
        · exact ⟨hne, .inl hg⟩
        · exact ⟨ne_empty_of_mem_listEntries hg, .inr hg⟩
    · simp [e]

/-- **The groups of a list are closed to a user**; all others stay as they are. -/
theorem hasGroup_revoke :
    (t.revoke uid list).hasGroup uid' g = true ↔
      t.hasGroup uid' g = true ∧ ¬ (uid' = uid ∧ g ∈ listEntries list) := by
  rw [hasGroup_iff, hasGroup_iff]
  unfold revoke
  simp only [find?_shrink]
  by_cases e : uid' = uid
  · subst e
    cases t.groups.find? uid' with
    | none => simp
    | some set => simp [and_assoc]
  · simp [e]

end Table

/-! ### Operations that are not about groups -/

/-- Whether an operation opens or closes groups. -/
def Operation.changesGroups : {k : Kind} → Operation k → Bool
  | _, .allow _ _ => true
  | _, .revoke _ _ => true
  | _, _ => false

theorem Operation.groups_apply {k : Kind} {op : Operation k} (h : op.changesGroups = false) (now : Nat)
    (t : Table) : (op.apply now t).2.groups = t.groups := by
  refine op.same_apply (p := .groups) (fun hw => ?_) now t
  cases op with
  | allow uid list => cases h
  | revoke uid list => cases h
  | _ => cases hw

namespace Link

/-- **A call that is answered** has been done. -/
theorem of_call_eq_ok {k : Kind} {l l' : Link} {now : Nat} {op : Operation k} {v : k.Value}
    (h : l.call now op = (.ok v, l')) :
    v = (op.apply now l.table).1 ∧ l'.table = (op.apply now l.table).2 := by
  unfold call at h
  simp only at h
  split at h
  · cases h
    exact ⟨rfl, rfl⟩
  · cases h
  · cases h

end Link

end SealedGraph.Registry
