import SealedGraph.Json.Shape
import SealedGraph.Proofs.Json.Text

/-!
# Records, member by member

An object whose members have different names is read as a record member by member, each of which
changes the record under construction, as long as no field has to be there.

* `members_memberDocs`: the members of an object as one fold.
* `Reads`: some members of an object take a record from one state to another.
-/

namespace SealedGraph.Json

open Value

theorem Value.memberDocs_append (ms ms' : List (String × Value)) :
    memberDocs (ms ++ ms') = memberDocs ms ++ memberDocs ms' := by
  induction ms with
  | nil => rfl
  | cons m ms ih => exact congrArg (_ :: ·) ih

theorem Value.membersNumberless_append (ms ms' : List (String × Value)) :
    membersNumberless (ms ++ ms') = (membersNumberless ms && membersNumberless ms') := by
  induction ms with
  | nil => rfl
  | cons m ms ih =>
    have hcons : ∀ ms, membersNumberless (m :: ms) = (m.2.isNumberless && membersNumberless ms) :=
      fun _ => rfl
    rw [List.cons_append, hcons, hcons, ih, Bool.and_assoc]

namespace Shape

variable {σ : Type}

/-- What a member does to a record under construction. -/
def take (fields : List (Field σ)) (other : Nat → String → Doc → σ → Except Failure σ)
    (limit : Nat) (s : σ) (m : String × Value) : Except Failure σ :=
  match fields.find? fun f => f.name = m.1 with
  | some f => f.read limit m.2.doc s
  | none => other limit m.1 m.2.doc s

variable {fields : List (Field σ)} {other : Nat → String → Doc → σ → Except Failure σ}
  {limit : Nat}

/-- **Members with different names** are read one after the other. -/
theorem members_memberDocs (hfree : ∀ f ∈ fields, f.required = false) {ms : List (String × Value)}
    (hnodup : (ms.map Prod.fst).Nodup) {seen : List String}
    (hseen : ∀ k ∈ ms.map Prod.fst, k ∉ seen) (s : σ) :
    members fields other limit seen s (memberDocs ms) = ms.foldlM (take fields other limit) s := by
  induction ms generalizing seen s with
  | nil =>
    have hall : (fields.all fun f => !f.required || seen.contains f.name) = true :=
      List.all_eq_true.2 fun f hf => by rw [hfree f hf]; rfl
    rw [memberDocs, members, if_pos hall]
    rfl
  | cons m ms ih =>
    obtain ⟨k, v⟩ := m
    obtain ⟨hk, hnodup⟩ := List.nodup_cons.1 hnodup
    obtain ⟨hkseen, hseen⟩ := List.forall_mem_cons.1 hseen
    rw [List.foldlM_cons, memberDocs, members, take]
    cases fields.find? fun f => f.name = k with
    | none =>
      simp only
      cases other limit k v.doc s with
      | error e => rfl
      | ok s => exact ih hnodup hseen s
    | some f =>
      have hcontains : ¬ seen.contains k = true := fun h => hkseen (List.contains_iff_mem.1 h)
      simp only [if_neg hcontains]
      cases f.read limit v.doc s with
      | error e => rfl
      | ok s =>
        refine ih hnodup (fun l hl h => ?_) s
        rcases List.mem_cons.1 h with rfl | h
        · exact hk hl
        · exact hseen l hl h

/-- The members take a record under construction from `s` to `s'`. -/
def Reads (fields : List (Field σ)) (other : Nat → String → Doc → σ → Except Failure σ)
    (limit : Nat) (s : σ) (ms : List (String × Value)) (s' : σ) : Prop :=
  ms.foldlM (take fields other limit) s = .ok s'

namespace Reads

variable {s s' s'' : σ} {ms ms' : List (String × Value)}

theorem nil : Reads fields other limit s [] s := rfl

theorem cons {m : String × Value} (hm : take fields other limit s m = .ok s')
    (h : Reads fields other limit s' ms s'') : Reads fields other limit s (m :: ms) s'' := by
  unfold Reads at h ⊢
  rw [List.foldlM_cons, hm]
  exact h

theorem append (h : Reads fields other limit s ms s') (h' : Reads fields other limit s' ms' s'') :
    Reads fields other limit s (ms ++ ms') s'' := by
  unfold Reads at h h' ⊢
  rw [List.foldlM_append, h]
  exact h'

end Reads

end Shape

/-- A value without numbers is read from its text as from its document. -/
theorem read_render {α : Type} {shape : Shape α} {v : Value} {x : α}
    (hv : v.isNumberless = true) (h : shape maxNesting v.doc = .ok x) :
    read shape v.render = .ok x := by
  unfold read
  rw [Doc.build_render hv]
  simp only [h]
  rfl

end SealedGraph.Json
