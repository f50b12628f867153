import SealedGraph.Attempt

/-!
# Running attempts

What an attempt comes to, piece by piece. With these lemmas no proof has to look into the
definitions of `Attempt`.

* `run_bind`, `run_bind_eq_ok`: an attempt in two pieces.
* `run_within`: work on a part of the state changes that part alone.
* `run_forM`, `run_mapM`: work on the elements of a list, none of which fails.
* `Keeps`: what work leaves alone, whether it fails or not.
-/

namespace SealedGraph.Attempt

variable {σ τ ε η α β : Type}

theorem run_bind (x : Attempt σ ε α) (f : α → Attempt σ ε β) (s : σ) :
    (x >>= f).run s =
      match x.run s with
      | (.ok a, t) => (f a).run t
      | (.error e, t) => (.error e, t) := rfl

/-- **Both pieces of what succeeds succeed.** -/
theorem run_bind_eq_ok {x : Attempt σ ε α} {f : α → Attempt σ ε β} {s t : σ} {b : β}
    (h : (x >>= f).run s = (.ok b, t)) :
    ∃ a u, x.run s = (.ok a, u) ∧ (f a).run u = (.ok b, t) := by
  rw [run_bind] at h
  rcases hr : x.run s with ⟨e | a, u⟩
  · rw [hr] at h
    cases h
  · rw [hr] at h
    exact ⟨a, u, rfl, h⟩

theorem run_pure_eq_ok {a b : α} {s t : σ} (h : (pure a : Attempt σ ε α).run s = (.ok b, t)) :
    b = a ∧ t = s := by
  cases h
  exact ⟨rfl, rfl⟩

theorem run_bind_state (f : σ → Attempt σ ε α) (s : σ) : (state >>= f).run s = (f s).run s := rfl

@[simp] theorem run_change (f : σ → σ) (s : σ) :
    (change f : Attempt σ ε Unit).run s = (.ok (), f s) := rfl

@[simp] theorem run_of (f : σ → Except ε α × σ) (s : σ) : (of f).run s = f s := rfl

theorem run_within (get : σ → τ) (set : τ → σ → σ) (wrap : η → ε) (x : Attempt τ η α) (s : σ) :
    (within get set wrap x).run s =
      match x.run (get s) with
      | (.ok a, t) => (.ok a, set t s)
      | (.error e, t) => (.error (wrap e), set t s) := by
  unfold run within
  rcases x (get s) with ⟨_ | _, t⟩
  · rfl
  · rfl

@[simp] theorem run_known (x : Except ε α) (s : σ) :
    (known x : Attempt σ ε α).run s = (x, s) := by
  cases x with
  | error e => rfl
  | ok a => rfl

/-! ### Lists -/

instance : LawfulMonad (Attempt σ ε) :=
  LawfulMonad.mk' (Attempt σ ε)
    (fun x => by
      funext s
      show (x >>= pure).run s = x.run s
      rw [run_bind]
      rcases x.run s with ⟨e | a, t⟩
      · rfl
      · rfl)
    (fun a f => rfl)
    (fun x f g => by
      funext s
      show (x >>= f >>= g).run s = (x >>= fun a => f a >>= g).run s
      rw [run_bind, run_bind, run_bind]
      rcases x.run s with ⟨e | a, t⟩
      · rfl
      · rfl)

section Lists

variable {P : σ → Prop} {put : α → σ → σ} {xs : List α} {s : σ}

/-- **Work on each element of a list** that never fails as long as `P` holds, and keeps it so. -/
theorem run_forM {f : α → Attempt σ ε PUnit}
    (step : ∀ x ∈ xs, ∀ s, P s → (f x).run s = (.ok ⟨⟩, put x s) ∧ P (put x s)) (hs : P s) :
    (xs.forM f).run s = (.ok ⟨⟩, xs.foldl (fun s x => put x s) s) := by
  induction xs generalizing s with
  | nil => rfl
  | cons x xs ih =>
    obtain ⟨hx, hput⟩ := step x (by simp) s hs
    rw [List.forM, run_bind_ok hx]
    exact ih (fun y hy => step y (List.mem_cons_of_mem _ hy)) hput

/-- The same, if the work on an element gives something that does not depend on the state. -/
theorem run_mapM {f : α → Attempt σ ε β} {give : α → β}
    (step : ∀ x ∈ xs, ∀ s, (f x).run s = (.ok (give x), put x s)) :
    (xs.mapM f).run s = (.ok (xs.map give), xs.foldl (fun s x => put x s) s) := by
  induction xs generalizing s with
  | nil => rfl
  | cons x xs ih =>
    rw [List.mapM_cons, run_bind_ok (step x (by simp) s),
      run_bind_ok (ih fun y hy => step y (List.mem_cons_of_mem _ hy))]
    rfl

end Lists

/-! ### What stays as it is -/

/-- Whatever comes of the work, it leaves a part of the state alone. -/
def Keeps {γ : Type} (π : σ → γ) (x : Attempt σ ε α) : Prop := ∀ s, π (x.run s).2 = π s

section Keeps

variable {γ : Type} {π : σ → γ}

theorem keeps_pure (a : α) : Keeps π (pure a : Attempt σ ε α) := fun _ => rfl

theorem keeps_fail (e : ε) : Keeps π (fail e : Attempt σ ε α) := fun _ => rfl

theorem keeps_state : Keeps π (state : Attempt σ ε σ) := fun _ => rfl

/-- What comes after the last change does not matter. -/
theorem keeps_after {f : α → Attempt σ ε β} (hf : ∀ a, Keeps π (f a)) (x : Attempt σ ε α) (s : σ) :
    π ((x >>= f).run s).2 = π (x.run s).2 := by
  rw [run_bind]
  rcases x.run s with ⟨e | a, t⟩
  · rfl
  · exact hf a t

theorem Keeps.bind {x : Attempt σ ε α} {f : α → Attempt σ ε β} (hx : Keeps π x)
    (hf : ∀ a, Keeps π (f a)) : Keeps π (x >>= f) :=
  fun s => (keeps_after hf x s).trans (hx s)

end Keeps

end SealedGraph.Attempt
