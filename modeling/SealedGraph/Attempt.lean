/-!
# Attempts

Work on a state that may fail. What was done to the state before a failure stays done.

* `run_bind_ok`, `run_bind_error`: the second of two pieces of work is done if the first succeeds.
-/

namespace SealedGraph

/-- Work on a state of `σ` that gives an `α` or fails with an `ε`. -/
def Attempt (σ ε α : Type) : Type := σ → Except ε α × σ

namespace Attempt

variable {σ ε α β : Type}

/-- The outcome of the work on a state, and the state after it. -/
def run (x : Attempt σ ε α) (s : σ) : Except ε α × σ := x s

/-- The work that a function does. -/
def of (f : σ → Except ε α × σ) : Attempt σ ε α := f

/-- No work. -/
def done (a : α) : Attempt σ ε α := fun s => (.ok a, s)

/-- No work, and a failure. -/
def fail (e : ε) : Attempt σ ε α := fun s => (.error e, s)

/-- One piece of work after the other. -/
def andThen (x : Attempt σ ε α) (f : α → Attempt σ ε β) : Attempt σ ε β := fun s =>
  match x s with
  | (.ok a, s) => f a s
  | (.error e, s) => (.error e, s)

instance : Monad (Attempt σ ε) where
  pure := done
  bind := andThen

/-- The state. -/
def state : Attempt σ ε σ := fun s => (.ok s, s)

/-- A change of the state. -/
def change (f : σ → σ) : Attempt σ ε Unit := fun s => (.ok (), f s)

/-- What is known already, one way or the other. -/
def known : Except ε α → Attempt σ ε α
  | .ok a => done a
  | .error e => fail e

/-- Work on a part of the state, with failures of its own. -/
def within {τ η : Type} (get : σ → τ) (set : τ → σ → σ) (wrap : η → ε) (x : Attempt τ η α) :
    Attempt σ ε α := fun s =>
  match x (get s) with
  | (.ok a, t) => (.ok a, set t s)
  | (.error e, t) => (.error (wrap e), set t s)

@[simp] theorem run_pure (a : α) (s : σ) : (pure a : Attempt σ ε α).run s = (.ok a, s) := rfl

theorem run_bind_ok {x : Attempt σ ε α} {f : α → Attempt σ ε β} {s s' : σ} {a : α}
    (h : x.run s = (.ok a, s')) : (x >>= f).run s = (f a).run s' := by
  simp only [run] at h
  simp [run, bind, andThen, h]

theorem run_bind_error {x : Attempt σ ε α} {f : α → Attempt σ ε β} {s s' : σ} {e : ε}
    (h : x.run s = (.error e, s')) : (x >>= f).run s = (.error e, s') := by
  simp only [run] at h
  simp [run, bind, andThen, h]

end Attempt

end SealedGraph
