import SealedGraph.Proofs.Http.Exchange
import SealedGraph.Proofs.Server.Minted

/-!
# What is true after any requests

* `sound_run`: a store that came out of an empty one stays sound.
* `minted_run`: every token that was ever handed out is minted in the store as it is now.
-/

namespace SealedGraph.Http

open Attempt

/-- The tokens of descriptors in what was answered. -/
def Exchange.tokens (x : Exchange) : List String :=
  match x.outcome with
  | .call _ _ (.ok answer) => answer.tokens
  | _ => []

section Step

variable {m : Moment} {r : Request} {s : Server}

/-- **One request** takes nothing back and leaves the store sound. -/
theorem evolves_serve (hs : s.store.Sound) : s.store.Evolves (serve m r s).2.store := by
  rw [store_serve]
  split
  · exact Call.evolves_effect hs m _ _
  · exact ⟨.refl _, hs⟩

/-- **The tokens handed out for one request** are minted. -/
theorem minted_serve {v : Visit} {token : String} (ht : token ∈ (exchange s v).tokens) :
    Minted (serve v.moment v.request s).2.store token := by
  unfold Exchange.tokens exchange at ht
  rcases serve_cases v.moment v.request s with ⟨_, h⟩ | ⟨_, h⟩ | ⟨_, h⟩ | ⟨c, call, s', -, -, h⟩
  · rw [h] at ht
    cases ht
  · rw [h] at ht
    cases ht
  · rw [h] at ht
    cases ht
  · rw [h] at ht ⊢
    simp only at ht ⊢
    rcases hp : (call.perform v.moment c).run s' with ⟨e | answer, t⟩
    · rw [hp] at ht
      cases ht
    · rw [hp] at ht
      exact Call.minted_perform hp token ht

end Step

section Run

variable {s : Server} (hs : s.store.Sound) (visits : List Visit)

include hs

theorem sound_run : (run s visits).store.Sound := by
  induction visits using List.reverseRecOn with
  | nil => exact hs
  | append_singleton vs v ih =>
    rw [run_concat]
    exact (evolves_serve ih).sound

/-- **Nothing is taken back** by any requests. -/
theorem extends_run : s.store.Extends (run s visits).store := by
  induction visits using List.reverseRecOn with
  | nil => exact .refl _
  | append_singleton vs v ih =>
    rw [run_concat]
    exact ih.trans (evolves_serve (sound_run hs vs)).ext

/-- **What was handed out once stays minted.** -/
theorem minted_run {x : Exchange} (hx : x ∈ transcript s visits) {token : String}
    (ht : token ∈ x.tokens) : Minted (run s visits).store token := by
  induction visits using List.reverseRecOn with
  | nil => cases hx
  | append_singleton vs v ih =>
    rw [transcript_concat, List.mem_append, List.mem_singleton] at hx
    rw [run_concat]
    rcases hx with hx | rfl
    · exact (ih hx).extends (evolves_serve (sound_run hs vs)).ext
    · exact minted_serve ht

end Run

/-- **A node keeps its owner, its permissions and its group** during any more requests. -/
theorem find?_run_append {s : Server} {visits more : List Visit} {n : String} {q : Record}
    (hs : (run s visits).store.Sound) (hq : (run s visits).store.nodes.find? n = some q) :
    ∃ q', (run s (visits ++ more)).store.nodes.find? n = some q' ∧ q'.owner = q.owner ∧
      q'.permissions = q.permissions ∧ q'.group = q.group := by
  obtain ⟨q', hq', hown, hperm, hgroup, -⟩ := (extends_run hs more).node hq
  rw [← run_append] at hq'
  exact ⟨q', hq', hown, hperm, hgroup⟩

end SealedGraph.Http
