/-!
# Separated texts

The pieces of a text between the occurrences of one separator character. A text has one piece
more than it has separators, so the empty text has one empty piece.

* `length_split`: the number of pieces is the number of separators and one.
* `join_split`: the pieces, joined by the separator, give the text back.
* `split_join`: pieces without the separator are found again.
-/

namespace SealedGraph.Text

/-- The pieces of a text between the separators. -/
def split (sep : Char) : List Char → List (List Char)
  | [] => [[]]
  | c :: cs =>
    if c = sep then [] :: split sep cs
    else match split sep cs with
      | [] => [[c]]
      | p :: ps => (c :: p) :: ps

/-- The pieces with one separator between each two neighbours. -/
def join (sep : Char) : List (List Char) → List Char
  | [] => []
  | [p] => p
  | p :: q :: ps => p ++ sep :: join sep (q :: ps)

variable {sep : Char}

theorem split_ne_nil (cs : List Char) : split sep cs ≠ [] := by
  cases cs with
  | nil => simp [split]
  | cons c cs =>
    unfold split
    split
    · simp
    · split <;> simp

theorem split_cons_sep (cs : List Char) : split sep (sep :: cs) = [] :: split sep cs := by
  simp [split]

theorem split_cons_ne {c : Char} (h : c ≠ sep) {cs p : List Char} {ps : List (List Char)}
    (e : split sep cs = p :: ps) : split sep (c :: cs) = (c :: p) :: ps := by
  simp [split, h, e]

theorem length_split (cs : List Char) : (split sep cs).length = cs.count sep + 1 := by
  induction cs with
  | nil => simp [split]
  | cons c cs ih =>
    by_cases h : c = sep
    · subst h; simp [split_cons_sep, ih]
    · obtain ⟨p, ps, e⟩ := List.exists_cons_of_ne_nil (@split_ne_nil sep cs)
      rw [split_cons_ne h e, List.length_cons, ← List.length_cons (a := p), ← e, ih]
      simp [h]

theorem join_split (cs : List Char) : join sep (split sep cs) = cs := by
  induction cs with
  | nil => rfl
  | cons c cs ih =>
    obtain ⟨p, ps, e⟩ := List.exists_cons_of_ne_nil (@split_ne_nil sep cs)
    by_cases h : c = sep
    · subst h; rw [split_cons_sep, e, join, ← e, ih]; rfl
    · rw [split_cons_ne h e]
      rw [e] at ih
      cases ps with
      | nil => simpa [join] using ih
      | cons q ps => simpa [join] using ih

theorem split_of_not_mem {cs : List Char} (h : sep ∉ cs) : split sep cs = [cs] := by
  induction cs with
  | nil => rfl
  | cons c cs ih =>
    simp only [List.mem_cons, not_or] at h
    exact split_cons_ne (Ne.symm h.1) (ih h.2)

theorem split_append_sep {p : List Char} (h : sep ∉ p) (cs : List Char) :
    split sep (p ++ sep :: cs) = p :: split sep cs := by
  induction p with
  | nil => exact split_cons_sep cs
  | cons c p ih =>
    simp only [List.mem_cons, not_or] at h
    exact split_cons_ne (Ne.symm h.1) (ih h.2)

theorem split_join {ps : List (List Char)} (ne : ps ≠ []) (h : ∀ p ∈ ps, sep ∉ p) :
    split sep (join sep ps) = ps := by
  induction ps with
  | nil => exact absurd rfl ne
  | cons p ps ih =>
    cases ps with
    | nil => exact split_of_not_mem (h p (by simp))
    | cons q ps =>
      rw [join, split_append_sep (h p (by simp)), ih (by simp)]
      exact fun r hr => h r (List.mem_cons_of_mem _ hr)

theorem not_mem_of_mem_split {cs p : List Char} (h : p ∈ split sep cs) : sep ∉ p := by
  induction cs generalizing p with
  | nil => simp_all [split]
  | cons c cs ih =>
    obtain ⟨q, qs, e⟩ := List.exists_cons_of_ne_nil (@split_ne_nil sep cs)
    by_cases hc : c = sep
    · subst hc
      rw [split_cons_sep, List.mem_cons] at h
      rcases h with rfl | h
      · simp
      · exact ih h
    · rw [split_cons_ne hc e, List.mem_cons] at h
      rcases h with rfl | h
      · have := ih (p := q) (by simp [e])
        simp [this, Ne.symm hc]
      · exact ih (by simp [e, h])

end SealedGraph.Text
