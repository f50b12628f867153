/-!
# Ranges of characters

Sets of characters as lists of ranges of code points. The properties of characters that the Unicode
standard gives by tables are such lists.
-/

namespace SealedGraph.Text

/-- The first and the last code point of each range of a set. -/
abbrev Ranges := List (Nat × Nat)

/-- Whether a character lies in one of the ranges. -/
def Ranges.has (rs : Ranges) (c : Char) : Bool :=
  rs.any fun (lo, hi) => lo ≤ c.toNat && c.toNat ≤ hi

theorem Ranges.has_of_mem {rs : Ranges} {lo hi : Nat} {c : Char} (h : (lo, hi) ∈ rs)
    (h₁ : lo ≤ c.toNat) (h₂ : c.toNat ≤ hi) : rs.has c = true :=
  List.any_eq_true.2 ⟨(lo, hi), h, by simp [h₁, h₂]⟩

end SealedGraph.Text
