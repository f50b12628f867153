import Mathlib.Data.List.Dedup
import SealedGraph.Permissions

/-!
# Letters of permissions

A text grants the permissions whose letters occur in it. Where in it they are, how often, and what
else is in it does not count. What is asked for is a text as well: every character of it has to be
the letter of a granted permission, so that a character which is no letter at all is never granted.

* `Permission.mem_rwoids_iff`: the letters of all permissions are those of `rwoids`.
* `Permissions.allows_iff`: what a set of permissions allows.
* `Permissions.get?_ofLetters`, `Permissions.allows_ofLetters_iff`,
  `Permissions.letters_ofLetters`: what a text grants, through each function that reads a set.
* `Permissions.allows_ofLetters_mono`: what is granted may be more, and what is asked for less.
* `Permissions.ofLetters_eq_iff`: two texts grant the same iff the same letters occur in them.
* `Permissions.letters_exact`: all of this, and what about a text does not count.
-/

namespace SealedGraph

namespace Permission

theorem map_letter_all : all.map letter = "rwoids".toList := rfl

theorem mem_rwoids_iff {c : Char} : c ∈ "rwoids".toList ↔ ∃ p : Permission, p.letter = c := by
  rw [← map_letter_all, List.mem_map]
  exact exists_congr fun p => and_iff_right (mem_all p)

theorem ofLetter?_eq_none {c : Char} (h : c ∉ "rwoids".toList) : ofLetter? c = none := by
  rw [Option.eq_none_iff_forall_ne_some]
  intro p hp
  exact h (mem_rwoids_iff.2 ⟨p, ofLetter?_eq_some_iff.1 hp⟩)

end Permission

namespace Permissions

open Permission hiding all

variable {s : Permissions} {p : Permission}

/-! ### What is allowed -/

/-- **What is permitted**: that for which every character is the letter of a granted permission. -/
theorem allows_iff {letters : String} : s.allows letters = true ↔
    ∀ l ∈ letters.toList, ∃ p : Permission, p.letter = l ∧ s.has p = true := by
  unfold allows
  rw [List.all_eq_true]
  refine forall₂_congr fun l _ => ?_
  unfold get?
  cases h : ofLetter? l with
  | none =>
    simp only [Option.map_none, Option.getD_none, Bool.false_eq_true, false_iff]
    rintro ⟨p, rfl, -⟩
    rw [ofLetter?_letter] at h
    cases h
  | some p =>
    obtain rfl := ofLetter?_eq_some_iff.1 h
    simp only [Option.map_some, Option.getD_some]
    constructor
    · intro hp
      exact ⟨p, rfl, hp⟩
    · rintro ⟨q, hq, hs⟩
      rwa [← letter_injective hq]

theorem has_of_allows {required : String} (h : s.allows required = true)
    (hp : p.letter ∈ required.toList) : s.has p = true := by
  obtain ⟨q, hq, hs⟩ := allows_iff.1 h _ hp
  rwa [← letter_injective hq]

/-! ### The permissions of a text -/

theorem has_ofLetters_iff {letters : String} :
    (ofLetters letters).has p = true ↔ p.letter ∈ letters.toList := by
  rw [has_ofLetters, List.contains_iff_mem]

theorem get?_ofLetters (letters : String) (c : Char) :
    (ofLetters letters).get? c =
      if c ∈ "rwoids".toList then some (letters.toList.contains c) else .none := by
  unfold get?
  split
  · rename_i hc
    obtain ⟨p, rfl⟩ := mem_rwoids_iff.1 hc
    rw [ofLetter?_letter, Option.map_some, has_ofLetters]
  · rename_i hc
    rw [ofLetter?_eq_none hc, Option.map_none]

theorem allows_ofLetters_iff {letters required : String} :
    (ofLetters letters).allows required = true ↔
      ∀ c ∈ required.toList, c ∈ "rwoids".toList ∧ c ∈ letters.toList := by
  rw [allows_iff]
  refine forall₂_congr fun c _ => ?_
  rw [mem_rwoids_iff, ← exists_and_right]
  refine exists_congr fun p => and_congr_right ?_
  rintro rfl
  exact has_ofLetters_iff

/-- What is granted may be more, and what is asked for less. -/
theorem allows_ofLetters_mono {letters letters' required required' : String}
    (hletters : letters.toList ⊆ letters'.toList) (hrequired : required.toList ⊆ required'.toList)
    (h : (ofLetters letters).allows required' = true) :
    (ofLetters letters').allows required = true := by
  rw [allows_ofLetters_iff] at h ⊢
  intro c hc
  obtain ⟨hknown, hmem⟩ := h c (hrequired hc)
  exact ⟨hknown, hletters hmem⟩

theorem letters_ofLetters (letters : String) :
    (ofLetters letters).letters =
      String.ofList ("rwoids".toList.filter letters.toList.contains) := by
  have hhas : (ofLetters letters).has = letters.toList.contains ∘ letter :=
    funext (has_ofLetters letters)
  rw [Permissions.letters, hhas, ← map_letter_all, List.filter_map]

/-- **Only the letters count**: texts grant the same if the same letters occur in them. -/
theorem ofLetters_eq_iff {letters letters' : String} : ofLetters letters = ofLetters letters' ↔
    ∀ c ∈ "rwoids".toList, c ∈ letters.toList ↔ c ∈ letters'.toList := by
  constructor
  · intro h c hc
    obtain ⟨p, rfl⟩ := mem_rwoids_iff.1 hc
    rw [← has_ofLetters_iff, h, has_ofLetters_iff]
  · intro h
    refine ext_has fun p => ?_
    rw [Bool.eq_iff_iff, has_ofLetters_iff, has_ofLetters_iff]
    exact h p.letter (mem_rwoids_iff.2 ⟨p, rfl⟩)

/-- How texts stand for sets of permissions: by which of the six letters occur in them, whatever
else their characters are, how often they occur and in what order. -/
structure Lettered (ofLetters : String → Permissions) (letters : Permissions → String)
    (get? : Permissions → Char → Option Bool) (allows : Permissions → String → Bool) : Prop where
  granted (s : String) : ofLetters s =
    { read := s.toList.contains 'r'
      write := s.toList.contains 'w'
      linkOut := s.toList.contains 'o'
      linkIn := s.toList.contains 'i'
      delete := s.toList.contains 'd'
      share := s.toList.contains 's' }
  get?_ofLetters (s : String) (c : Char) : get? (ofLetters s) c =
    if c ∈ "rwoids".toList then some (s.toList.contains c) else .none
  /-- a character that is no letter is refused wherever it is asked for -/
  allows_iff (s t : String) : allows (ofLetters s) t = true ↔
    ∀ c ∈ t.toList, c ∈ "rwoids".toList ∧ c ∈ s.toList
  letters_ofLetters (s : String) : letters (ofLetters s) =
    String.ofList ("rwoids".toList.filter s.toList.contains)
  ofLetters_letters (f : Permissions) : ofLetters (letters f) = f
  ofLetters_eq_iff (s s' : String) : ofLetters s = ofLetters s' ↔
    ∀ c ∈ "rwoids".toList, c ∈ s.toList ↔ c ∈ s'.toList
  /-- to add characters to the text takes nothing away, wherever they are put -/
  granted_more (s s' t : String) : s.toList ⊆ s'.toList →
    allows (ofLetters s) t = true → allows (ofLetters s') t = true
  /-- to ask for more characters gives nothing -/
  asked_more (s t t' : String) : t.toList ⊆ t'.toList →
    allows (ofLetters s) t' = true → allows (ofLetters s) t = true
  order (s s' : String) : s.toList.Perm s'.toList → ofLetters s = ofLetters s'
  repeats (s : String) : ofLetters (String.ofList s.toList.dedup) = ofLetters s
  unknown (s : String) : ofLetters (String.ofList (s.toList.filter "rwoids".toList.contains)) =
    ofLetters s

/-- **Texts grant the permissions of their letters, and nothing else.** Whatever characters a text
has, it grants a permission iff the letter of it occurs there. This is what comes out if a letter is
looked up, if a text of letters is asked for, and if the set is written as text, which is done in
one order and gives the set back. Two texts grant the same iff the same of the six letters occur in
them; more characters in what is granted lose nothing, and more characters in what is asked for gain
nothing. -/
theorem letters_exact : Lettered ofLetters letters get? allows := by
  constructor
  case granted =>
    intro s
    refine ext_has fun p => ?_
    cases p <;> exact has_ofLetters s _
  case get?_ofLetters => exact get?_ofLetters
  case allows_iff => exact fun s t => allows_ofLetters_iff
  case letters_ofLetters => exact letters_ofLetters
  case ofLetters_letters => exact ofLetters_letters
  case ofLetters_eq_iff => exact fun s s' => ofLetters_eq_iff
  case granted_more =>
    intro s s' t hsub h
    exact allows_ofLetters_mono hsub (List.Subset.refl _) h
  case asked_more =>
    intro s t t' hsub h
    exact allows_ofLetters_mono (List.Subset.refl _) hsub h
  case order =>
    intro s s' hperm
    exact ofLetters_eq_iff.2 fun c _ => hperm.mem_iff
  case repeats =>
    intro s
    refine ofLetters_eq_iff.2 fun c _ => ?_
    rw [String.toList_ofList, List.mem_dedup]
  case unknown =>
    intro s
    refine ofLetters_eq_iff.2 fun c hc => ?_
    rw [String.toList_ofList, List.mem_filter, List.contains_iff_mem, and_iff_left hc]

/-- Letters among other characters, a letter more that is asked for, and letters in another
order. -/
theorem letters_exact_noise :
    ("rs".toList ⊆ "xsé😀rrs".toList ∧ (ofLetters "rs").allows "sr" = true ∧
        (ofLetters "xsé😀rrs").allows "sr" = true) ∧
      ("sr".toList ⊆ "srw".toList ∧ (ofLetters "wrs").allows "srw" = true ∧
        (ofLetters "wrs").allows "sr" = true) ∧
      "rsw".toList.Perm "wrs".toList ∧ ofLetters "rsw" = ofLetters "wrs" :=
  ⟨⟨by decide, by decide, letters_exact.granted_more "rs" _ "sr" (by decide) (by decide)⟩,
    ⟨by decide, by decide, letters_exact.asked_more "wrs" "sr" "srw" (by decide) (by decide)⟩,
    by decide, letters_exact.order "rsw" "wrs" (by decide)⟩

/-- The letters are written in their own order. -/
example : (ofLetters "sdxr").letters = "rds" := by decide

end Permissions

end SealedGraph
