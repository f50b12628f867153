/-!
# Permissions of a node

Six independent permissions, each with a letter. They are kept on the node and hold for everyone
who can name it; owners and administrators do not need them. As text they are the letters of the
granted ones in the order `rwoids`.

* `has_ofLetters`: the permissions of a text are those whose letters occur in it.
* `mem_letters`: the letters of a set are those of its members.
* `ofLetters_letters`: the letters of a set give the set back.
-/

namespace SealedGraph

/-- What may be done with a node. -/
inductive Permission
  | read
  | write
  | linkOut
  | linkIn
  | delete
  | share
  deriving DecidableEq, Repr

namespace Permission

/-- Every permission, in the order of writing. -/
def all : List Permission := [read, write, linkOut, linkIn, delete, share]

/-- The letter of a permission. -/
def letter : Permission → Char
  | read => 'r'
  | write => 'w'
  | linkOut => 'o'
  | linkIn => 'i'
  | delete => 'd'
  | share => 's'

/-- The permission with a letter. -/
def ofLetter? (c : Char) : Option Permission := all.find? fun p => p.letter = c

theorem mem_all (p : Permission) : p ∈ all := by cases p <;> decide

theorem ofLetter?_letter (p : Permission) : ofLetter? p.letter = some p := by cases p <;> decide

theorem letter_injective {p q : Permission} (h : p.letter = q.letter) : p = q :=
  Option.some.inj (by rw [← ofLetter?_letter p, h, ofLetter?_letter])

theorem ofLetter?_eq_some_iff {c : Char} {p : Permission} :
    ofLetter? c = some p ↔ p.letter = c := by
  constructor
  · intro h
    rw [ofLetter?] at h
    simpa using List.find?_some h
  · rintro rfl
    exact ofLetter?_letter p

end Permission

/-- A set of permissions. -/
structure Permissions where
  read : Bool
  write : Bool
  linkOut : Bool
  linkIn : Bool
  delete : Bool
  share : Bool
  deriving DecidableEq, Repr

namespace Permissions

open Permission

/-- No permission. -/
def none : Permissions := ⟨false, false, false, false, false, false⟩

/-- Every permission. -/
def all : Permissions := ⟨true, true, true, true, true, true⟩

instance : Inhabited Permissions := ⟨none⟩

/-- Whether a permission is granted. -/
def has (s : Permissions) : Permission → Bool
  | .read => s.read
  | .write => s.write
  | .linkOut => s.linkOut
  | .linkIn => s.linkIn
  | .delete => s.delete
  | .share => s.share

/-- The set with one permission more. -/
def grant (s : Permissions) : Permission → Permissions
  | .read => { s with read := true }
  | .write => { s with write := true }
  | .linkOut => { s with linkOut := true }
  | .linkIn => { s with linkIn := true }
  | .delete => { s with delete := true }
  | .share => { s with share := true }

/-- Whether the permission with a letter is granted, for the six letters. -/
def get? (s : Permissions) (c : Char) : Option Bool := (ofLetter? c).map s.has

/-- The set with the permission of a letter added; other characters add nothing. -/
def grantLetter (s : Permissions) (c : Char) : Permissions :=
  match ofLetter? c with
  | some p => s.grant p
  | Option.none => s

/-- The permissions whose letters occur in a text. -/
def ofLetters (letters : String) : Permissions := letters.toList.foldl grantLetter none

/-- The letters of the granted permissions, in order. -/
def letters (s : Permissions) : String :=
  String.ofList ((Permission.all.filter s.has).map letter)

/-- Whether every character of `required` is the letter of a granted permission. -/
def allows (s : Permissions) (required : String) : Bool :=
  required.toList.all fun c => (s.get? c).getD false

theorem has_grant (s : Permissions) (p q : Permission) :
    (s.grant p).has q = (s.has q || decide (q = p)) := by
  cases p <;> cases q <;> simp [grant, has]

theorem has_grantLetter (s : Permissions) (c : Char) (p : Permission) :
    (s.grantLetter c).has p = (s.has p || p.letter == c) := by
  unfold grantLetter
  split
  · rename_i q h
    rw [has_grant, ← ofLetter?_eq_some_iff.1 h]
    congr 1
    rw [Bool.eq_iff_iff, decide_eq_true_iff, beq_iff_eq]
    exact ⟨fun h => h ▸ rfl, letter_injective⟩
  · rename_i h
    have hp : (p.letter == c) = false := by
      rw [beq_eq_false_iff_ne]
      rintro rfl
      rw [ofLetter?_letter] at h
      cases h
    rw [hp, Bool.or_false]

theorem has_none (p : Permission) : none.has p = false := by cases p <;> rfl

theorem ext_has {s t : Permissions} (h : ∀ p, s.has p = t.has p) : s = t := by
  have hr := h .read
  have hw := h .write
  have ho := h .linkOut
  have hi := h .linkIn
  have hd := h .delete
  have hs := h .share
  simp only [has] at hr hw ho hi hd hs
  cases s
  cases t
  simp_all

theorem mem_letters {s : Permissions} {p : Permission} :
    p.letter ∈ s.letters.toList ↔ s.has p = true := by
  rw [letters, String.toList_ofList, List.mem_map]
  constructor
  · rintro ⟨q, hq, h⟩
    rw [letter_injective h] at hq
    exact (List.mem_filter.1 hq).2
  · intro h
    exact ⟨p, List.mem_filter.2 ⟨mem_all p, h⟩, rfl⟩

theorem has_foldl_grantLetter (cs : List Char) (s : Permissions) (p : Permission) :
    (cs.foldl grantLetter s).has p = (s.has p || cs.contains p.letter) := by
  induction cs generalizing s with
  | nil => simp
  | cons c cs ih =>
    rw [List.foldl_cons, ih, List.contains_cons, ← Bool.or_assoc, has_grantLetter]

theorem has_ofLetters (letters : String) (p : Permission) :
    (ofLetters letters).has p = letters.toList.contains p.letter := by
  rw [ofLetters, has_foldl_grantLetter, has_none, Bool.false_or]

theorem ofLetters_letters (s : Permissions) : ofLetters s.letters = s :=
  ext_has fun p => by
    rw [has_ofLetters, Bool.eq_iff_iff, List.contains_iff_mem, mem_letters]

end Permissions

end SealedGraph
