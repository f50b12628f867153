/-!
# Indexes

Finite maps from text keys, kept in the order in which the keys first came in.

* `find?_insert`: writing a key changes that key alone.
* `find?_erase`: and so does removing it.
-/

namespace SealedGraph

/-- A finite map from text keys to values of `α`. -/
structure Index (α : Type) where
  /-- the entries, at most one a key when built by `insert` and `erase` -/
  entries : List (String × α)
  deriving DecidableEq, Repr

namespace Index

variable {α : Type}

/-- The index without entries. -/
def empty : Index α := ⟨[]⟩

instance : EmptyCollection (Index α) := ⟨empty⟩

instance : Inhabited (Index α) := ⟨empty⟩

/-- The value of the first entry with the key. -/
def lookupEntry (key : String) : List (String × α) → Option α
  | [] => none
  | e :: es => if e.1 = key then some e.2 else lookupEntry key es

/-- The value under a key. -/
def find? (m : Index α) (key : String) : Option α := lookupEntry key m.entries

/-- A key that has a value. -/
def contains (m : Index α) (key : String) : Bool := (m.find? key).isSome

/-- The entries with `value` under `key`, in the place that the key has, or last. -/
def insertEntry (key : String) (value : α) : List (String × α) → List (String × α)
  | [] => [(key, value)]
  | e :: es => if e.1 = key then (key, value) :: es else e :: insertEntry key value es

/-- The index with `value` under `key`. -/
def insert (m : Index α) (key : String) (value : α) : Index α :=
  ⟨insertEntry key value m.entries⟩

/-- The index without `key`. -/
def erase (m : Index α) (key : String) : Index α :=
  ⟨m.entries.filter fun e => e.1 ≠ key⟩

/-- The index with the value under `key` replaced by `f` of it, if there is one. -/
def modify (m : Index α) (key : String) (f : α → α) : Index α :=
  match m.find? key with
  | some v => m.insert key (f v)
  | none => m

/-- The entries whose values satisfy `p`. -/
def keep (m : Index α) (p : α → Bool) : Index α := ⟨m.entries.filter fun e => p e.2⟩

/-- The number of keys. -/
def size (m : Index α) : Nat := m.entries.length

/-- The values, in the order of their keys. -/
def values (m : Index α) : List α := m.entries.map Prod.snd

@[simp] theorem find?_empty (key : String) : (empty : Index α).find? key = none := rfl

theorem lookupEntry_insertEntry (key key' : String) (value : α) (es : List (String × α)) :
    lookupEntry key' (insertEntry key value es) =
      if key' = key then some value else lookupEntry key' es := by
  induction es with
  | nil =>
    by_cases h : key' = key
    · simp [insertEntry, lookupEntry, h]
    · simp [insertEntry, lookupEntry, h, Ne.symm h]
  | cons e es ih =>
    by_cases he : e.1 = key
    · subst he
      by_cases h : key' = e.1
      · simp [insertEntry, lookupEntry, h]
      · simp [insertEntry, lookupEntry, h, Ne.symm h]
    · by_cases h : e.1 = key'
      · subst h
        simp [insertEntry, lookupEntry, he]
      · simp [insertEntry, lookupEntry, he, h, ih]

@[simp] theorem find?_insert (m : Index α) (key key' : String) (value : α) :
    (m.insert key value).find? key' = if key' = key then some value else m.find? key' :=
  lookupEntry_insertEntry key key' value m.entries

theorem lookupEntry_filter_ne (key key' : String) (es : List (String × α)) :
    lookupEntry key' (es.filter fun e => e.1 ≠ key) =
      if key' = key then none else lookupEntry key' es := by
  induction es with
  | nil => simp [lookupEntry]
  | cons e es ih =>
    by_cases he : e.1 = key
    · rw [List.filter_cons_of_neg (by simp [he]), ih]
      by_cases h : key' = key
      · simp [h]
      · simp [lookupEntry, he, h, Ne.symm h]
    · rw [List.filter_cons_of_pos (by simp [he])]
      by_cases h : e.1 = key'
      · subst h
        simp [lookupEntry, he]
      · simp only [lookupEntry, if_neg h, ih]

@[simp] theorem find?_erase (m : Index α) (key key' : String) :
    (m.erase key).find? key' = if key' = key then none else m.find? key' :=
  lookupEntry_filter_ne key key' m.entries

end Index

end SealedGraph
