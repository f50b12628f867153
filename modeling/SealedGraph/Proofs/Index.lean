import Mathlib.Data.List.Nodup
import SealedGraph.Index

/-!
# Looking up in a changed index

* `find?_modify`: a change of the value under one key leaves all other keys alone.
* `nodup_keys_insert` and its like: no operation enters a key twice, and as long as no key is there
  twice every entry is found under its key (`find?_eq_some_iff_mem`).
* `mapWithKey`: values rewritten under their keys, with which the operations commute.
-/

namespace SealedGraph.Index

variable {α : Type}

theorem find?_modify (m : Index α) (key key' : String) (f : α → α) :
    (m.modify key f).find? key' = if key' = key then (m.find? key).map f else m.find? key' := by
  unfold modify
  cases h : m.find? key with
  | none =>
    by_cases e : key' = key
    · simp only [e, if_true, Option.map_none, h]
    · simp only [e, if_false]
  | some v => simp only [find?_insert, Option.map_some]

theorem contains_iff {m : Index α} {key : String} :
    m.contains key = true ↔ ∃ v, m.find? key = some v := by
  rw [contains, Option.isSome_iff_exists]

theorem contains_eq_false_iff {m : Index α} {key : String} :
    m.contains key = false ↔ m.find? key = none := by
  rw [contains, Option.isSome_eq_false_iff, Option.isNone_iff_eq_none]

theorem mem_of_lookupEntry {key : String} {v : α} {entries : List (String × α)}
    (h : lookupEntry key entries = some v) : (key, v) ∈ entries := by
  induction entries with
  | nil => cases h
  | cons e es ih =>
    unfold lookupEntry at h
    split at h
    · rename_i hkey
      cases h
      rw [← hkey]
      exact List.mem_cons_self
    · exact List.mem_cons_of_mem _ (ih h)

/-- What is looked up is one of the entries. -/
theorem mem_of_find? {m : Index α} {key : String} {v : α} (h : m.find? key = some v) :
    (key, v) ∈ m.entries := mem_of_lookupEntry h

/-- A value that is kept is still found. -/
theorem find?_keep_of_find? {m : Index α} {key : String} {v : α} {p : α → Bool}
    (h : m.find? key = some v) (hp : p v = true) : (m.keep p).find? key = some v := by
  have hlook : ∀ es : List (String × α), lookupEntry key es = some v →
      lookupEntry key (es.filter fun e => p e.2) = some v := by
    intro es
    induction es with
    | nil => exact id
    | cons e es ih =>
      intro h
      unfold lookupEntry at h
      by_cases he : e.1 = key
      · rw [if_pos he] at h
        obtain rfl := Option.some.inj h
        rw [List.filter_cons_of_pos (by simpa using hp), lookupEntry, if_pos he]
      · rw [if_neg he] at h
        by_cases hpe : p e.2 = true
        · rw [List.filter_cons_of_pos (by simpa using hpe), lookupEntry, if_neg he, ih h]
        · rw [List.filter_cons_of_neg (by simpa using hpe), ih h]
  exact hlook m.entries h

theorem mem_of_mem_insertEntry {key : String} {v : α} {e : String × α}
    {entries : List (String × α)} (h : e ∈ insertEntry key v entries) :
    e = (key, v) ∨ e ∈ entries := by
  induction entries with
  | nil => exact .inl (List.mem_singleton.1 h)
  | cons e' es ih =>
    unfold insertEntry at h
    split at h
    · rcases List.mem_cons.1 h with h | h
      · exact .inl h
      · exact .inr (List.mem_cons_of_mem _ h)
    · rcases List.mem_cons.1 h with h | h
      · exact .inr (h ▸ List.mem_cons_self)
      · exact (ih h).imp_right (List.mem_cons_of_mem _)

/-- The entries are those that were there, and the one that is written. -/
theorem mem_of_mem_insert {m : Index α} {key : String} {v : α} {e : String × α}
    (h : e ∈ (m.insert key v).entries) : e = (key, v) ∨ e ∈ m.entries := mem_of_mem_insertEntry h

/-! ### Keys -/

/-- The keys of the entries. -/
def keys (m : Index α) : List String := m.entries.map Prod.fst

theorem mem_keys_iff {m : Index α} {key : String} : key ∈ m.keys ↔ m.contains key = true := by
  rw [contains_iff]
  constructor
  · intro h
    have hlook : ∀ es : List (String × α), key ∈ es.map Prod.fst →
        ∃ v, lookupEntry key es = some v := by
      intro es
      induction es with
      | nil => simp
      | cons e es ih =>
        intro hm
        unfold lookupEntry
        by_cases he : e.1 = key
        · exact ⟨e.2, by simp [he]⟩
        · have hm : key ∈ es.map Prod.fst := by simpa [Ne.symm he] using hm
          simpa [he] using ih hm
    exact hlook m.entries h
  · rintro ⟨v, hv⟩
    exact List.mem_map_of_mem (mem_of_find? hv)

theorem keys_insert (m : Index α) (key : String) (v : α) :
    (m.insert key v).keys = if m.contains key then m.keys else m.keys ++ [key] := by
  have hent : ∀ es : List (String × α), (insertEntry key v es).map Prod.fst =
      if (lookupEntry key es).isSome then es.map Prod.fst else es.map Prod.fst ++ [key] := by
    intro es
    induction es with
    | nil => simp [insertEntry, lookupEntry]
    | cons e es ih =>
      unfold insertEntry lookupEntry
      by_cases he : e.1 = key
      · simp [he]
      · simp only [he, if_false, List.map_cons, ih]
        split
        · rfl
        · rfl
  exact hent m.entries

theorem nodup_keys_insert {m : Index α} (h : m.keys.Nodup) (key : String) (v : α) :
    (m.insert key v).keys.Nodup := by
  rw [keys_insert]
  split
  · exact h
  · rename_i hno
    have hno : key ∉ m.keys := by rwa [mem_keys_iff]
    rw [List.nodup_append]
    refine ⟨h, by simp, ?_⟩
    intro k hk k' hk' e
    rw [List.mem_singleton] at hk'
    rw [e, hk'] at hk
    exact hno hk

theorem nodup_keys_erase {m : Index α} (h : m.keys.Nodup) (key : String) :
    (m.erase key).keys.Nodup :=
  h.sublist (List.filter_sublist.map Prod.fst)

theorem nodup_keys_modify {m : Index α} (h : m.keys.Nodup) (key : String) (f : α → α) :
    (m.modify key f).keys.Nodup := by
  unfold modify
  split
  · exact nodup_keys_insert h _ _
  · exact h

theorem nodup_keys_keep {m : Index α} (h : m.keys.Nodup) (p : α → Bool) :
    (m.keep p).keys.Nodup :=
  h.sublist (List.filter_sublist.map Prod.fst)

/-- **Every entry is found under its key.** -/
theorem find?_eq_some_iff_mem {m : Index α} (h : m.keys.Nodup) {key : String} {v : α} :
    m.find? key = some v ↔ (key, v) ∈ m.entries := by
  constructor
  · exact mem_of_find?
  · intro hm
    obtain ⟨v', hv'⟩ := contains_iff.1 (mem_keys_iff.1 (List.mem_map_of_mem hm))
    have hsame := List.inj_on_of_nodup_map h hm (mem_of_find? hv') rfl
    rw [hv', (Prod.mk.inj hsame).2]

/-- What is found among the values that are kept was found before. -/
theorem find?_of_find?_keep {m : Index α} (h : m.keys.Nodup) {key : String} {v : α} {p : α → Bool}
    (hf : (m.keep p).find? key = some v) : m.find? key = some v :=
  (find?_eq_some_iff_mem h).2 (List.mem_filter.1 (mem_of_find? hf)).1

/-! ### Rewritten values -/

section MapWithKey

variable {β : Type} {f : String → α → β} (m : Index α) (key : String)

/-- The index with each value rewritten, as its key may ask for. -/
def mapWithKey (f : String → α → β) (m : Index α) : Index β :=
  ⟨m.entries.map fun e => (e.1, f e.1 e.2)⟩

@[simp] theorem find?_mapWithKey : (m.mapWithKey f).find? key = (m.find? key).map (f key) := by
  obtain ⟨es⟩ := m
  unfold find? mapWithKey
  induction es with
  | nil => rfl
  | cons e es ih =>
    simp only [List.map_cons, lookupEntry]
    split
    · rename_i h
      rw [h]
      rfl
    · exact ih

@[simp] theorem contains_mapWithKey : (m.mapWithKey f).contains key = m.contains key := by
  rw [contains, find?_mapWithKey, Option.isSome_map]
  rfl

@[simp] theorem keys_mapWithKey : (m.mapWithKey f).keys = m.keys := by
  unfold keys mapWithKey
  rw [List.map_map]
  rfl

theorem mapWithKey_insert (v : α) :
    (m.insert key v).mapWithKey f = (m.mapWithKey f).insert key (f key v) := by
  obtain ⟨es⟩ := m
  unfold insert mapWithKey
  congr 1
  induction es with
  | nil => rfl
  | cons e es ih =>
    simp only [List.map_cons, insertEntry]
    split
    · rfl
    · rw [List.map_cons, ih]

/-- **A value that is replaced** is rewritten to what replaces the rewritten value. -/
theorem mapWithKey_modify {g : α → α} {g' : β → β} (h : ∀ v, f key (g v) = g' (f key v)) :
    (m.modify key g).mapWithKey f = (m.mapWithKey f).modify key g' := by
  unfold modify
  rw [find?_mapWithKey]
  cases m.find? key with
  | none => rfl
  | some v =>
    rw [Option.map_some, mapWithKey_insert, h]

end MapWithKey

end SealedGraph.Index
