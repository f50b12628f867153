import Mathlib.Data.List.Induction
import Mathlib.Data.Set.Card
import SealedGraph.Proofs.Index
import SealedGraph.Proofs.Registry.Groups

/-!
# The table as plain sets

What the registry answers about sessions and groups is decided by the last operation that is about
the pair in question, whatever else was done before it, in between and after it.

* `hasSession_apply`, `hasGroup_apply`: one operation; `hasSession_after`, `hasGroup_after`: any
  number of them.
* `Tidy`: nobody has an empty set, and nobody is without a name.
* `length_allSessions`, `mem_allSessions`: the pairs of the sets are the active sessions, each once.
* `after_exact`: all of it for a table that came out of an empty one.
-/

namespace SealedGraph.Registry

/-! ### What an operation is about -/

namespace Operation

/-- Whether a session of a user is active after the operation, if the operation is about it. -/
def sessionVerdict (uid session : String) : {k : Kind} → Operation k → Option Bool
  | _, .addSession u x => if u = uid ∧ x = session then some true else none
  | _, .deleteSession u x => if u = uid ∧ x = session then some false else none
  | _, .purgeSessions u => if u = uid then some false else none
  | _, _ => none

/-- Whether a group is open to a user after the operation, if the operation is about it: if the
group is one of the texts between the commas of its list. -/
def groupVerdict (uid g : String) : {k : Kind} → Operation k → Option Bool
  | _, .allow u list =>
    if u = uid ∧ g.toList ∈ Text.split listSeparator list.toList then some true else none
  | _, .revoke u list =>
    if u = uid ∧ g.toList ∈ Text.split listSeparator list.toList then some false else none
  | _, _ => none

end Operation

/-- An operation at a time. -/
structure Act where
  now : Nat
  {kind : Kind}
  op : Operation kind

/-- The table after some operations, one after the other. -/
def Table.after (t : Table) (acts : List Act) : Table :=
  acts.foldl (fun t a => (a.op.apply a.now t).2) t

/-- The verdict of the last operation that has one. -/
def lastVerdict (verdict : Act → Option Bool) (acts : List Act) : Option Bool :=
  acts.reverse.findSome? verdict

/-- A session of a user was entered, and since then it was neither deleted nor purged. -/
def ActiveSession (acts : List Act) (uid session : String) : Prop :=
  uid ≠ "" ∧ session ≠ "" ∧ lastVerdict (·.op.sessionVerdict uid session) acts = some true

/-- A group was opened to a user, and since then it was not closed. -/
def OpenGroup (acts : List Act) (uid g : String) : Prop :=
  uid ≠ "" ∧ g ≠ "" ∧ lastVerdict (·.op.groupVerdict uid g) acts = some true

section History

variable (t : Table) (verdict : Act → Option Bool) (acts : List Act) (a : Act)

theorem after_concat : t.after (acts ++ [a]) = (a.op.apply a.now (t.after acts)).2 := by
  simp [Table.after]

theorem lastVerdict_concat :
    lastVerdict verdict (acts ++ [a]) = (verdict a).or (lastVerdict verdict acts) := by
  unfold lastVerdict
  rw [List.reverse_append, List.reverse_singleton, List.singleton_append, List.findSome?_cons]
  cases verdict a with
  | none => rfl
  | some b => rfl

end History

/-! ### One operation -/

theorem mem_listEntries {list g : String} (hg : g ≠ "") :
    g ∈ listEntries list ↔ g.toList ∈ Text.split listSeparator list.toList := by
  unfold listEntries
  rw [List.mem_map]
  constructor
  · rintro ⟨e, he, rfl⟩
    rw [String.toList_ofList]
    exact (List.mem_filter.1 he).1
  · intro h
    refine ⟨g.toList, List.mem_filter.2 ⟨h, ?_⟩, String.ofList_toList⟩
    rw [isEmpty_toList_eq_false hg]
    rfl

/-- What holds after an operation: its verdict, or what held before if it has none. -/
def Upholds (verdict : Option Bool) (before : Prop) : Prop :=
  match verdict with
  | some b => b = true
  | none => before

section Apply

variable {k : Kind} (op : Operation k) (now : Nat) (t : Table)

/-- **One operation and a session.** -/
theorem hasSession_apply {uid session : String} (hu : uid ≠ "") (hs : session ≠ "") :
    (op.apply now t).2.hasSession uid session = true ↔
      Upholds (op.sessionVerdict uid session) (t.hasSession uid session = true) := by
  cases op with
  | addSession u x =>
    show (t.addSession u x).hasSession uid session = true ↔ _
    rw [Table.hasSession_addSession]
    by_cases h : u = uid ∧ x = session
    · obtain ⟨rfl, rfl⟩ := h
      simp [Operation.sessionVerdict, Upholds, hu, hs]
    · have hno : ¬ (u ≠ "" ∧ x ≠ "" ∧ uid = u ∧ session = x) :=
        fun h' => h ⟨h'.2.2.1.symm, h'.2.2.2.symm⟩
      rw [or_iff_left hno, Operation.sessionVerdict, if_neg h]
      exact Iff.rfl
  | deleteSession u x =>
    show (t.deleteSession u x).hasSession uid session = true ↔ _
    rw [Table.hasSession_deleteSession]
    by_cases h : u = uid ∧ x = session
    · simp [Operation.sessionVerdict, Upholds, h]
    · have hno : ¬ (uid = u ∧ session = x) := fun h' => h ⟨h'.1.symm, h'.2.symm⟩
      rw [and_iff_left hno, Operation.sessionVerdict, if_neg h]
      exact Iff.rfl
  | purgeSessions u =>
    show (t.purgeSessions u).hasSession uid session = true ↔ _
    rw [Table.hasSession_purgeSessions]
    by_cases h : u = uid
    · simp [Operation.sessionVerdict, Upholds, h]
    · rw [and_iff_left (Ne.symm h), Operation.sessionVerdict, if_neg h]
      exact Iff.rfl
  | allow u list =>
    have h : (t.allow u list).sessions = t.sessions := by
      unfold Table.allow
      simp only
      split
      · rfl
      · rfl
    show ((t.allow u list).sessions.find? uid |>.getD []).contains session = true ↔ _
    rw [h]
    exact Iff.rfl
  | recordFailure username =>
    have h : ((t.prune now).recordFailure username now).sessions = t.sessions := by
      unfold Table.recordFailure
      split
      · rfl
      · rfl
    show (((t.prune now).recordFailure username now).sessions.find? uid |>.getD []).contains
      session = true ↔ _
    rw [h]
    exact Iff.rfl
  | _ => exact Iff.rfl

/-- **One operation and a group.** -/
theorem hasGroup_apply {uid g : String} (hu : uid ≠ "") (hg : g ≠ "") :
    (op.apply now t).2.hasGroup uid g = true ↔
      Upholds (op.groupVerdict uid g) (t.hasGroup uid g = true) := by
  by_cases hop : op.changesGroups = true
  · cases op with
    | allow u list =>
      show (t.allow u list).hasGroup uid g = true ↔ _
      rw [Table.hasGroup_allow, mem_listEntries hg]
      by_cases h : u = uid ∧ g.toList ∈ Text.split listSeparator list.toList
      · obtain ⟨rfl, hm⟩ := h
        simp [Operation.groupVerdict, Upholds, hu, hm]
      · have hno : ¬ (u ≠ "" ∧ uid = u ∧ g.toList ∈ Text.split listSeparator list.toList) :=
          fun h' => h ⟨h'.2.1.symm, h'.2.2⟩
        rw [or_iff_left hno, Operation.groupVerdict, if_neg h]
        exact Iff.rfl
    | revoke u list =>
      show (t.revoke u list).hasGroup uid g = true ↔ _
      rw [Table.hasGroup_revoke, mem_listEntries hg]
      by_cases h : u = uid ∧ g.toList ∈ Text.split listSeparator list.toList
      · obtain ⟨rfl, hm⟩ := h
        simp [Operation.groupVerdict, Upholds, hm]
      · have hno : ¬ (uid = u ∧ g.toList ∈ Text.split listSeparator list.toList) :=
          fun h' => h ⟨h'.1.symm, h'.2⟩
        rw [and_iff_left hno, Operation.groupVerdict, if_neg h]
        exact Iff.rfl
    | _ => cases hop
  · have hnone : op.groupVerdict uid g = none := by
      cases op with
      | allow u list => exact absurd rfl hop
      | revoke u list => exact absurd rfl hop
      | _ => rfl
    have hsame : (op.apply now t).2.groups = t.groups := op.groups_apply (by simpa using hop) now t
    rw [hnone]
    unfold Table.hasGroup
    rw [hsame]
    exact Iff.rfl

end Apply

/-! ### Tables without empty sets -/

/-- A key with a set, none of them empty; no element is empty, or in the set twice. -/
structure IsFull (key : String) (set : List String) : Prop where
  key_ne : key ≠ ""
  set_ne : set ≠ []
  element_ne : "" ∉ set
  nodup : set.Nodup

/-- An index of sets with every key once, and nothing in it that is empty. -/
structure Tidy (m : Index (List String)) : Prop where
  keys : m.keys.Nodup
  full : ∀ {key set}, m.find? key = some set → IsFull key set

theorem mem_addTo {x y : String} {set : List String} : y ∈ addTo x set ↔ y ∈ set ∨ y = x := by
  have h := @mem_foldl_addTo [x] set y
  simpa using h

theorem nodup_addTo {x : String} {set : List String} (h : set.Nodup) : (addTo x set).Nodup := by
  unfold addTo
  split
  · exact h
  · rename_i hx
    rw [List.contains_iff_mem] at hx
    have hdis : ∀ y ∈ set, ∀ z ∈ [x], y ≠ z := by
      intro y hy z hz e
      rw [List.mem_singleton] at hz
      exact hx (by rwa [← hz, ← e])
    exact List.nodup_append.2 ⟨h, by simp, hdis⟩

theorem nodup_foldl_addTo {xs set : List String} (h : set.Nodup) :
    (xs.foldl (fun set x => addTo x set) set).Nodup := by
  induction xs generalizing set with
  | nil => exact h
  | cons x xs ih => exact ih (nodup_addTo h)

namespace Tidy

variable {m : Index (List String)} {key : String} {set : List String}

theorem empty : Tidy ∅ where
  keys := List.nodup_nil
  full h := by cases h

theorem nodup_getD (h : Tidy m) : ((m.find? key).getD []).Nodup := by
  cases hf : m.find? key with
  | none => simp
  | some set => exact (h.full hf).nodup

/-- **Nothing empty** is looked up, or found. -/
theorem ne_of_mem (h : Tidy m) {x : String} (hx : x ∈ (m.find? key).getD []) :
    key ≠ "" ∧ x ≠ "" := by
  cases hf : m.find? key with
  | none => simp [hf] at hx
  | some set =>
    have hfull := h.full hf
    refine ⟨hfull.key_ne, ?_⟩
    rintro rfl
    exact hfull.element_ne (by simpa [hf] using hx)

theorem empty_not_mem (h : Tidy m) : "" ∉ (m.find? key).getD [] := fun hm => (h.ne_of_mem hm).2 rfl

theorem insert (h : Tidy m) (hset : IsFull key set) : Tidy (m.insert key set) where
  keys := Index.nodup_keys_insert h.keys key set
  full {key' set'} hf := by
    rw [Index.find?_insert] at hf
    split at hf
    · rename_i e
      cases hf
      rwa [e]
    · exact h.full hf

theorem erase (h : Tidy m) (key : String) : Tidy (m.erase key) where
  keys := Index.nodup_keys_erase h.keys key
  full {key' set'} hf := by
    rw [Index.find?_erase] at hf
    split at hf
    · cases hf
    · exact h.full hf

theorem shrink (h : Tidy m) (key : String) (p : String → Bool) :
    Tidy (shrink key (·.filter p) m) := by
  unfold Registry.shrink
  split
  · rename_i set hf
    obtain ⟨hkey, -, hel, hnd⟩ := h.full hf
    split
    · exact h.erase key
    · rename_i hne
      refine h.insert ⟨hkey, by simpa using hne, ?_, hnd.sublist List.filter_sublist⟩
      intro hm
      exact hel (List.mem_of_mem_filter hm)
  · exact h

/-- **A key without elements** has no set. -/
theorem contains_iff (h : Tidy m) : m.contains key = true ↔ ∃ x, x ∈ (m.find? key).getD [] := by
  rw [Index.contains_iff]
  constructor
  · rintro ⟨set, hf⟩
    obtain ⟨x, xs, hx⟩ := List.exists_cons_of_ne_nil (h.full hf).set_ne
    exact ⟨x, by simp [hf, hx]⟩
  · rintro ⟨x, hx⟩
    cases hf : m.find? key with
    | none => simp [hf] at hx
    | some set => exact ⟨set, rfl⟩

end Tidy

/-- A table with nothing empty in it. -/
def Table.IsTidy (t : Table) : Prop := Tidy t.sessions ∧ Tidy t.groups

theorem isTidy_apply {k : Kind} (op : Operation k) (now : Nat) {t : Table} (h : t.IsTidy) :
    (op.apply now t).2.IsTidy := by
  obtain ⟨hs, hg⟩ := h
  cases op with
  | addSession uid session =>
    show (t.addSession uid session).IsTidy
    unfold Table.addSession
    split
    · exact ⟨hs, hg⟩
    · rename_i hne
      rw [Bool.or_eq_true, String.isEmpty_iff, String.isEmpty_iff, not_or] at hne
      have hmem : session ∈ addTo session ((t.sessions.find? uid).getD []) :=
        mem_addTo.2 (.inr rfl)
      have hel : "" ∉ addTo session ((t.sessions.find? uid).getD []) := by
        rw [mem_addTo, not_or]
        exact ⟨hs.empty_not_mem, Ne.symm hne.2⟩
      have hnd : (addTo session ((t.sessions.find? uid).getD [])).Nodup :=
        nodup_addTo hs.nodup_getD
      exact ⟨hs.insert ⟨hne.1, List.ne_nil_of_mem hmem, hel, hnd⟩, hg⟩
  | deleteSession uid session => exact ⟨hs.shrink uid _, hg⟩
  | purgeSessions uid => exact ⟨hs.erase uid, hg⟩
  | allow uid list =>
    show (t.allow uid list).IsTidy
    unfold Table.allow
    simp only
    split
    · exact ⟨hs, hg⟩
    · rename_i hne
      rw [Bool.or_eq_true, String.isEmpty_iff, List.isEmpty_iff, not_or] at hne
      obtain ⟨g, gs, he⟩ := List.exists_cons_of_ne_nil hne.2
      have hmem : g ∈ listEntries list := by simp [he]
      refine ⟨hs, hg.insert ⟨hne.1, List.ne_nil_of_mem (mem_foldl_addTo.2 (.inr hmem)), ?_,
        nodup_foldl_addTo hg.nodup_getD⟩⟩
      rw [mem_foldl_addTo, not_or]
      exact ⟨hg.empty_not_mem, fun hm => ne_empty_of_mem_listEntries hm rfl⟩
  | revoke uid list => exact ⟨hs, hg.shrink uid _⟩
  | recordFailure username =>
    show ((t.prune now).recordFailure username now).IsTidy
    unfold Table.recordFailure
    split
    · exact ⟨hs, hg⟩
    · exact ⟨hs, hg⟩
  | _ => exact ⟨hs, hg⟩

/-! ### Numbers of sessions -/

/-- A set has as many elements as a list of all of them. -/
theorem encard_eq_length {α : Type} {S : Set α} {xs : List α} (h : ∀ x, x ∈ S ↔ x ∈ xs)
    (hn : xs.Nodup) : S.encard = xs.length := by
  classical
  have hS : S = ↑xs.toFinset := by
    ext x
    rw [h, Finset.mem_coe, List.mem_toFinset]
  rw [hS, Set.encard_coe_eq_coe_finsetCard, List.toFinset_card_of_nodup hn]

/-- The sessions of all users. -/
def Table.allSessions (t : Table) : List (String × String) :=
  t.sessions.entries.flatMap fun e => e.2.map fun session => (e.1, session)

section Count

variable {t : Table}

theorem length_allSessions (t : Table) : t.allSessions.length = t.sessionCount := by
  unfold Table.allSessions Table.sessionCount Index.values
  induction t.sessions.entries with
  | nil => rfl
  | cons e es ih => simp [ih]

theorem mem_allSessions (h : t.IsTidy) (uid session : String) :
    (uid, session) ∈ t.allSessions ↔ t.hasSession uid session = true := by
  rw [Table.hasSession_iff]
  unfold Table.allSessions
  simp only [List.mem_flatMap, List.mem_map, Prod.mk.injEq]
  constructor
  · rintro ⟨⟨u, set⟩, he, x, hx, rfl, rfl⟩
    rw [(Index.find?_eq_some_iff_mem h.1.keys).2 he]
    exact hx
  · intro hm
    cases hf : t.sessions.find? uid with
    | none => simp [hf] at hm
    | some set =>
      rw [hf] at hm
      exact ⟨(uid, set), Index.mem_of_find? hf, session, hm, rfl, rfl⟩

theorem nodup_allSessions (h : t.IsTidy) : t.allSessions.Nodup := by
  unfold Table.allSessions
  rw [List.nodup_flatMap]
  constructor
  · intro e he
    have hf := (Index.find?_eq_some_iff_mem h.1.keys).2 (show (e.1, e.2) ∈ _ from he)
    exact (h.1.full hf).nodup.map fun x y hxy => (Prod.mk.inj hxy).2
  · -- Two entries have two keys.
    refine (List.pairwise_map.1 h.1.keys).imp fun {e e'} hne => ?_
    intro p hp hp'
    simp only [List.mem_map] at hp hp'
    obtain ⟨x, -, rfl⟩ := hp
    obtain ⟨y, -, hy⟩ := hp'
    exact hne (Prod.mk.inj hy).1.symm

end Count

/-! ### Any number of operations -/

/-- **The last verdict decides**, of whatever does not hold at first. -/
theorem after_iff {P : Table → Prop} {verdict : Act → Option Bool} {t : Table} (hno : ¬ P t)
    (hstep : ∀ (a : Act) t, P (a.op.apply a.now t).2 ↔ Upholds (verdict a) (P t)) (acts : List Act) :
    P (t.after acts) ↔ lastVerdict verdict acts = some true := by
  induction acts using List.reverseRecOn with
  | nil => exact iff_of_false hno (by simp [lastVerdict])
  | append_singleton acts a ih =>
    rw [after_concat, lastVerdict_concat, hstep]
    cases verdict a with
    | none => exact ih
    | some b => simp [Upholds]

section After

variable (window : Nat) (acts : List Act)

theorem isTidy_after : ((Table.empty window).after acts).IsTidy := by
  induction acts using List.reverseRecOn with
  | nil => exact ⟨.empty, .empty⟩
  | append_singleton acts a ih =>
    rw [after_concat]
    exact isTidy_apply a.op a.now ih

theorem hasSession_after (uid session : String) :
    ((Table.empty window).after acts).hasSession uid session = true ↔
      ActiveSession acts uid session := by
  have hiff : uid ≠ "" → session ≠ "" →
      (((Table.empty window).after acts).hasSession uid session = true ↔
        lastVerdict (·.op.sessionVerdict uid session) acts = some true) := by
    intro hu hs
    have hno : ¬ (Table.empty window).hasSession uid session = true := Bool.false_ne_true
    exact after_iff (P := fun t => t.hasSession uid session = true) hno
      (fun a t => hasSession_apply a.op a.now t hu hs) acts
  constructor
  · intro h
    have hne := (isTidy_after window acts).1.ne_of_mem ((Table.hasSession_iff _ _ _).1 h)
    exact ⟨hne.1, hne.2, (hiff hne.1 hne.2).1 h⟩
  · rintro ⟨hu, hs, h⟩
    exact (hiff hu hs).2 h

theorem hasGroup_after (uid g : String) :
    ((Table.empty window).after acts).hasGroup uid g = true ↔ OpenGroup acts uid g := by
  have hiff : uid ≠ "" → g ≠ "" →
      (((Table.empty window).after acts).hasGroup uid g = true ↔
        lastVerdict (·.op.groupVerdict uid g) acts = some true) := by
    intro hu hg
    have hno : ¬ (Table.empty window).hasGroup uid g = true := by
      rw [Table.hasGroup_iff]
      exact fun h => List.not_mem_nil h.2
    exact after_iff (P := fun t => t.hasGroup uid g = true) hno
      (fun a t => hasGroup_apply a.op a.now t hu hg) acts
  constructor
  · intro h
    have hmem := ((Table.hasGroup_iff _ _ _).1 h).2
    have hne := (isTidy_after window acts).2.ne_of_mem hmem
    exact ⟨hne.1, hne.2, (hiff hne.1 hne.2).1 h⟩
  · rintro ⟨hu, hg, h⟩
    exact (hiff hu hg).2 h

end After

/-- What can be said of a table from the operations that were done to it: what it answers, and what
it keeps. -/
structure Plain (acts : List Act) (t : Table) : Prop where
  session : ∀ uid session, t.hasSession uid session = true ↔ ActiveSession acts uid session
  group : ∀ uid g, t.hasGroup uid g = true ↔ OpenGroup acts uid g
  /-- to purge the sessions of a user is answered with their number -/
  purged : ∀ now uid, {session | ActiveSession acts uid session}.encard =
    (((Operation.purgeSessions uid).apply now t).1 : Nat)
  count : {p : String × String | ActiveSession acts p.1 p.2}.encard = t.sessionCount
  /-- there is an entry for whoever has an active session, and only one -/
  sessionKeys : t.sessions.keys.Nodup ∧
    ∀ uid, uid ∈ t.sessions.keys ↔ ∃ session, ActiveSession acts uid session
  groupKeys : t.groups.keys.Nodup ∧ ∀ uid, uid ∈ t.groups.keys ↔ ∃ g, OpenGroup acts uid g
  sessionEntry : ∀ e ∈ t.sessions.entries, IsFull e.1 e.2
  groupEntry : ∀ e ∈ t.groups.entries, IsFull e.1 e.2

/-- **The table is nothing but sets of pairs.** Let any operations be done to an empty table, with
any texts for users, sessions, groups and lists of groups. A session is active if the last
operation that is about it entered it, and a group is open to a user if the last list that has it as
an entry was one of groups to be opened. The numbers of sessions are the numbers of active pairs.
No key and no set is empty, and nothing is kept of a user without sessions, or without groups. -/
theorem after_exact (window : Nat) (acts : List Act) :
    Plain acts ((Table.empty window).after acts) := by
  set t := (Table.empty window).after acts
  have htidy : t.IsTidy := isTidy_after window acts
  have hsession : ∀ uid session, session ∈ (t.sessions.find? uid).getD [] ↔
      ActiveSession acts uid session := by
    intro uid session
    rw [← Table.hasSession_iff]
    exact hasSession_after window acts uid session
  have hgroup : ∀ uid g, g ∈ (t.groups.find? uid).getD [] ↔ OpenGroup acts uid g := by
    intro uid g
    rw [← hasGroup_after window acts uid g, Table.hasGroup_iff]
    constructor
    · intro hg
      exact ⟨(htidy.2.ne_of_mem hg).2, hg⟩
    · exact And.right
  refine ⟨hasSession_after window acts, hasGroup_after window acts, ?_, ?_, ⟨htidy.1.keys, ?_⟩,
    ⟨htidy.2.keys, ?_⟩, ?_, ?_⟩
  · intro now uid
    exact encard_eq_length (fun x => (hsession uid x).symm) htidy.1.nodup_getD
  · rw [← length_allSessions]
    refine encard_eq_length ?_ (nodup_allSessions htidy)
    rintro ⟨uid, session⟩
    rw [mem_allSessions htidy]
    exact (hasSession_after window acts uid session).symm
  · intro uid
    rw [Index.mem_keys_iff, htidy.1.contains_iff]
    exact exists_congr (hsession uid)
  · intro uid
    rw [Index.mem_keys_iff, htidy.2.contains_iff]
    exact exists_congr (hgroup uid)
  · rintro ⟨uid, set⟩ he
    exact htidy.1.full ((Index.find?_eq_some_iff_mem htidy.1.keys).2 he)
  · rintro ⟨uid, set⟩ he
    exact htidy.2.full ((Index.find?_eq_some_iff_mem htidy.2.keys).2 he)

/-- Two lists of groups, the first with gaps in it, and then a list that takes one group back. -/
example : ((Table.empty 0).after
    [⟨0, .allow "0x1" ",g1,,g2,"⟩, ⟨0, .allow "" "g1"⟩, ⟨0, .revoke "0x1" "g3,g1"⟩]).groups.entries =
      [("0x1", ["g2"])] := by decide +kernel

end SealedGraph.Registry
