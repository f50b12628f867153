import SealedGraph.Proofs.Store.Action

/-!
# The index of usernames is exact

A name leads to an account exactly as long as the account has it. A list of updates is checked
against the index as it was when the list came in, and applied one update after the other; what makes
this right is `Claims`: at each point of the work, a name that is still to be given to an account is
either nobody's or that account's own.

* `named_updateAccount`, `Claims.updateAccount`: one update keeps the index exact, and leaves the
  rest of the list as well claimed as before.
* `Step.named`: so does every operation of the store.
* `Step.nameOf_cases`: a name that is known does not pass to another account.
* `usernames_after`: what that says of look-ups by name.
-/

namespace SealedGraph.Store

/-- The username of an account. -/
def nameOf (s : Store) (uid : String) : Option String :=
  (s.accounts.find? uid).map Account.username

theorem nameOf_eq_some_iff {s : Store} {uid name : String} :
    s.nameOf uid = some name ↔ ∃ a, s.accounts.find? uid = some a ∧ a.username = name :=
  Option.map_eq_some_iff

/-- The index leads from a name to the account that has it, and from no other name to any. -/
def Named (s : Store) : Prop :=
  ∀ name uid, s.usernames.find? name = some uid ↔ s.nameOf uid = some name

theorem named_empty : Named empty := by
  intro name uid
  simp [nameOf, empty, EmptyCollection.emptyCollection]

section Named

variable {s t : Store}

theorem Named.of_same (h : Named s) (hu : t.usernames = s.usernames)
    (hn : ∀ uid, t.nameOf uid = s.nameOf uid) : Named t := by
  intro name uid
  rw [hu, hn]
  exact h name uid

/-- **No two accounts have one name.** -/
theorem Named.unique (h : Named s) {uid uid' name : String} (hu : s.nameOf uid = some name)
    (hu' : s.nameOf uid' = some name) : uid = uid' := by
  have hfind := (h name uid).2 hu
  rw [(h name uid').2 hu'] at hfind
  exact (Option.some.inj hfind).symm

theorem Named.isKnown_iff (h : Named s) {name : String} :
    s.isKnown name = true ↔ ∃ uid, s.nameOf uid = some name := by
  unfold isKnown
  rw [Index.contains_iff]
  exact exists_congr fun uid => h name uid

/-! ### Operations that leave names alone -/

theorem nameOf_congr {uid : String}
    (h : ∀ a, s.accounts.find? uid = some a →
      ∃ a', t.accounts.find? uid = some a' ∧ a'.username = a.username)
    (hno : s.accounts.find? uid = none → t.accounts.find? uid = none) :
    t.nameOf uid = s.nameOf uid := by
  unfold nameOf
  cases ha : s.accounts.find? uid with
  | none => rw [hno ha]
  | some a =>
    obtain ⟨a', ha', e⟩ := h a ha
    rw [ha', Option.map_some, Option.map_some, e]

theorem Alters.nameOf {W : String → Prop} {E : String → String → Prop} (h : Alters W E s t)
    (uid : String) : t.nameOf uid = s.nameOf uid := by
  unfold Store.nameOf
  rw [h.accounts]

theorem Grows.nameOf {owner group : String} {E : String → String → Prop}
    (h : Grows owner group E s t) (uid : String) : t.nameOf uid = s.nameOf uid := by
  refine nameOf_congr (fun a ha => ?_) h.noAccount
  obtain ⟨owned, ha'⟩ := h.account ha
  exact ⟨_, ha', rfl⟩

theorem Shares.nameOf {uids : List String} (h : Shares uids s t) (uid : String) :
    t.nameOf uid = s.nameOf uid := by
  refine nameOf_congr (fun a ha => ?_) h.noAccount
  obtain ⟨shared, ha', -⟩ := h.account ha
  exact ⟨_, ha', rfl⟩

/-! ### New accounts -/

theorem nameOf_insert (uid : String) (a : Account) (last : Nat) (names : Index String)
    (k : String) :
    nameOf { s with lastUid := last, accounts := s.accounts.insert uid a, usernames := names } k =
      if k = uid then some a.username else s.nameOf k := by
  unfold nameOf
  rw [Index.find?_insert]
  split
  · rfl
  · rfl

theorem Named.createAccount (h : Named s) (hs : Sound s) (new : NewAccount) :
    Named (s.createAccount new).2 := by
  rcases createAccount_cases s new with ⟨e, he⟩ | ⟨⟨-, -, hfree⟩, he⟩
  · rw [he]
    exact h
  · have hnew : s.nameOf (uidOf (s.lastUid + 1)) = none := by
      unfold nameOf
      rw [(hs.find?_of_fresh (fresh_succ s.lastUid)).2]
      rfl
    rw [he]
    intro name uid
    rw [nameOf_insert, Index.find?_insert]
    by_cases hname : name = new.username
    · -- The name was nobody's, so that no other account has it now.
      have hno : s.nameOf uid ≠ some new.username := by
        intro hu
        rw [h.isKnown_iff.2 ⟨uid, hu⟩] at hfree
        cases hfree
      rw [hname, if_pos rfl]
      by_cases hu : uid = uidOf (s.lastUid + 1)
      · simp [hu]
      · simp [hu, hno, Ne.symm hu]
    · rw [if_neg hname, h name uid]
      by_cases hu : uid = uidOf (s.lastUid + 1)
      · rw [hu, hnew]
        simp [Ne.symm hname]
      · rw [if_neg hu]

end Named

/-! ### Updates -/

/-- What makes some updates fit to be applied: a name that one of them asks for is nobody's or that
account's own, and no two ask for one name for two accounts. -/
structure Claims (s : Store) (updates : List AccountUpdate) : Prop where
  free : ∀ u ∈ updates, ∀ name, u.username = some name →
    ∀ uid, s.usernames.find? name = some uid → uid = u.uid
  agree : updates.Pairwise fun u v =>
    ∀ name, u.username = some name → v.username = some name → u.uid = v.uid

section Updates

variable {s : Store} {updates us : List AccountUpdate} {u : AccountUpdate}

theorem any_ne_eq_false_iff {o : Option String} {uid : String} :
    o.any (fun k => decide (k ≠ uid)) = false ↔ ∀ k, o = some k → k = uid := by
  cases o with
  | none => simp
  | some k => simp

/-- The check of one update: its name is nobody's or its account's own, and from then on it is
claimed, as everything is that was claimed before. -/
theorem checkClaims_cons {claimed : Index String}
    (h : s.checkClaims (u :: us) claimed = .ok ()) :
    ∃ claimed', s.checkClaims us claimed' = .ok () ∧
      (∀ name uid, claimed.find? name = some uid → claimed'.find? name = some uid) ∧
      ∀ name, u.username = some name → claimed'.find? name = some u.uid ∧
        ∀ uid, s.usernames.find? name = some uid → uid = u.uid := by
  unfold checkClaims at h
  split at h
  · cases h
  · split at h
    · rename_i hnone
      refine ⟨claimed, h, fun _ _ hk => hk, fun name e => ?_⟩
      rw [hnone] at e
      cases e
    · rename_i name hname
      simp only at h
      split at h
      · cases h
      · rename_i hother
        rw [Bool.not_eq_true, Bool.or_eq_false_iff, any_ne_eq_false_iff,
          any_ne_eq_false_iff] at hother
        obtain ⟨hfree, hclaimed⟩ := hother
        refine ⟨claimed.insert name u.uid, h, fun name' uid hk => ?_, fun name' e => ?_⟩
        · rw [Index.find?_insert]
          split
          · rename_i e
            rw [hclaimed uid (e ▸ hk)]
          · exact hk
        · rw [hname] at e
          cases e
          exact ⟨by simp, hfree⟩

/-- **Updates that pass the check** are well claimed, and ask for no name that was claimed for
another account before. -/
theorem claims_of_checkClaims {claimed : Index String}
    (h : s.checkClaims updates claimed = .ok ()) :
    Claims s updates ∧ ∀ u ∈ updates, ∀ name, u.username = some name →
      ∀ uid, claimed.find? name = some uid → uid = u.uid := by
  induction updates generalizing claimed with
  | nil => exact ⟨⟨by simp, .nil⟩, by simp⟩
  | cons u us ih =>
    obtain ⟨claimed', hus, hkept, hu⟩ := checkClaims_cons h
    obtain ⟨hc, hapart⟩ := ih hus
    refine ⟨⟨?_, List.pairwise_cons.2 ⟨?_, hc.agree⟩⟩, ?_⟩
    · rw [List.forall_mem_cons]
      exact ⟨fun name e => (hu name e).2, hc.free⟩
    · intro v hv name eu ev
      exact hapart v hv name ev u.uid (hu name eu).1
    · rw [List.forall_mem_cons]
      refine ⟨fun name e uid hk => ?_, fun v hv name e uid hk => ?_⟩
      · have huid := hkept name uid hk
        rw [(hu name e).1] at huid
        exact (Option.some.inj huid).symm
      · exact hapart v hv name e uid (hkept name uid hk)

/-- **One update renames its account**, or leaves all names alone. -/
theorem updateAccount_names (s : Store) (u : AccountUpdate) :
    ((s.updateAccount u).2.usernames = s.usernames ∧
      ∀ uid, (s.updateAccount u).2.nameOf uid = s.nameOf uid) ∨
    ∃ old name, u.username = some name ∧ s.nameOf u.uid = some old ∧ name ≠ old ∧
      (s.updateAccount u).2.usernames = (s.usernames.erase old).insert name u.uid ∧
      ∀ uid, (s.updateAccount u).2.nameOf uid = if uid = u.uid then some name else s.nameOf uid := by
  unfold updateAccount
  split
  · exact .inl ⟨rfl, fun _ => rfl⟩
  · rename_i a ha
    have hold : s.nameOf u.uid = some a.username := nameOf_eq_some_iff.2 ⟨a, ha, rfl⟩
    simp only
    split
    · rename_i hsame
      refine .inl ⟨rfl, fun uid => ?_⟩
      rw [nameOf_insert, hsame]
      split
      · rename_i e
        rw [e, hold]
      · rfl
    · rename_i hne
      cases hname : u.username with
      | none => simp [Account.updated, hname] at hne
      | some name =>
        have he : (a.updated u).username = name := by simp [Account.updated, hname]
        rw [he] at hne
        refine .inr ⟨a.username, name, rfl, hold, hne, by rw [he], fun uid => ?_⟩
        rw [nameOf_insert, he]

/-- **One update** answers with the account as it is then. -/
theorem updateAccount_fst (h : s.hasAccount u.uid = true) :
    ∃ user, (s.updateAccount u).1 = some user ∧ user.uid = u.uid ∧
      user.username = (s.updateAccount u).2.nameOf u.uid := by
  obtain ⟨a, ha⟩ := Index.contains_iff.1 h
  unfold updateAccount
  rw [ha]
  refine ⟨_, rfl, rfl, ?_⟩
  rw [nameOf_insert, if_pos rfl]
  rfl

/-- **The index stays exact** if the name is nobody's or the account's own. -/
theorem named_updateAccount (h : Named s)
    (hfree : ∀ name, u.username = some name →
      ∀ uid, s.usernames.find? name = some uid → uid = u.uid) :
    Named (s.updateAccount u).2 := by
  rcases updateAccount_names s u with ⟨hu, hn⟩ | ⟨old, new, hnew, hold, hne, hu, hn⟩
  · exact h.of_same hu hn
  · intro name uid
    rw [hu, hn, Index.find?_insert, Index.find?_erase]
    by_cases huid : uid = u.uid
    · rw [if_pos huid, huid]
      by_cases e : name = new
      · simp [e]
      · -- The account has the new name only, and the old one was its own alone.
        rw [if_neg e]
        refine iff_of_false (fun hfind => ?_) (fun e' => e (Option.some.inj e').symm)
        split at hfind
        · cases hfind
        · rename_i hno
          rw [h name u.uid, hold] at hfind
          exact hno (Option.some.inj hfind).symm
    · rw [if_neg huid]
      by_cases e : name = new
      · rw [if_pos e]
        refine iff_of_false (fun e' => huid (Option.some.inj e').symm) (fun hname => huid ?_)
        rw [e] at hname
        exact hfree new hnew uid ((h new uid).2 hname)
      · rw [if_neg e]
        split
        · rename_i e'
          refine iff_of_false (fun hno => by cases hno) (fun hname => huid ?_)
          rw [e'] at hname
          exact h.unique hname hold
        · exact h name uid

/-- **The rest of the updates** is as well claimed after the first one as before. -/
theorem Claims.updateAccount (h : Claims s (u :: us)) :
    Claims (s.updateAccount u).2 us where
  free v hv name ev uid hfind := by
    have hv' : v ∈ u :: us := List.mem_cons_of_mem _ hv
    rcases updateAccount_names s u with ⟨hu, -⟩ | ⟨old, new, hnew, -, -, hu, -⟩
    · rw [hu] at hfind
      exact h.free v hv' name ev uid hfind
    · rw [hu, Index.find?_insert] at hfind
      split at hfind
      · rename_i e
        cases hfind
        exact (List.pairwise_cons.1 h.agree).1 v hv new hnew (e ▸ ev)
      · rw [Index.find?_erase] at hfind
        split at hfind
        · cases hfind
        · exact h.free v hv' name ev uid hfind
  agree := (List.pairwise_cons.1 h.agree).2

theorem named_applyUpdates (h : Named s) (hc : Claims s updates) :
    Named (applyUpdates updates s).2 := by
  induction updates generalizing s with
  | nil => exact h
  | cons u us ih =>
    exact ih (named_updateAccount h (hc.free u (by simp))) hc.updateAccount

/-- A name that an account has after some updates is its old one, or one that an update asks for. -/
theorem nameOf_applyUpdates {uid name : String}
    (h : (applyUpdates updates s).2.nameOf uid = some name) :
    s.nameOf uid = some name ∨ ∃ u ∈ updates, u.uid = uid ∧ u.username = some name := by
  induction updates generalizing s with
  | nil => exact .inl h
  | cons u us ih =>
    rcases ih h with (h : (s.updateAccount u).2.nameOf uid = some name) | ⟨v, hv, e⟩
    · rcases updateAccount_names s u with ⟨-, hn⟩ | ⟨old, new, hnew, -, -, -, hn⟩
      · rw [hn] at h
        exact .inl h
      · rw [hn] at h
        split at h
        · rename_i e
          cases h
          exact .inr ⟨u, by simp, e.symm, hnew⟩
        · exact .inl h
    · exact .inr ⟨v, List.mem_cons_of_mem _ hv, e⟩

/-- **Updates are refused or applied**, and then they are valid and well claimed. -/
theorem updateAccounts_cases (s : Store) (updates : List AccountUpdate) :
    (∃ e, s.updateAccounts updates = (.error e, s)) ∨
    ((∀ u ∈ updates, checkAccount u.username u.role = .ok () ∧ s.hasAccount u.uid = true) ∧
        Claims s updates) ∧
      s.updateAccounts updates = (.ok (applyUpdates updates s).1, (applyUpdates updates s).2) := by
  unfold updateAccounts
  split
  · exact .inl ⟨_, rfl⟩
  · rename_i hcheck
    split
    · exact .inl ⟨_, rfl⟩
    · rename_i hclaims
      refine .inr ⟨⟨fun u hu => ?_, (claims_of_checkClaims hclaims).1⟩, rfl⟩
      exact ⟨checkUpdates_ok hcheck u hu, checkClaims_ok hclaims u hu⟩

end Updates

/-! ### Any operation -/

section Perform

variable {s t : Store} {uid name : String}

theorem Step.named (hstep : Step s t) (hs : Sound s) (h : Named s) : Named t := by
  cases hstep with
  | alters ha => exact h.of_same ha.usernames ha.nameOf
  | grows hg => exact h.of_same hg.usernames hg.nameOf
  | shares hsh => exact h.of_same hsh.usernames hsh.nameOf
  | account new => exact h.createAccount hs new
  | updates updates =>
    rcases updateAccounts_cases s updates with ⟨e, he⟩ | ⟨⟨-, hc⟩, he⟩
    · rw [he]
      exact h
    · rw [he]
      exact named_applyUpdates h hc

/-- **A name that is known does not pass** to another account: whoever has it after an operation
had it before, or nobody had it, and then it is a valid one. -/
theorem Step.nameOf_cases (hstep : Step s t) (h : Named s) (hn : t.nameOf uid = some name) :
    s.nameOf uid = some name ∨ s.isKnown name = false ∧ isValidUsername name = true := by
  cases hstep with
  | alters ha => exact .inl (by rwa [← ha.nameOf])
  | grows hg => exact .inl (by rwa [← hg.nameOf])
  | shares hsh => exact .inl (by rwa [← hsh.nameOf])
  | account new =>
    rcases createAccount_cases s new with ⟨e, he⟩ | ⟨⟨hvalid, -, hfree⟩, he⟩
    · rw [he] at hn
      exact .inl hn
    · rw [he, nameOf_insert] at hn
      split at hn
      · cases hn
        exact .inr ⟨hfree, hvalid⟩
      · exact .inl hn
  | updates updates =>
    rcases updateAccounts_cases s updates with ⟨e, he⟩ | ⟨⟨hchecked, hc⟩, he⟩
    · rw [he] at hn
      exact .inl hn
    · rw [he] at hn
      rcases nameOf_applyUpdates hn with hn | ⟨u, hu, rfl, e⟩
      · exact .inl hn
      · cases hk : s.isKnown name with
        | false =>
          have hv := (checkAccount_eq_ok_iff.1 (hchecked u hu).1).1
          rw [e] at hv
          exact .inr ⟨rfl, hv⟩
        | true =>
          -- The name was claimed, so that its holder is the account that asks for it.
          obtain ⟨holder, hfind⟩ := Index.contains_iff.1 hk
          rw [hc.free u hu name e holder hfind] at hfind
          exact .inl ((h name u.uid).1 hfind)

/-- An exact index, of valid names. -/
structure WellNamed (s : Store) : Prop where
  sound : Sound s
  named : Named s
  valid : ∀ {uid name}, s.nameOf uid = some name → isValidUsername name = true

theorem WellNamed.step (h : WellNamed s) (hstep : Step s t) : WellNamed t where
  sound := hstep.sound h.sound
  named := hstep.named h.sound h.named
  valid hn := by
    rcases hstep.nameOf_cases h.named hn with hn | ⟨-, hv⟩
    · exact h.valid hn
    · exact hv

theorem wellNamed_after (actions : List Action) : WellNamed (after actions) := by
  refine after_induction (P := WellNamed) ⟨sound_empty, named_empty, fun h => ?_⟩ ?_ actions
  · simp [nameOf, empty, EmptyCollection.emptyCollection] at h
  · intro action s hs
    exact hs.step (step_perform action hs.sound)

/-! ### Look-ups by name -/

/-- What the names of accounts are, and what is found by them. -/
structure NamesExact (s : Store) : Prop where
  /-- the index leads to an account from its name and from no other -/
  index : ∀ name uid, s.usernames.find? name = some uid ↔
    ∃ a, s.accounts.find? uid = some a ∧ a.username = name
  /-- no two accounts have one name -/
  unique : ∀ {uid uid' a a'}, s.accounts.find? uid = some a → s.accounts.find? uid' = some a' →
    a.username = a'.username → uid = uid'
  /-- a name is not blank, and starts with no tilde -/
  name : ∀ {uid a}, s.accounts.find? uid = some a →
    Text.trim a.username.toList ≠ [] ∧ a.username.toList.head? ≠ some '~'
  /-- a role is not empty, and has no separator and no blank in it -/
  role : ∀ {uid a}, s.accounts.find? uid = some a →
    a.role ≠ "" ∧ ∀ c ∈ a.role.toList, c ∉ ['.', ':', ','] ∧ Text.isBlank c = false
  /-- a name is known if it is that of an account -/
  known : ∀ name, s.isKnown name = true ↔ ∃ uid a, s.accounts.find? uid = some a ∧ a.username = name
  /-- who is found by a name is who has it -/
  found : ∀ name u, s.findUsername name = some u ↔
    ∃ uid a, s.accounts.find? uid = some a ∧ a.username = name ∧ u = a.toUser uid
  /-- whoever is let in by a name has it, and has the password -/
  authenticated : ∀ name password u, s.authenticate name password = some u ↔
    ∃ uid a, s.accounts.find? uid = some a ∧ a.username = name ∧
      a.credential.accepts password = true ∧ u = a.toUser uid

/-- A name that an account had, and has no longer, leads nowhere. -/
def Releases (s t : Store) : Prop :=
  ∀ uid name, s.nameOf uid = some name → t.nameOf uid ≠ some name →
    t.isKnown name = false ∧ t.findUsername name = none ∧
      ∀ password, t.authenticate name password = none

theorem Named.accountNamed?_eq_some_iff (h : Named s) {a : Account} :
    s.accountNamed? name = some (uid, a) ↔ s.accounts.find? uid = some a ∧ a.username = name := by
  rw [Store.accountNamed?_eq_some_iff, h, nameOf_eq_some_iff]
  constructor
  · rintro ⟨⟨a', ha', e⟩, ha⟩
    rw [ha] at ha'
    cases ha'
    exact ⟨ha, e⟩
  · rintro ⟨ha, e⟩
    exact ⟨⟨a, ha, e⟩, ha⟩

theorem Named.findUsername_eq_some_iff (h : Named s) {u : User} :
    s.findUsername name = some u ↔
      ∃ uid a, s.accounts.find? uid = some a ∧ a.username = name ∧ u = a.toUser uid := by
  unfold findUsername
  rw [Option.map_eq_some_iff]
  constructor
  · rintro ⟨⟨uid, a⟩, hn, rfl⟩
    obtain ⟨ha, e⟩ := h.accountNamed?_eq_some_iff.1 hn
    exact ⟨uid, a, ha, e, rfl⟩
  · rintro ⟨uid, a, ha, e, rfl⟩
    exact ⟨(uid, a), h.accountNamed?_eq_some_iff.2 ⟨ha, e⟩, rfl⟩

theorem Named.authenticate_eq_some_iff (h : Named s) {password : String} {u : User} :
    s.authenticate name password = some u ↔
      ∃ uid a, s.accounts.find? uid = some a ∧ a.username = name ∧
        a.credential.accepts password = true ∧ u = a.toUser uid := by
  unfold authenticate
  rw [Option.bind_eq_bind, Option.bind_eq_some_iff]
  constructor
  · rintro ⟨⟨uid, a⟩, hn, hu⟩
    obtain ⟨ha, e⟩ := h.accountNamed?_eq_some_iff.1 hn
    simp only at hu
    split at hu
    · cases hu
      exact ⟨uid, a, ha, e, by assumption, rfl⟩
    · cases hu
  · rintro ⟨uid, a, ha, e, hp, rfl⟩
    exact ⟨(uid, a), h.accountNamed?_eq_some_iff.2 ⟨ha, e⟩, by simp [hp]⟩

theorem of_isValidUsername (h : isValidUsername name = true) :
    Text.trim name.toList ≠ [] ∧ name.toList.head? ≠ some '~' := by
  unfold isValidUsername at h
  simpa [reservedUsernameStart] using h

theorem WellNamed.namesExact (h : WellNamed s) : NamesExact s where
  index name uid := by rw [h.named, nameOf_eq_some_iff]
  unique ha ha' e :=
    h.named.unique (nameOf_eq_some_iff.2 ⟨_, ha, e⟩) (nameOf_eq_some_iff.2 ⟨_, ha', rfl⟩)
  name ha := of_isValidUsername (h.valid (nameOf_eq_some_iff.2 ⟨_, ha, rfl⟩))
  role ha := of_isValidRole (h.sound.role ha)
  known name := by simp only [h.named.isKnown_iff, nameOf_eq_some_iff]
  found _ _ := h.named.findUsername_eq_some_iff
  authenticated _ _ _ := h.named.authenticate_eq_some_iff

/-- **A released name leads nowhere**: it could only have passed to somebody else if nobody had
had it. -/
theorem WellNamed.releases (h : WellNamed s) (hstep : Step s t) : Releases s t := by
  intro uid name hold hgone
  have ht : Named t := hstep.named h.sound h.named
  have hnobody : ∀ k, t.nameOf k ≠ some name := by
    intro k hk
    rcases hstep.nameOf_cases h.named hk with hk' | ⟨hunknown, -⟩
    · rw [h.named.unique hk' hold] at hk
      exact hgone hk
    · rw [h.named.isKnown_iff.2 ⟨uid, hold⟩] at hunknown
      cases hunknown
  have hnone : ∀ k a, t.accounts.find? k = some a → a.username ≠ name :=
    fun k a ha e => hnobody k (nameOf_eq_some_iff.2 ⟨a, ha, e⟩)
  refine ⟨?_, ?_, fun password => ?_⟩
  · rw [← Bool.not_eq_true, ht.isKnown_iff]
    rintro ⟨k, hk⟩
    exact hnobody k hk
  · rw [Option.eq_none_iff_forall_ne_some]
    intro u hu
    obtain ⟨k, a, ha, e, -⟩ := ht.findUsername_eq_some_iff.1 hu
    exact hnone k a ha e
  · rw [Option.eq_none_iff_forall_ne_some]
    intro u hu
    obtain ⟨k, a, ha, e, -⟩ := ht.authenticate_eq_some_iff.1 hu
    exact hnone k a ha e

/-- **The index of usernames is exact** after any operations, refused ones among them; and a name
that one more operation takes from an account is unknown right after it. -/
theorem usernames_after (actions : List Action) (action : Action) :
    NamesExact (after actions) ∧
      Releases (after actions) (action.perform (after actions)) :=
  ⟨(wellNamed_after actions).namesExact,
    (wellNamed_after actions).releases (step_perform action (sound_after actions))⟩

end Perform

/-- A name that one update of a list gives up is not free for the next one. -/
example : ((after [.createAccount ⟨"ann", "", "user", none⟩,
      .createAccount ⟨"bob", "", "user", none⟩]).updateAccounts
    [⟨"0x1", some "cal", none, none, none⟩, ⟨"0x2", some "ann", none, none, none⟩]).1 =
      .error (.usernameTaken "ann") := by decide +kernel

end SealedGraph.Store
