import Mathlib.Data.List.Induction
import SealedGraph.Proofs.Store.Basic
import SealedGraph.Store.Accounts

/-!
# What changes of accounts touch

* `sound_createAccount`, `extends_createAccount`: a new account has a new uid.
* `revises_updateAccounts`: accounts keep their uids and their lists of nodes, and have another role
  only if an update says so.
* `uids_updateAccounts`: an answer names the accounts of the updates.
* `sound_withAccounts`: a store that was given nothing but accounts.
-/

namespace SealedGraph.Store

/-! ### Checks -/

theorem checkAccount_eq_ok_iff {username role : Option String} :
    checkAccount username role = .ok () ↔
      username.all isValidUsername = true ∧ role.all isValidRole = true := by
  unfold checkAccount
  rcases username with _ | name
  · rcases role with _ | role
    · simp
    · cases h : isValidRole role <;> simp [Option.filter, h]
  · cases hn : isValidUsername name
    · simp [Option.filter, hn]
    · rcases role with _ | role
      · simp [Option.filter, hn]
      · cases h : isValidRole role <;> simp [Option.filter, hn, h]

theorem checkUpdates_ok {updates : List AccountUpdate} (h : checkUpdates updates = .ok ()) :
    ∀ u ∈ updates, checkAccount u.username u.role = .ok () := by
  induction updates with
  | nil => simp
  | cons u us ih =>
    unfold checkUpdates at h
    cases hu : checkAccount u.username u.role with
    | error e => rw [hu] at h; cases h
    | ok _ =>
      rw [hu] at h
      intro v hv
      rcases List.mem_cons.1 hv with rfl | hv
      · exact hu
      · exact ih h v hv

theorem checkClaims_ok {s : Store} {updates : List AccountUpdate} {claimed : Index String}
    (h : s.checkClaims updates claimed = .ok ()) : ∀ u ∈ updates, s.hasAccount u.uid = true := by
  induction updates generalizing claimed with
  | nil => simp
  | cons u us ih =>
    unfold checkClaims at h
    split at h
    · cases h
    · rename_i hu
      rw [Bool.not_eq_true', Bool.not_eq_false] at hu
      have hus : ∀ v ∈ us, s.hasAccount v.uid = true := by
        split at h
        · exact ih h
        · simp only at h
          split at h
          · cases h
          · exact ih h
      intro v hv
      rcases List.mem_cons.1 hv with rfl | hv
      · exact hu
      · exact hus v hv

/-! ### New accounts -/

section Create

variable {s : Store} {new : NewAccount}

/-- **An account is refused or made**, under a uid and a name that were nobody's. -/
theorem createAccount_cases (s : Store) (new : NewAccount) :
    (∃ e, s.createAccount new = (.error e, s)) ∨
    (isValidUsername new.username = true ∧ isValidRole new.role = true ∧
        s.isKnown new.username = false) ∧
      s.createAccount new =
        (.ok ⟨uidOf (s.lastUid + 1), none, some new.username, some new.role, new.data⟩,
          { s with
            lastUid := s.lastUid + 1
            accounts := s.accounts.insert (uidOf (s.lastUid + 1))
              ⟨new.username, new.role, new.data, ⟨new.password⟩, [], []⟩
            usernames := s.usernames.insert new.username (uidOf (s.lastUid + 1)) }) := by
  unfold createAccount
  split
  · exact .inl ⟨_, rfl⟩
  · rename_i hc
    obtain ⟨hname, hrole⟩ := checkAccount_eq_ok_iff.1 hc
    split
    · exact .inl ⟨_, rfl⟩
    · rename_i hfree
      exact .inr ⟨⟨hname, hrole, Bool.not_eq_true _ ▸ hfree⟩, rfl⟩

theorem extends_createAccount : Extends s (s.createAccount new).2 := by
  rcases createAccount_cases s new with ⟨e, h⟩ | ⟨-, h⟩
  · rw [h]
    exact .refl s
  · rw [h]
    refine ⟨Nat.le_succ _, fun hr => ⟨_, hr, rfl, rfl, rfl, rfl⟩, fun {uid} ha => ?_⟩
    obtain ⟨a, ha⟩ := Index.contains_iff.1 ha
    refine Index.contains_iff.2 ?_
    simp only [Index.find?_insert]
    split
    · exact ⟨_, rfl⟩
    · exact ⟨a, ha⟩

theorem sound_createAccount (hs : Sound s) : Sound (s.createAccount new).2 := by
  have hext : Extends s (s.createAccount new).2 := extends_createAccount
  rcases createAccount_cases s new with ⟨e, h⟩ | ⟨⟨-, hr, -⟩, h⟩
  · rw [h]
    exact hs
  · rw [h] at hext ⊢
    have hfresh := fresh_succ s.lastUid
    refine ⟨fun hn => (hs.nodeUid hn).mono (Nat.le_succ _), fun {uid a} ha => ?_,
      fun {uid r} hn => ?_, fun hn => hext.account (hs.owner hn), fun {uid a} ha => ?_⟩
    · simp only [Index.find?_insert] at ha
      split at ha
      · rename_i e
        rw [e]
        exact hfresh.assigned
      · exact (hs.accountUid ha).mono (Nat.le_succ _)
    · simp only [Index.find?_insert]
      rw [if_neg]
      · exact hs.disjoint hn
      · rintro rfl
        rw [(hs.find?_of_fresh hfresh).1] at hn
        cases hn
    · simp only [Index.find?_insert] at ha
      split at ha
      · cases ha
        exact hr
      · exact hs.role ha

theorem hasAccount_createAccount {user : User} {t : Store}
    (h : s.createAccount new = (.ok user, t)) : t.hasAccount user.uid = true := by
  rcases createAccount_cases s new with ⟨e, he⟩ | ⟨-, ho⟩
  · rw [he] at h
    cases h
  · rw [ho] at h
    cases h
    exact Index.contains_iff.2 ⟨_, by rw [Index.find?_insert, if_pos rfl]⟩

end Create

/-- The store with some accounts, made one after the other; an account that is refused is passed
over. -/
def withAccounts (accounts : List NewAccount) : Store :=
  accounts.foldl (fun s new => (s.createAccount new).2) empty

theorem sound_withAccounts (accounts : List NewAccount) : Sound (withAccounts accounts) := by
  unfold withAccounts
  have h : ∀ s, Sound s → Sound (accounts.foldl (fun s new => (s.createAccount new).2) s) := by
    induction accounts with
    | nil => exact fun _ hs => hs
    | cons new news ih => exact fun s hs => ih _ (sound_createAccount hs)
  exact h _ sound_empty

theorem withAccounts_concat (accounts : List NewAccount) (new : NewAccount) :
    withAccounts (accounts ++ [new]) = ((withAccounts accounts).createAccount new).2 := by
  unfold withAccounts
  rw [List.foldl_append]
  rfl

theorem nodes_withAccounts (accounts : List NewAccount) : (withAccounts accounts).nodes = ∅ := by
  induction accounts using List.reverseRecOn with
  | nil => rfl
  | append_singleton news new ih =>
    rw [withAccounts_concat, ← ih]
    rcases createAccount_cases (withAccounts news) new with ⟨e, h⟩ | ⟨-, h⟩
    · rw [h]
    · rw [h]

/-! ### Changed accounts -/

/-- An account with a uid after some updates: its lists of nodes are the same, and its role is one
that an update of the uid asks for, or the same. -/
structure Revised (updates : List AccountUpdate) (uid : String) (a a' : Account) : Prop where
  owned : a'.owned = a.owned
  shared : a'.shared = a.shared
  role : a'.role = a.role ∨ ∃ u ∈ updates, u.uid = uid ∧ u.role = some a'.role

/-- What updates do to a store: accounts are revised. -/
structure Revises (updates : List AccountUpdate) (s t : Store) : Prop where
  lastUid : t.lastUid = s.lastUid
  nodes : t.nodes = s.nodes
  account : ∀ {uid a}, s.accounts.find? uid = some a →
    ∃ a', t.accounts.find? uid = some a' ∧ Revised updates uid a a'
  noAccount : ∀ {uid}, s.accounts.find? uid = none → t.accounts.find? uid = none

section Update

variable {updates : List AccountUpdate} {s t u : Store}

theorem Revises.refl (s : Store) : Revises updates s s where
  lastUid := rfl
  nodes := rfl
  account h := ⟨_, h, rfl, rfl, .inl rfl⟩
  noAccount h := h

theorem Revises.trans (h : Revises updates s t) (h' : Revises updates t u) :
    Revises updates s u where
  lastUid := h'.lastUid.trans h.lastUid
  nodes := h'.nodes.trans h.nodes
  account ha := by
    obtain ⟨a', ha', hr⟩ := h.account ha
    obtain ⟨a'', ha'', hr'⟩ := h'.account ha'
    refine ⟨a'', ha'', hr'.owned.trans hr.owned, hr'.shared.trans hr.shared, ?_⟩
    rcases hr'.role with e | h
    · rw [e]
      exact hr.role
    · exact .inr h
  noAccount ha := h'.noAccount (h.noAccount ha)

theorem Revises.of_account (h : Revises updates s t) {uid : String} {a' : Account}
    (ha' : t.accounts.find? uid = some a') :
    ∃ a, s.accounts.find? uid = some a ∧ Revised updates uid a a' := by
  cases ha : s.accounts.find? uid with
  | none => rw [h.noAccount ha] at ha'; cases ha'
  | some a =>
    obtain ⟨a'', ha'', hr⟩ := h.account ha
    rw [ha'] at ha''
    cases ha''
    exact ⟨a, rfl, hr⟩

theorem Revises.extends (h : Revises updates s t) : Extends s t where
  lastUid := Nat.le_of_eq h.lastUid.symm
  node hr := ⟨_, by rw [h.nodes]; exact hr, rfl, rfl, rfl, rfl⟩
  account ha := by
    obtain ⟨a, ha⟩ := Index.contains_iff.1 ha
    obtain ⟨a', ha', -⟩ := h.account ha
    exact Index.contains_iff.2 ⟨_, ha'⟩

theorem Revises.sound (h : Revises updates s t) (hs : Sound s)
    (hv : ∀ u ∈ updates, u.role.all isValidRole = true) : Sound t where
  nodeUid hr := by
    rw [h.nodes] at hr
    rw [h.lastUid]
    exact hs.nodeUid hr
  accountUid ha' := by
    obtain ⟨a, ha, -⟩ := h.of_account ha'
    rw [h.lastUid]
    exact hs.accountUid ha
  disjoint hr := by
    rw [h.nodes] at hr
    exact h.noAccount (hs.disjoint hr)
  owner hr := by
    rw [h.nodes] at hr
    exact h.extends.account (hs.owner hr)
  role ha' := by
    obtain ⟨a, ha, hr⟩ := h.of_account ha'
    rcases hr.role with e | ⟨u, hu, -, e⟩
    · rw [e]
      exact hs.role ha
    · have := hv u hu
      rw [e] at this
      exact this

theorem revises_updateAccount {u : AccountUpdate} (hu : u ∈ updates) (s : Store) :
    Revises updates s (s.updateAccount u).2 := by
  unfold updateAccount
  split
  · exact .refl s
  · rename_i a ha
    refine ⟨rfl, rfl, fun {uid b} hb => ?_, fun {uid} hb => ?_⟩
    · simp only [Index.find?_insert]
      split
      · rename_i e
        subst e
        rw [ha] at hb
        cases hb
        refine ⟨_, rfl, rfl, rfl, ?_⟩
        rcases hr : u.role with _ | role
        · exact .inl (by simp [Account.updated, hr])
        · exact .inr ⟨u, hu, rfl, by simp [Account.updated, hr]⟩
      · exact ⟨b, hb, rfl, rfl, .inl rfl⟩
    · simp only [Index.find?_insert]
      rw [if_neg]
      · exact hb
      · rintro rfl
        rw [ha] at hb
        cases hb

theorem hasAccount_updateAccount (u : AccountUpdate) {uid : String}
    (h : s.hasAccount uid = true) : (s.updateAccount u).2.hasAccount uid = true :=
  (revises_updateAccount (List.mem_singleton_self u) s).extends.account h

theorem revises_applyUpdates {us : List AccountUpdate} (hus : ∀ u ∈ us, u ∈ updates) (s : Store) :
    Revises updates s (applyUpdates us s).2 := by
  induction us generalizing s with
  | nil => exact .refl s
  | cons u us ih =>
    exact (revises_updateAccount (hus u (by simp)) s).trans
      (ih (fun v hv => hus v (List.mem_cons_of_mem _ hv)) _)

/-- **Accounts are changed** as the updates say, or not at all. -/
theorem revises_updateAccounts (s : Store) (updates : List AccountUpdate) :
    Revises updates s (s.updateAccounts updates).2 := by
  unfold updateAccounts
  split
  · exact .refl s
  · split
    · exact .refl s
    · exact revises_applyUpdates (fun _ h => h) s

theorem sound_updateAccounts (hs : Sound s) : Sound (s.updateAccounts updates).2 := by
  cases hc : checkUpdates updates with
  | error e =>
    have : s.updateAccounts updates = (.error e, s) := by
      unfold updateAccounts
      rw [hc]
    rw [this]
    exact hs
  | ok _ =>
    exact (revises_updateAccounts s updates).sound hs fun u hu =>
      (checkAccount_eq_ok_iff.1 (checkUpdates_ok hc u hu)).2

theorem updateAccounts_eq_error {e : StoreError} (h : (s.updateAccounts updates).1 = .error e) :
    (s.updateAccounts updates).2 = s := by
  unfold updateAccounts at h ⊢
  split
  · rfl
  · rename_i hc
    rw [hc] at h
    simp only at h
    split
    · rfl
    · rename_i hc'
      rw [hc'] at h
      cases h

theorem uids_applyUpdates {us : List AccountUpdate} (h : ∀ u ∈ us, s.hasAccount u.uid = true) :
    (applyUpdates us s).1.map User.uid = us.map AccountUpdate.uid := by
  induction us generalizing s with
  | nil => rfl
  | cons u us ih =>
    obtain ⟨a, ha⟩ := Index.contains_iff.1 (h u (by simp))
    have hext := (revises_updateAccount (List.mem_singleton_self u) s).extends
    have hus := ih (s := (s.updateAccount u).2) fun v hv =>
      hext.account (h v (List.mem_cons_of_mem _ hv))
    have hu : (s.updateAccount u).1 = some ((a.updated u).toUser u.uid) := by
      unfold updateAccount
      rw [ha]
    unfold applyUpdates
    simp only [hu, Option.toList_some, List.cons_append, List.nil_append, List.map_cons, hus]
    rfl

/-- **The answer names the accounts** that were to be changed, in the order of the updates. -/
theorem uids_updateAccounts {users : List User} (h : (s.updateAccounts updates).1 = .ok users) :
    users.map User.uid = updates.map AccountUpdate.uid ∧
      ∀ u ∈ updates, s.hasAccount u.uid = true := by
  unfold updateAccounts at h
  split at h
  · cases h
  · split at h
    · cases h
    · rename_i hc
      cases h
      exact ⟨uids_applyUpdates (checkClaims_ok hc), checkClaims_ok hc⟩

theorem hasAccount_updateAccounts {users : List User} {t : Store}
    (h : s.updateAccounts updates = (.ok users, t)) {u : User} (hu : u ∈ users) :
    t.hasAccount u.uid = true := by
  have hext := (revises_updateAccounts s updates).extends
  obtain ⟨he, ha⟩ := uids_updateAccounts (by rw [h] : (s.updateAccounts updates).1 = .ok users)
  rw [h] at hext
  have hm : u.uid ∈ updates.map AccountUpdate.uid := he ▸ List.mem_map_of_mem hu
  obtain ⟨v, hv, e⟩ := List.mem_map.1 hm
  rw [← e]
  exact hext.account (ha v hv)

end Update

/-! ### Accounts that are looked up -/

theorem hasAccount_of_findUser {s : Store} {uid : String} {u : User} (h : s.findUser uid = some u) :
    s.hasAccount u.uid = true := by
  obtain ⟨a, ha, rfl⟩ := Option.map_eq_some_iff.1 h
  exact Index.contains_iff.2 ⟨a, ha⟩

theorem accountNamed?_eq_some_iff {s : Store} {name uid : String} {a : Account} :
    s.accountNamed? name = some (uid, a) ↔
      s.usernames.find? name = some uid ∧ s.accounts.find? uid = some a := by
  unfold accountNamed?
  cases hn : s.usernames.find? name with
  | none => simp
  | some uid' =>
    cases ha : s.accounts.find? uid' with
    | none =>
      simp only [Option.bind_eq_bind, Option.bind_some, ha, Option.bind_none, reduceCtorEq,
        Option.some.injEq, false_iff, not_and]
      rintro rfl
      simp [ha]
    | some a' =>
      simp only [Option.bind_eq_bind, Option.bind_some, ha, Option.pure_def, Option.some.injEq,
        Prod.mk.injEq]
      constructor
      · rintro ⟨rfl, rfl⟩
        exact ⟨rfl, ha⟩
      · rintro ⟨rfl, h⟩
        rw [ha] at h
        cases h
        exact ⟨rfl, rfl⟩

/-- **A name and a password** belong to an account. -/
theorem of_authenticate_eq_some {s : Store} {name password : String} {u : User}
    (h : s.authenticate name password = some u) :
    ∃ uid a, s.usernames.find? name = some uid ∧ s.accounts.find? uid = some a ∧
      u = a.toUser uid := by
  obtain ⟨⟨uid, a⟩, hn, hu⟩ := Option.bind_eq_some_iff.1 h
  obtain ⟨hn, ha⟩ := accountNamed?_eq_some_iff.1 hn
  simp only at hu
  split at hu
  · cases hu
    exact ⟨uid, a, hn, ha, rfl⟩
  · cases hu

theorem hasAccount_of_findUsername {s : Store} {name : String} {u : User}
    (h : s.findUsername name = some u) : s.hasAccount u.uid = true := by
  obtain ⟨⟨uid, a⟩, hn, rfl⟩ := Option.map_eq_some_iff.1 h
  exact Index.contains_iff.2 ⟨a, (accountNamed?_eq_some_iff.1 hn).2⟩

end SealedGraph.Store
