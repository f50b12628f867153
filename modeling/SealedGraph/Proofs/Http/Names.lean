import SealedGraph.Proofs.Http.Logins
import SealedGraph.Proofs.Http.Sharing
import SealedGraph.Proofs.Store.Usernames

/-!
# Who has a name during some requests

A name leads to one account at most. It comes to an account when the account is made, or by a change
of accounts whose answer says so; no other request gives a name to anybody.

* `nameOf_updateAccounts`: the answer to a change of accounts names the accounts as they are then.
* `Call.nameOf_effect`: all other calls leave the names of accounts alone.
* `Exchange.made?`, `Exchange.changed`: the accounts that a request made or changed.
* `nameOf_serve`: how an account comes by a name.
* `wellNamed_run`: the index of names stays exact.
-/

namespace SealedGraph

open Attempt

namespace Store

/-! ### Changes of accounts -/

section Updates

variable {s t : Store} {u : AccountUpdate} {us : List AccountUpdate} {uid : String}

theorem nameOf_eq_none (h : s.hasAccount uid = false) : s.nameOf uid = none := by
  unfold nameOf
  rw [Index.contains_eq_false_iff.1 h]
  rfl

theorem hasAccount_of_nameOf {name : String} (h : s.nameOf uid = some name) :
    s.hasAccount uid = true := by
  cases ha : s.hasAccount uid with
  | true => rfl
  | false =>
    rw [nameOf_eq_none ha] at h
    cases h

theorem nameOf_updateAccount_of_ne (h : uid ≠ u.uid) :
    (s.updateAccount u).2.nameOf uid = s.nameOf uid := by
  rcases updateAccount_names s u with ⟨-, hn⟩ | ⟨old, new, -, -, -, -, hn⟩
  · exact hn uid
  · rw [hn, if_neg h]

/-- **After some updates** an account has the name that the last answer about it says, and one that
no answer is about has the name that it had. -/
theorem nameOf_applyUpdates_cases (h : ∀ u ∈ us, s.hasAccount u.uid = true) (uid : String) :
    (uid ∉ us.map AccountUpdate.uid ∧ (applyUpdates us s).2.nameOf uid = s.nameOf uid) ∨
      ∃ user ∈ (applyUpdates us s).1, user.uid = uid ∧
        user.username = (applyUpdates us s).2.nameOf uid := by
  induction us generalizing s with
  | nil => exact .inl ⟨List.not_mem_nil, rfl⟩
  | cons u us ih =>
    obtain ⟨user, huser, huid, hname⟩ := updateAccount_fst (h u (by simp))
    have hrest := ih (s := (s.updateAccount u).2) fun v hv =>
      hasAccount_updateAccount u (h v (List.mem_cons_of_mem _ hv))
    unfold applyUpdates
    simp only [huser, Option.toList_some, List.cons_append, List.nil_append, List.map_cons]
    rcases hrest with ⟨hno, hsame⟩ | ⟨user', huser', hlast⟩
    · by_cases he : uid = u.uid
      · -- The first update is the last one of the account.
        refine .inr ⟨user, List.mem_cons_self, huid.trans he.symm, ?_⟩
        rw [hsame, he]
        exact hname
      · refine .inl ⟨?_, hsame.trans (nameOf_updateAccount_of_ne he)⟩
        rw [List.mem_cons, not_or]
        exact ⟨he, hno⟩
    · exact .inr ⟨user', List.mem_cons_of_mem _ huser', hlast⟩

/-- **The answer to a change of accounts** names them as they are then; all others keep their
names. -/
theorem nameOf_updateAccounts {users : List User}
    (h : s.updateAccounts us = (.ok users, t)) (uid : String) :
    (uid ∉ users.map User.uid ∧ t.nameOf uid = s.nameOf uid) ∨
      ∃ user ∈ users, user.uid = uid ∧ user.username = t.nameOf uid := by
  obtain ⟨huids, hall⟩ := uids_updateAccounts (by rw [h] : (s.updateAccounts us).1 = .ok users)
  have hcases := nameOf_applyUpdates_cases hall uid
  have happlied : (applyUpdates us s).1 = users ∧ (applyUpdates us s).2 = t := by
    unfold updateAccounts at h
    split at h
    · cases h
    · split at h
      · cases h
      · cases h
        exact ⟨rfl, rfl⟩
  rw [happlied.1, happlied.2] at hcases
  rw [huids]
  exact hcases

end Updates

/-! ### Other operations -/

section Steps

variable {s t : Store} {uid owner group : String}

theorem hasAccount_fresh (hs : Sound s) : s.hasAccount (uidOf (s.lastUid + 1)) = false :=
  Index.contains_eq_false_iff.2 (hs.find?_of_fresh (fresh_succ s.lastUid)).2

/-- A new account has a uid that nobody had. -/
theorem hasAccount_of_createAccount (hs : Sound s) {new : NewAccount} {user : User}
    (h : s.createAccount new = (.ok user, t)) : s.hasAccount user.uid = false := by
  rcases createAccount_cases s new with ⟨e, he⟩ | ⟨-, he⟩
  · rw [he] at h
    cases h
  · rw [he] at h
    cases h
    exact hasAccount_fresh hs

theorem Change.nameOf (h : Change owner group s t) (hs : Sound s) (ha : s.hasAccount uid = true) :
    t.nameOf uid = s.nameOf uid := by
  cases h with
  | nothing => rfl
  | alters h => exact h.nameOf uid
  | grows h _ => exact h.nameOf uid
  | account new =>
    rcases createAccount_cases s new with ⟨e, h⟩ | ⟨-, h⟩
    · rw [h]
    · rw [h, nameOf_insert, if_neg]
      rintro rfl
      rw [hasAccount_fresh hs] at ha
      cases ha

theorem wellNamed_withAccounts (accounts : List NewAccount) :
    WellNamed (withAccounts accounts) := by
  induction accounts using List.reverseRecOn with
  | nil => exact wellNamed_after []
  | append_singleton news new ih =>
    rw [withAccounts_concat]
    exact ih.step (.account new)

end Steps

end Store

open Store

/-! ### Calls -/

namespace Call

variable {s : Store} (hs : Sound s) (m : Moment) (c : Caller)

include hs

/-- **A call that is no change of accounts** leaves the names of all accounts alone. -/
theorem nameOf_effect {uid : String} (ha : s.hasAccount uid = true) {call : Call}
    (hcall : ∀ request, call ≠ .updateAccounts request) :
    (call.effect m c s).nameOf uid = s.nameOf uid := by
  rcases call.sharing_cases with ⟨change, request, h⟩ | ⟨request, rfl⟩ | ⟨hshare, hcall⟩
  · obtain ⟨uids, h⟩ := shares_effect h m c s
    exact h.nameOf uid
  · exact absurd rfl (hcall request)
  · exact (change_effect hs m c hshare hcall).nameOf hs ha

theorem step_effect (call : Call) : Step s (call.effect m c s) := by
  have hsame : Shares [] s s := .refl s
  have hnothing : Step s s := .shares hsame
  rcases call.sharing_cases with ⟨change, request, h⟩ | ⟨request, rfl⟩ | ⟨hshare, hcall⟩
  · obtain ⟨uids, h⟩ := shares_effect h m c s
    exact .shares h
  · simp only [effect]
    split
    · exact .updates _
    · exact hnothing
  · have hchange := change_effect hs m c hshare hcall
    generalize call.effect m c s = t at hchange ⊢
    cases hchange with
    | nothing => exact hnothing
    | alters h => exact .alters h
    | grows h ht => exact .grows h ht
    | account new => exact .account new

end Call

/-- **A change of accounts** fails and leaves the store as it is, or is done and answered with the
accounts as they are then. -/
theorem perform_updateAccounts_cases {m : Moment} {c : Caller} {s t : Server}
    {request : AccountsRequest} {o : Except ServiceError Answer}
    (hr : s.registry.isResponsive = true)
    (h : ((Call.updateAccounts request).perform m c).run s = (o, t)) :
    ((∃ e, o = .error e) ∧ t.store = s.store) ∨
      ∃ updates users, o = .ok (.users (users.map (User.stamp c.key))) ∧
        s.store.updateAccounts updates = (.ok users, t.store) := by
  rcases o with e | answer
  · exact .inl ⟨⟨e, rfl⟩, store_updateAccounts_of_error hr h⟩
  · obtain ⟨updates, -, h⟩ := Service.of_bound_bind_eq_ok h
    obtain ⟨users, t', hu, h⟩ := run_bind_eq_ok h
    obtain ⟨rfl, rfl⟩ := run_pure_eq_ok h
    exact .inr ⟨updates, users, rfl, of_updateAccounts_eq_ok hu⟩

namespace Http

/-! ### Requests -/

namespace Exchange

/-- The account that was made for the request. -/
def made? (x : Exchange) : Option User :=
  match x.outcome with
  | .call _ (.createAccount _) (.ok (.user user)) => some user
  | _ => none

/-- The accounts that were changed for the request, each as it was answered. -/
def changed (x : Exchange) : List User :=
  match x.outcome with
  | .call _ (.updateAccounts _) (.ok (.users users)) => users
  | _ => []

variable {x : Exchange}

theorem of_made? {user : User} (h : x.made? = some user) :
    ∃ c request, x.outcome = .call c (.createAccount request) (.ok (.user user)) := by
  unfold made? at h
  split at h
  · rename_i c request user' ho
    cases h
    exact ⟨c, request, ho⟩
  · cases h

theorem changed_of_outcome {c : Caller} {request : AccountsRequest} {users : List User}
    (h : x.outcome = .call c (.updateAccounts request) (.ok (.users users))) :
    x.changed = users := by
  unfold changed
  rw [h]

theorem changed_eq_nil
    (h : ∀ c request users,
      x.outcome ≠ .call c (.updateAccounts request) (.ok (.users users))) : x.changed = [] := by
  unfold changed
  split
  · rename_i c request users ho
    exact absurd ho (h c request users)
  · rfl

theorem outcome_of_changed (h : x.changed ≠ []) : ∃ c request users,
    x.outcome = .call c (.updateAccounts request) (.ok (.users users)) := by
  by_contra hno
  exact h (changed_eq_nil fun c request users ho => hno ⟨c, request, users, ho⟩)

/-- What clears the failures with a name is a change of an account that has the name then. -/
theorem pardons_iff {u : String} :
    x.Pardons u ↔ ∃ user ∈ x.changed, user.username = some u := by
  constructor
  · rintro ⟨c, request, users, ho, h⟩
    rw [changed_of_outcome ho]
    exact h
  · rintro ⟨user, huser, hname⟩
    obtain ⟨c, request, users, ho⟩ := outcome_of_changed (List.ne_nil_of_mem huser)
    rw [changed_of_outcome ho] at huser
    exact ⟨c, request, users, ho, user, huser, hname⟩

end Exchange

section Step

variable {s : Server} {v : Visit}

/-- **An account that is made** is nobody's before. -/
theorem hasAccount_of_made? (hs : s.store.Sound) {user : User}
    (h : (exchange s v).made? = some user) : s.store.hasAccount user.uid = false := by
  obtain ⟨c, request, ho⟩ := Exchange.of_made? h
  obtain ⟨s', -, -, hst, -, hp⟩ := of_exchange_call ho
  obtain ⟨account, -, hp⟩ := Service.of_bound_bind_eq_ok hp
  obtain ⟨user', t, hcreate, hp⟩ := run_bind_eq_ok hp
  obtain ⟨e, rfl⟩ := run_pure_eq_ok hp
  obtain rfl := Answer.user.inj e
  have hnew := of_createAccount_eq_ok hcreate
  rw [hst] at hnew
  show s.store.hasAccount user'.uid = false
  exact hasAccount_of_createAccount hs hnew

/-- **How an account comes by its name.** If it was changed, the answer says which one it has; if
not, it has the one that it had, unless it is new. -/
theorem nameOf_serve (hr : s.registry.isResponsive = true) (hs : s.store.Sound) (uid : String) :
    (∃ user ∈ (exchange s v).changed, user.uid = uid ∧
      user.username = (serve v.moment v.request s).2.store.nameOf uid) ∨
    (uid ∉ (exchange s v).changed.map User.uid ∧ (s.store.hasAccount uid = true →
      (serve v.moment v.request s).2.store.nameOf uid = s.store.nameOf uid)) := by
  have hstore := store_serve v.moment v.request s
  rw [← outcome_exchange] at hstore
  by_cases hupdate : ∃ c request o, (exchange s v).outcome = .call c (.updateAccounts request) o
  · obtain ⟨c, request, o, ho⟩ := hupdate
    obtain ⟨s', ha, -, hst, -, hp⟩ := of_exchange_call ho
    have hauth := Service.asks_authenticate v.moment v.request.credentials s
    rw [ha] at hauth
    rcases perform_updateAccounts_cases (hauth.isResponsive hr) hp with
      ⟨⟨e, rfl⟩, hsame⟩ | ⟨updates, users, rfl, hu⟩
    · refine .inr ⟨?_, fun _ => by rw [hsame, hst]⟩
      rw [Exchange.changed_eq_nil fun c' request' users h => by rw [ho] at h; cases h]
      exact List.not_mem_nil
    · rw [Exchange.changed_of_outcome ho, List.map_map]
      rw [hst] at hu
      rcases nameOf_updateAccounts hu uid with ⟨hno, hsame⟩ | ⟨user, huser, huid, hname⟩
      · exact .inr ⟨hno, fun _ => hsame⟩
      · exact .inl ⟨user.stamp c.key, List.mem_map_of_mem huser, huid, hname⟩
  · refine .inr ⟨?_, fun ha => ?_⟩
    · rw [Exchange.changed_eq_nil fun c request users h => hupdate ⟨c, request, _, h⟩]
      exact List.not_mem_nil
    · rw [hstore]
      split
      · rename_i c call o ho
        exact Call.nameOf_effect hs _ _ ha fun request e => hupdate ⟨c, request, o, e ▸ ho⟩
      · rfl

end Step

/-! ### Runs -/

/-- **The index of names stays exact** during any requests. -/
theorem wellNamed_run {s : Server} (h : s.store.WellNamed) (visits : List Visit) :
    (run s visits).store.WellNamed := by
  induction visits using List.reverseRecOn with
  | nil => exact h
  | append_singleton vs v ih =>
    rw [run_concat, store_serve]
    split
    · exact ih.step (Call.step_effect ih.sound _ _ _)
    · exact ih

end Http

end SealedGraph
