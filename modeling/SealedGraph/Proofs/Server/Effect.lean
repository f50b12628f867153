import SealedGraph.Proofs.Server.Service
import SealedGraph.Proofs.Store.Accounts
import SealedGraph.Proofs.Store.Create
import SealedGraph.Proofs.Store.Query
import SealedGraph.Proofs.Store.Share

/-!
# What calls do to the store

* `Store.Change`: the ways in which calls change a store, but for changes of accounts and shares.
* `evolves_effect`: whatever a call does, nothing is taken back, and the store still hangs together.
* `role_effect`: an account keeps its role, unless accounts are changed.
* `group_effect`: the group of a node is one that a node had before, or the one of the moment.
* `sharedWith_effect`: the lists of shared nodes stay as they are, unless nodes are shared.
-/

namespace SealedGraph

namespace Store

/-- What calls of a user do to a store, unless they change accounts or what is shared. -/
inductive Change (owner group : String) (s : Store) : Store → Prop
  | nothing : Change owner group s s
  | alters {W : String → Prop} {E : String → String → Prop} {t : Store} (h : Alters W E s t) :
    Change owner group s t
  | grows {E : String → String → Prop} {t : Store} (h : Grows owner group E s t) (ht : Sound t) :
    Change owner group s t
  | account (new : NewAccount) : Change owner group s (s.createAccount new).2

/-- A change that takes nothing back and leaves a sound store. -/
structure Evolves (s t : Store) : Prop where
  ext : Extends s t
  sound : Sound t

section Change

variable {owner group : String} {s t : Store}

theorem Change.evolves (h : Change owner group s t) (hs : Sound s) : Evolves s t := by
  cases h with
  | nothing => exact ⟨.refl s, hs⟩
  | alters h => exact ⟨h.extends, h.sound hs⟩
  | grows h ht => exact ⟨h.extends, ht⟩
  | account new => exact ⟨extends_createAccount, sound_createAccount hs⟩

/-- **An account stays** with its role and its list of shared nodes. -/
theorem Change.account_kept (h : Change owner group s t) (hs : Sound s) {uid : String} {a : Account}
    (ha : s.accounts.find? uid = some a) :
    ∃ a', t.accounts.find? uid = some a' ∧ a'.role = a.role ∧ a'.shared = a.shared := by
  cases h with
  | nothing => exact ⟨a, ha, rfl, rfl⟩
  | alters h => exact ⟨a, by rw [h.accounts]; exact ha, rfl, rfl⟩
  | grows h ht =>
    obtain ⟨owned, ho⟩ := h.account ha
    exact ⟨_, ho, rfl, rfl⟩
  | account new =>
    rcases createAccount_cases s new with ⟨e, h⟩ | ⟨-, h⟩
    · rw [h]
      exact ⟨a, ha, rfl, rfl⟩
    · rw [h]
      refine ⟨a, ?_, rfl, rfl⟩
      rw [Index.find?_insert, if_neg]
      · exact ha
      · rintro rfl
        obtain ⟨n, hn, e⟩ := hs.accountUid ha
        have := uidOf_injective e
        omega

/-- **Nothing is shared with a new account.** -/
theorem Change.account_new (h : Change owner group s t) {uid : String} {a' : Account}
    (ha' : t.accounts.find? uid = some a') (ha : s.accounts.find? uid = none) : a'.shared = [] := by
  cases h with
  | nothing => rw [ha] at ha'; cases ha'
  | alters h => rw [h.accounts, ha] at ha'; cases ha'
  | grows h ht => rw [h.noAccount ha] at ha'; cases ha'
  | account new =>
    rcases createAccount_cases s new with ⟨e, h⟩ | ⟨-, h⟩
    · rw [h, ha] at ha'
      cases ha'
    · rw [h, Index.find?_insert] at ha'
      split at ha'
      · cases ha'
        rfl
      · rw [ha] at ha'
        cases ha'

theorem Change.sharedWith (h : Change owner group s t) (hs : Sound s) (uid : String) :
    t.sharedWith uid = s.sharedWith uid := by
  unfold Store.sharedWith
  cases ha : s.accounts.find? uid with
  | some a =>
    obtain ⟨a', ha', -, e⟩ := h.account_kept hs ha
    rw [ha', Option.map_some, e]
    rfl
  | none =>
    cases ha' : t.accounts.find? uid with
    | none => rfl
    | some a' =>
      rw [Option.map_some, h.account_new ha' ha]
      rfl

/-- **The group of a node** is one that the node had before, or that of the change. -/
theorem Change.group_cases (h : Change owner group s t) {uid : String} {r' : Record}
    (hr' : t.nodes.find? uid = some r') :
    (∃ r, s.nodes.find? uid = some r ∧ r'.group = r.group) ∨ r'.group = group := by
  cases h with
  | nothing => exact .inl ⟨r', hr', rfl⟩
  | alters h =>
    obtain ⟨r, hr, ha⟩ := h.of_find? hr'
    exact .inl ⟨r, hr, ha.group⟩
  | grows h ht =>
    cases hr : s.nodes.find? uid with
    | none => exact .inr (h.new hr' hr).2.2
    | some r => exact .inl ⟨r, rfl, (Altered.of_find? h.node hr hr').group⟩
  | account new =>
    rcases createAccount_cases s new with ⟨e, h⟩ | ⟨-, h⟩
    · rw [h] at hr'
      exact .inl ⟨r', hr', rfl⟩
    · rw [h] at hr'
      exact .inl ⟨r', hr', rfl⟩

end Change

/-- **Nothing is shared in a store that was given nothing but accounts.** -/
theorem sharedWith_withAccounts (accounts : List NewAccount) (uid : String) :
    (withAccounts accounts).sharedWith uid = [] := by
  induction accounts using List.reverseRecOn with
  | nil => rfl
  | append_singleton news new ih =>
    rw [withAccounts_concat, ← ih]
    have h : Change "" "" (withAccounts news) ((withAccounts news).createAccount new).2 := .account new
    exact h.sharedWith (sound_withAccounts news) uid

end Store

open Store

namespace Call

variable {s : Store}

/-- **The ways of a call** on a store, if it is no change of accounts and no share. -/
theorem change_effect (hs : Sound s) (m : Moment) (c : Caller) {call : Call}
    (hshare : call.sharing? = none) (hcall : ∀ request, call ≠ .updateAccounts request) :
    Change c.uid m.group s (call.effect m c s) := by
  cases call with
  | update request =>
    simp only [effect]
    split
    · exact .alters (E := fun _ _ => False) (alters_update m.clock _ s)
    · exact .nothing
  | create request =>
    simp only [effect]
    split
    · exact .grows (grows_create hs) (sound_create hs)
    · exact .nothing
  | createRoot request =>
    simp only [effect]
    split
    · exact .grows (grows_create hs) (sound_create hs)
    · exact .nothing
  | addEdges request =>
    simp only [effect]
    split
    · exact .alters (W := fun _ => False) (alters_addEdges m.clock _ _ _ s)
    · exact .nothing
  | removeEdges request =>
    simp only [effect]
    split
    · exact .alters (W := fun _ => False) (alters_removeEdges m.clock _ _ _ s)
    · exact .nothing
  | createAccount request =>
    simp only [effect]
    split
    · exact .account _
    · exact .nothing
  | updateAccounts request => exact absurd rfl (hcall request)
  | share request => cases hshare
  | unshare request => cases hshare
  | _ => exact .nothing

theorem shares_effect {call : Call} {change : ShareChange} {request : ShareRequest}
    (h : call.sharing? = some (change, request)) (m : Moment) (c : Caller) (s : Store) :
    ∃ uids, Shares uids s (call.effect m c s) := by
  rw [effect_of_sharing h]
  split
  · exact ⟨_, shares_share change _ _ s⟩
  · exact ⟨[], .refl s⟩

theorem revises_effect (m : Moment) (c : Caller) (request : AccountsRequest) (s : Store) :
    ∃ updates, Revises updates s ((updateAccounts request).effect m c s) := by
  simp only [effect]
  split
  · exact ⟨_, revises_updateAccounts s _⟩
  · exact ⟨[], .refl s⟩

/-- **A call is a share, or a change of accounts, or neither.** -/
theorem sharing_cases (call : Call) :
    (∃ change request, call.sharing? = some (change, request)) ∨
    (∃ request, call = .updateAccounts request) ∨
    (call.sharing? = none ∧ ∀ request, call ≠ .updateAccounts request) := by
  cases call with
  | share request => exact .inl ⟨.add, request, rfl⟩
  | unshare request => exact .inl ⟨.remove, request, rfl⟩
  | updateAccounts request => exact .inr (.inl ⟨request, rfl⟩)
  | _ => exact .inr (.inr ⟨rfl, by simp⟩)

/-- **Whatever a call does to a sound store**, nodes and accounts stay, what access to a node is
judged by stays, and the store is sound. -/
theorem evolves_effect (hs : Sound s) (m : Moment) (c : Caller) (call : Call) :
    Evolves s (call.effect m c s) := by
  rcases call.sharing_cases with ⟨change, request, h⟩ | ⟨request, rfl⟩ | ⟨hshare, hcall⟩
  · obtain ⟨uids, h⟩ := shares_effect h m c s
    exact ⟨h.extends, h.sound hs⟩
  · simp only [effect]
    split
    · exact ⟨(revises_updateAccounts s _).extends, sound_updateAccounts hs⟩
    · exact ⟨.refl s, hs⟩
  · exact (change_effect hs m c hshare hcall).evolves hs

/-- **A call that is no change of accounts** leaves all roles alone. -/
theorem role_effect (hs : Sound s) {uid : String} {a : Account}
    (ha : s.accounts.find? uid = some a) (m : Moment) (c : Caller) {call : Call}
    (hcall : ∀ request, call ≠ .updateAccounts request) :
    ∃ a', (call.effect m c s).accounts.find? uid = some a' ∧ a'.role = a.role := by
  rcases call.sharing_cases with ⟨change, request, h⟩ | ⟨request, rfl⟩ | ⟨hshare, hcall⟩
  · obtain ⟨uids, h⟩ := shares_effect h m c s
    obtain ⟨shared, ha', -⟩ := h.account ha
    exact ⟨_, ha', rfl⟩
  · exact absurd rfl (hcall request)
  · obtain ⟨a', ha', e, -⟩ := (change_effect hs m c hshare hcall).account_kept hs ha
    exact ⟨a', ha', e⟩

/-- **The group of a node** after a call is one that the node had before, or that of the moment. -/
theorem group_effect (hs : Sound s) (m : Moment) (c : Caller) (call : Call) {uid : String}
    {r' : Record} (hr' : (call.effect m c s).nodes.find? uid = some r') :
    (∃ r, s.nodes.find? uid = some r ∧ r'.group = r.group) ∨ r'.group = m.group := by
  rcases call.sharing_cases with ⟨change, request, h⟩ | ⟨request, rfl⟩ | ⟨hshare, hcall⟩
  · obtain ⟨uids, h⟩ := shares_effect h m c s
    rw [h.nodes] at hr'
    exact .inl ⟨r', hr', rfl⟩
  · obtain ⟨updates, h⟩ := revises_effect m c request s
    rw [h.nodes] at hr'
    exact .inl ⟨r', hr', rfl⟩
  · exact (change_effect hs m c hshare hcall).group_cases hr'

/-- **A call that shares nothing** leaves all the lists of shared nodes alone. -/
theorem sharedWith_effect (hs : Sound s) (m : Moment) (c : Caller) {call : Call}
    (hshare : call.sharing? = none) (uid : String) :
    (call.effect m c s).sharedWith uid = s.sharedWith uid := by
  rcases call.sharing_cases with ⟨change, request, h⟩ | ⟨request, rfl⟩ | ⟨-, hcall⟩
  · rw [hshare] at h
    cases h
  · obtain ⟨updates, h⟩ := revises_effect m c request s
    unfold sharedWith
    cases ha : s.accounts.find? uid with
    | none => rw [h.noAccount ha]
    | some a =>
      obtain ⟨a', ha', hr⟩ := h.account ha
      rw [ha', Option.map_some, hr.shared]
      rfl
  · exact (change_effect hs m c hshare hcall).sharedWith hs uid

end Call

end SealedGraph
