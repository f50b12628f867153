import SealedGraph.Proofs.Server.Effect

/-!
# Tokens that the server hands out

Every token in an answer seals a node just as it is in the store, or a user who has an account. This
stays true of it whatever is done to the store later, and so the descriptor in such a token never
drifts away from the node that it names.

* `Minted`: what a token of an answer seals.
* `Minted.unpack`: a minted token that names a node has the owner and the permissions of this node.
* `faithful_perform`: the nodes of an answer are those of the store, each with the caller's token.
* `minted_perform`: the tokens of an answer are minted.
-/

namespace SealedGraph

open Attempt

/-! ### The tokens of answers -/

/-- The tokens of a node and of its children. -/
def Node.tokens (n : Node) : List String :=
  n.token.toList ++ n.children.flatMap fun k => k.token.toList

/-- The tokens of an answer. -/
def Answer.tokens : Answer → List String
  | .graph a => a.nodes.flatMap Node.tokens ++ a.created.flatMap fun x => x.2.tokens
  | .user u => u.token.toList
  | .users us => us.flatMap fun u => u.token.toList
  | _ => []

/-! ### Minted tokens -/

/-- The tokens of the nodes of a store and of the users with accounts, under any key; the role of a
user may be an old one. -/
inductive Minted (s : Store) : String → Prop
  | node {uid : String} {r : Record} (key : List UInt8) (h : s.nodes.find? uid = some r) :
    Minted s (NodeDescriptor.pack key ⟨uid, r.owner, r.permissions⟩)
  | user {uid : String} (key : List UInt8) (role : String) (h : s.hasAccount uid = true) :
    Minted s (UserDescriptor.pack key ⟨uid, role⟩)

section Minted

variable {s t : Store} {token : String}

theorem Minted.extends (h : Minted s token) (he : s.Extends t) : Minted t token := by
  cases h with
  | node key h =>
    obtain ⟨r', hr', ho, hp, -, -⟩ := he.node h
    rw [← ho, ← hp]
    exact .node key hr'
  | user key role h => exact .user key role (he.account h)

/-- **A minted token never lies about a node.** Whoever reads it as the token of a node that is in
the store, under whatever key, learns the owner and the permissions of that node. -/
theorem Minted.unpack (h : Minted s token) (hs : s.Sound) {key : List UInt8} {d : NodeDescriptor}
    {r : Record} (hd : NodeDescriptor.unpack key token = .ok d)
    (hr : s.nodes.find? d.uid = some r) : d.owner = r.owner ∧ d.permissions = r.permissions := by
  obtain ⟨p, -, ht, hp⟩ := NodeDescriptor.unpack_eq_ok_iff.1 hd
  cases h with
  | @node uid r' key' hr' =>
    obtain ⟨n, -, hn⟩ := hs.nodeUid hr'
    have hpay := NodeDescriptor.parse?_payload (d := ⟨uid, r'.owner, r'.permissions⟩)
      (by rw [hn]; exact Store.uidOf_ne_empty n) (by rw [hn]; exact Store.isField_uidOf n)
      (hs.isField_of_account (hs.owner hr'))
    rw [Envelope.payload_eq_of_sign_eq ht, hp] at hpay
    cases hpay
    rw [hr'] at hr
    cases hr
    exact ⟨rfl, rfl⟩
  | @user uid key' role ha =>
    rw [← Envelope.payload_eq_of_sign_eq ht] at hp
    -- The fields of a user's payload make a node's descriptor too, with the uid of the account.
    have hu := NodeDescriptor.uid_of_parse?_user (hs.isField_of_account ha) hp
    have hnone := hs.disjoint hr
    obtain ⟨a, ha⟩ := Index.contains_iff.1 ha
    rw [hu] at hnone
    rw [hnone] at ha
    cases ha

theorem minted_sealWith {n : Node} (h : s.Mirrors n) {key : IdentityKey}
    (ht : token ∈ (n.sealWith key).token) : Minted s token := by
  obtain ⟨r, hr, ho, hp⟩ := h
  have ht : some (n.descriptor.pack key.bytes) = some token := ht
  rw [← Option.some.inj ht]
  unfold Node.descriptor
  rw [ho, hp]
  exact .node key.bytes hr

/-- **The tokens of a node that is handed out** are minted. -/
theorem minted_stamp {n : Node} (h : s.MirrorsAll n) {key : IdentityKey}
    (ht : token ∈ (n.stamp key).tokens) : Minted s token := by
  unfold Node.tokens at ht
  rcases List.mem_append.1 ht with ht | ht
  · exact minted_sealWith h.1 (Option.mem_toList.1 ht)
  · obtain ⟨k, hk, ht⟩ := List.mem_flatMap.1 ht
    obtain ⟨k', hk', rfl⟩ := List.mem_map.1 hk
    exact minted_sealWith (h.2 k' hk') (Option.mem_toList.1 ht)

theorem minted_user {u : User} (h : s.hasAccount u.uid = true) {key : IdentityKey}
    (ht : token ∈ (u.stamp key).token) : Minted s token := by
  have ht : some (u.descriptor.pack key.bytes) = some token := ht
  rw [← Option.some.inj ht]
  exact .user key.bytes _ h

end Minted

/-! ### What is in an answer -/

theorem Service.of_pack_eq_ok {m : Moment} {c : Caller} {nodes shown : List Node} {s t : Server}
    (h : (pack m c nodes).run s = (.ok shown, t)) :
    ∀ n ∈ shown, ∃ k ∈ nodes, n = Node.stamp c.key (c.pruned s.registry.table k) := by
  obtain ⟨hok, hfail⟩ := run_inquire (Caller.settles_pack c m.instant s.registry nodes)
  obtain ⟨⟨shown', hidden⟩, u, hr, h⟩ := run_bind_eq_ok h
  obtain ⟨-, v, -, h⟩ := run_bind_eq_ok h
  obtain ⟨rfl, -⟩ := run_pure_eq_ok h
  cases hf : s.registry.failureWithin (c.allQuestions s.registry.table nodes).length with
  | some e =>
    obtain ⟨l', he, -⟩ := hfail e hf
    rw [he] at hr
    cases hr
  | none =>
    rw [hok hf] at hr
    cases hr
    intro n hn
    obtain ⟨k, hk, rfl⟩ := List.mem_map.1 hn
    obtain ⟨k', hk', rfl⟩ := List.mem_map.1 hk
    exact ⟨k', (List.mem_filter.1 hk').1, rfl⟩

/-- An answer to a caller holds nodes as the store has them, each with the tokens for this caller,
and users who have accounts. -/
inductive Answer.Faithful (c : Caller) (s : Store) : Answer → Prop
  | ok : Faithful c s .ok
  | ended (sessions : Nat) : Faithful c s (.ended sessions)
  | graph {a : GraphAnswer} (nodes : ∀ n ∈ a.nodes, ∃ k, s.MirrorsAll k ∧ n = k.stamp c.key)
    (created : ∀ x ∈ a.created, ∃ k, s.MirrorsAll k ∧ x.2 = k.stamp c.key) :
    Faithful c s (.graph a)
  | user {u : User} (h : s.hasAccount u.uid = true) : Faithful c s (.user (u.stamp c.key))
  | users {us : List User} (h : ∀ u ∈ us, s.hasAccount u.uid = true) :
    Faithful c s (.users (us.map (User.stamp c.key)))

theorem Answer.Faithful.minted {c : Caller} {s : Store} {answer : Answer} (h : answer.Faithful c s) :
    ∀ token ∈ answer.tokens, Minted s token := by
  intro token ht
  cases h with
  | ok => cases ht
  | ended sessions => cases ht
  | graph nodes created =>
    simp only [Answer.tokens, List.mem_append, List.mem_flatMap] at ht
    rcases ht with ⟨n, hn, ht⟩ | ⟨x, hx, ht⟩
    · obtain ⟨k, hk, rfl⟩ := nodes n hn
      exact minted_stamp hk ht
    · obtain ⟨k, hk, e⟩ := created x hx
      rw [e] at ht
      exact minted_stamp hk ht
  | user hu => exact minted_user hu (Option.mem_toList.1 ht)
  | users hus =>
    simp only [Answer.tokens, List.mem_flatMap, List.mem_map] at ht
    obtain ⟨_, ⟨u, hu, rfl⟩, ht⟩ := ht
    exact minted_user (hus u hu) (Option.mem_toList.1 ht)

namespace Call

variable {m : Moment} {c : Caller} {answer : Answer} {s t : Server}

theorem faithful_shown {nodes : List Node} (hn : ∀ n ∈ nodes, s.store.MirrorsAll n)
    (h : (shown m c nodes).run s = (.ok answer, t)) : answer.Faithful c t.store := by
  have hst : t.store = s.store := by
    have := keeps_shown apart_store.steady m c nodes s
    rwa [h] at this
  obtain ⟨packed, u, hp, h⟩ := run_bind_eq_ok h
  obtain ⟨rfl, -⟩ := run_pure_eq_ok h
  rw [hst]
  refine .graph (fun n hm => ?_) fun x hx => by cases hx
  obtain ⟨k, hk, rfl⟩ := Service.of_pack_eq_ok hp n hm
  exact ⟨c.pruned s.registry.table k,
    ⟨(hn k hk).1, fun j hj => (hn k hk).2 j (List.mem_filter.1 hj).1⟩, rfl⟩

theorem faithful_made {created : List (String × Node)}
    (hc : ∀ x ∈ created, t.store.MirrorsAll x.2) : (made m c created).Faithful c t.store := by
  refine .graph (fun n hn => by cases hn) fun y hy => ?_
  obtain ⟨x, hx, rfl⟩ := List.mem_map.1 hy
  exact ⟨x.2, hc x hx, rfl⟩

theorem faithful_visibleUser {user : Option User}
    (hu : ∀ u, user = some u → s.store.hasAccount u.uid = true)
    (h : (visibleUser c user).run s = (.ok answer, t)) : answer.Faithful c t.store := by
  unfold visibleUser at h
  cases user with
  | none => cases h
  | some u =>
    simp only at h
    split at h
    · obtain ⟨rfl, rfl⟩ := run_pure_eq_ok h
      exact .user (hu u rfl)
    · cases h

theorem faithful_doneAt (m : Moment) (c : Caller) (s : Store) : (doneAt m).Faithful c s :=
  .graph (fun n hn => by cases hn) fun x hx => by cases hx

theorem of_changeShare_eq_ok {change : ShareChange} {request : ShareRequest}
    (h : (changeShare m c change request).run s = (.ok answer, t)) : answer = doneAt m := by
  obtain ⟨r, -, h⟩ := Service.of_bound_bind_eq_ok h
  obtain ⟨members, u, -, h⟩ := Service.of_onStore_bind_eq_ok h
  obtain ⟨_, v, -, h⟩ := run_bind_eq_ok h
  exact (run_pure_eq_ok h).1

/-- **An answer shows the store as it is after the call.** -/
theorem faithful_perform {call : Call} (h : (call.perform m c).run s = (.ok answer, t)) :
    answer.Faithful c t.store := by
  have hdone : answer = doneAt m → answer.Faithful c t.store := by
    rintro rfl
    exact faithful_doneAt m c t.store
  cases call with
  | check =>
    rw [(run_pure_eq_ok h).1]
    exact .ok
  | logout =>
    obtain ⟨_, _, -, h⟩ := run_bind_eq_ok h
    rw [(run_pure_eq_ok h).1]
    exact .ok
  | logoutEverywhere =>
    obtain ⟨_, _, -, h⟩ := run_bind_eq_ok h
    rw [(run_pure_eq_ok h).1]
    exact .ended _
  | query request =>
    obtain ⟨q, -, h⟩ := Service.of_bound_bind_eq_ok h
    split at h
    · cases h
    · obtain ⟨v, w, hv, h⟩ := run_bind_eq_ok h
      cases hv
      refine faithful_shown (fun n hn => ?_) h
      split at hn
      · cases hn
      · exact Store.mirrors_query hn
  | update request =>
    obtain ⟨nodes, -, h⟩ := Service.of_bound_bind_eq_ok h
    obtain ⟨updated, u, hu, h⟩ := Service.of_onStore_bind_eq_ok h
    exact faithful_shown (fun n hn => Store.mirrors_update hu hn) h
  | create request =>
    obtain ⟨r, -, h⟩ := Service.of_bound_bind_eq_ok h
    obtain ⟨created, u, hc, h⟩ := Service.of_onStore_bind_eq_ok h
    obtain ⟨rfl, rfl⟩ := run_pure_eq_ok h
    exact faithful_made fun x hx => Store.mirrors_create hc hx
  | createRoot request =>
    obtain ⟨n, -, h⟩ := Service.of_bound_bind_eq_ok h
    obtain ⟨created, u, hc, h⟩ := Service.of_onStore_bind_eq_ok h
    obtain ⟨rfl, rfl⟩ := run_pure_eq_ok h
    exact faithful_made fun x hx => Store.mirrors_create hc hx
  | addEdges request =>
    obtain ⟨r, -, h⟩ := Service.of_bound_bind_eq_ok h
    obtain ⟨_, u, -, h⟩ := Service.of_onStore_bind_eq_ok h
    exact hdone (run_pure_eq_ok h).1
  | removeEdges request =>
    obtain ⟨r, -, h⟩ := Service.of_bound_bind_eq_ok h
    obtain ⟨_, u, -, h⟩ := Service.of_onStore_bind_eq_ok h
    exact hdone (run_pure_eq_ok h).1
  | list name =>
    obtain ⟨relation, v, -, h⟩ := Service.of_onStore_bind_eq_ok h
    obtain ⟨nodes, u, hn, h⟩ := Service.of_onStore_bind_eq_ok h
    obtain ⟨hn, hst⟩ := Prod.mk.inj hn
    refine faithful_shown (fun n hm => ?_) h
    rw [← hst]
    exact Store.mirrors_nodesOf hn hm
  | share request => exact hdone (of_changeShare_eq_ok h)
  | unshare request => exact hdone (of_changeShare_eq_ok h)
  | userByName username =>
    obtain ⟨v, w, hv, h⟩ := run_bind_eq_ok h
    cases hv
    exact faithful_visibleUser (fun u hu => Store.hasAccount_of_findUsername hu) h
  | userByUid uid =>
    obtain ⟨v, w, hv, h⟩ := run_bind_eq_ok h
    cases hv
    exact faithful_visibleUser (fun u hu => Store.hasAccount_of_findUser hu) h
  | createAccount request =>
    obtain ⟨account, -, h⟩ := Service.of_bound_bind_eq_ok h
    obtain ⟨user, u, hc, h⟩ := run_bind_eq_ok h
    obtain ⟨rfl, rfl⟩ := run_pure_eq_ok h
    exact .user (Store.hasAccount_createAccount (of_createAccount_eq_ok hc))
  | updateAccounts request =>
    obtain ⟨updates, -, h⟩ := Service.of_bound_bind_eq_ok h
    obtain ⟨users, v, hc, h⟩ := run_bind_eq_ok h
    obtain ⟨rfl, rfl⟩ := run_pure_eq_ok h
    have hc := of_updateAccounts_eq_ok hc
    exact .users fun u hu => Store.hasAccount_updateAccounts hc hu

/-- **Every token of an answer is minted** in the store after the call. -/
theorem minted_perform {call : Call} (h : (call.perform m c).run s = (.ok answer, t)) :
    ∀ token ∈ answer.tokens, Minted t.store token :=
  (faithful_perform h).minted

end Call

end SealedGraph
