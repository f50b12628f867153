import SealedGraph.Proofs.Http.Run
import SealedGraph.Proofs.Server.Sessions

/-!
# What one request does to the sessions

* `Exchange.Issues`, `Exchange.Ends`: a login that gave out a token, and what ends a session.
* `turns_exchange`: which sessions are active after a request.
* `of_issues`: what the token of a login says, and that its session is active then.
* `role_exchange`: the role of an account stays as it is unless its sessions end.
-/

namespace SealedGraph.Http

open Attempt

namespace Exchange

/-- The token in the header of the request. -/
def bearer? (x : Exchange) : Option String := bearerToken? x.visit.request.credentials

/-- The uid of the account of a successful login, and the token that was the answer. -/
def issued? (x : Exchange) : Option (String × String) :=
  match x.outcome with
  | .login request (.ok issued) =>
    (x.before.store.usernames.find? request.username).map fun uid => (uid, issued.token)
  | _ => none

/-- A successful login with the account `uid`, which was answered with `token`. -/
def Issues (x : Exchange) (uid token : String) : Prop := x.issued? = some (uid, token)

instance (x : Exchange) (uid token : String) : Decidable (x.Issues uid token) :=
  inferInstanceAs (Decidable (x.issued? = some (uid, token)))

theorem of_issues_outcome {x : Exchange} {uid token : String} (h : x.Issues uid token) :
    ∃ request issued, x.outcome = .login request (.ok issued) ∧ issued.token = token ∧
      x.before.store.usernames.find? request.username = some uid := by
  unfold Issues issued? at h
  split at h
  · rename_i request issued ho
    obtain ⟨uid', hn, e⟩ := Option.map_eq_some_iff.1 h
    cases e
    exact ⟨request, issued, ho, rfl, hn⟩
  · cases h

/-- A successful request that ends the session of a user with a token: a logout with this token, a
logout of all sessions of the user, or a change of accounts with an entry that gives the user a role
or a password. -/
def Ends (x : Exchange) (uid token : String) : Prop :=
  match x.outcome with
  | .call _ .logout (.ok _) => x.bearer? = some token
  | .call c .logoutEverywhere (.ok _) => uid = c.uid
  | .call _ (.updateAccounts request) (.ok _) => ∃ u ∈ request.users, u.Revokes uid
  | _ => False

/-- A session whose token came with the request and was too old. -/
def Stale (x : Exchange) (uid session : String) : Prop :=
  ∃ token d, x.bearer? = some token ∧
    SessionDescriptor.unpack x.before.gate.master.bytes token = .ok d ∧ d.uid = uid ∧
    d.session = session ∧ x.before.gate.maxAge ≤ d.age x.visit.moment.second

/-- Which sessions are active on the server after an exchange. -/
structure Turns (x : Exchange) (t : Server) : Prop where
  responsive : t.registry.isResponsive = true
  /-- a session that is active was so before, or is the one of this moment -/
  opened : ∀ {uid session}, t.Active uid session →
    x.before.Active uid session ∨ session = x.visit.moment.session
  /-- a session that was ended is not active -/
  ended : ∀ {uid session c call a}, x.outcome = .call c call (.ok a) → call.Ends c uid session →
    ¬ t.Active uid session
  /-- a session that was active is so still, or was ended, or was too old -/
  kept : ∀ {uid session}, x.before.Active uid session →
    t.Active uid session ∨
      (∃ c call a, x.outcome = .call c call (.ok a) ∧ call.Ends c uid session) ∨
      x.Stale uid session

theorem turns_of_calm {x : Exchange} {t : Server} (hr : x.before.registry.isResponsive = true)
    (hc : x.before.registry.Calm t.registry)
    (hcall : ∀ c call outcome, x.outcome ≠ .call c call outcome) : x.Turns t where
  responsive := hc.responsive hr
  opened h := .inl ((active_iff_of_calm hc _ _).1 h)
  ended h := absurd h (hcall _ _ _)
  kept h := .inl ((active_iff_of_calm hc _ _).2 h)

end Exchange

section Step

variable {s : Server} (hr : s.registry.isResponsive = true) (v : Visit)

include hr

theorem turns_login (request : LoginRequest)
    (hx : ∀ c call outcome, (exchange s v).outcome ≠ .call c call outcome) :
    (exchange s v).Turns ((login v.moment request).run s).2 := by
  rcases login_cases hr v.moment request with ⟨_, -, hc⟩ | ⟨user, -, -, hrt, hst⟩
  · exact Exchange.turns_of_calm hr hc hx
  · have hactive : ∀ uid session,
        ((login v.moment request).run s).2.Active uid session ↔ s.Active uid session ∨
          (user.uid ≠ "" ∧ v.moment.session ≠ "" ∧ uid = user.uid ∧
            session = v.moment.session) := by
      intro uid session
      rw [active_iff_of_sessions hst]
      exact Registry.Table.hasSession_addSession _ _ _ _ _
    refine ⟨hrt, fun {uid session} h => ?_, fun h => absurd h (hx _ _ _),
      fun {uid session} h => ?_⟩
    · exact ((hactive uid session).1 h).imp_right fun h => h.2.2.2
    · exact .inl ((hactive uid session).2 (.inl h))

/-- Whoever is looked at may be turned away for a token that is too old, and then the session of
this token is deleted. -/
theorem turns_authenticate
    (hx : ∀ c call outcome, (exchange s v).outcome ≠ .call c call outcome) :
    (exchange s v).Turns ((Service.authenticate v.moment v.request.credentials).run s).2 := by
  rcases authenticate_cases hr v.moment v.request.credentials with
    ⟨_, _, t, hat, -, -, hc⟩ | ⟨_, token, d, t, hat, hb, hu, hage, hrt, htt⟩ | ⟨_, t, hat, hc⟩
  · rw [hat]
    exact Exchange.turns_of_calm hr hc hx
  · rw [hat]
    have hactive : ∀ uid session, t.Active uid session ↔
        s.Active uid session ∧ ¬ (uid = d.uid ∧ session = d.session) := by
      intro uid session
      unfold Server.Active
      rw [htt]
      exact Registry.Table.hasSession_deleteSession _ _ _ _ _
    refine ⟨hrt, fun {uid session} h => ?_, fun h => absurd h (hx _ _ _),
      fun {uid session} h => ?_⟩
    · exact .inl ((hactive uid session).1 h).1
    · by_cases hd : uid = d.uid ∧ session = d.session
      · exact .inr (.inr ⟨token, d, hb, hu, hd.1.symm, hd.2.symm, hage⟩)
      · exact .inl ((hactive uid session).2 ⟨h, hd⟩)
  · rw [hat]
    exact Exchange.turns_of_calm hr hc hx

theorem turns_call {c : Caller} {call : Call} {s' : Server}
    (ha : (Service.authenticate v.moment v.request.credentials).run s = (.ok c, s'))
    (hx : (exchange s v).outcome = .call c call ((call.perform v.moment c).run s').1) :
    (exchange s v).Turns ((call.perform v.moment c).run s').2 := by
  have hcalm := (of_authenticate_eq_ok hr ha).1
  obtain ⟨hrt, hactive⟩ := call.closes_perform (hcalm.responsive hr) v.moment c
  refine ⟨hrt, fun {uid session} h => ?_, fun {uid session c' call' a} ho he h => ?_,
    fun {uid session} h => ?_⟩
  · exact .inl ((active_iff_of_calm hcalm _ _).1 ((hactive uid session).1 h).1)
  · rw [hx] at ho
    obtain ⟨rfl, rfl, hok⟩ := Outcome.call.inj ho
    exact ((hactive uid session).1 h).2 ⟨⟨a, hok⟩, he⟩
  · by_cases hd : (∃ a, ((call.perform v.moment c).run s').1 = .ok a) ∧ call.Ends c uid session
    · obtain ⟨⟨a, hok⟩, he⟩ := hd
      exact .inr (.inl ⟨c, call, a, by rw [hx, hok], he⟩)
    · exact .inl ((hactive uid session).2 ⟨(active_iff_of_calm hcalm _ _).2 h, hd⟩)

/-- **Which sessions are active after a request**, as long as the registry answers. -/
theorem turns_exchange : (exchange s v).Turns (serve v.moment v.request s).2 := by
  rcases serve_cases v.moment v.request s with
    ⟨_, h⟩ | ⟨request, h⟩ | ⟨_, h⟩ | ⟨c, call, s', ha, -, h⟩
  · rw [h]
    exact Exchange.turns_of_calm hr (.refl _) (by simp [exchange, h])
  · rw [h]
    exact turns_login hr v request (by simp [exchange, h])
  · rw [h]
    exact turns_authenticate hr v (by simp [exchange, h])
  · rw [h]
    exact turns_call hr v ha (by simp [exchange, h])

/-- **Who makes a call** is said by the token in the header. -/
theorem caller_of_exchange {c : Caller} {call : Call} {outcome : Except ServiceError Answer}
    (h : (exchange s v).outcome = .call c call outcome) :
    ∃ token d, (exchange s v).bearer? = some token ∧
      SessionDescriptor.unpack s.gate.master.bytes token = .ok d ∧ c.uid = d.uid ∧
      c.session = d.session := by
  unfold exchange at h
  rcases serve_cases v.moment v.request s with
    ⟨_, he⟩ | ⟨_, he⟩ | ⟨_, he⟩ | ⟨c', call', s', ha, -, he⟩
  · rw [he] at h
    cases h
  · rw [he] at h
    cases h
  · rw [he] at h
    cases h
  · rw [he] at h
    obtain ⟨rfl, -, -⟩ := Outcome.call.inj h
    obtain ⟨-, token, d, hb, hu, rfl⟩ := of_authenticate_eq_ok hr ha
    exact ⟨token, d, hb, hu, rfl, rfl⟩

/-- **The token of a login** has the uid and the role of the account in it, and the session that it
is for is active after the login. -/
theorem of_issues (hs : s.store.Sound) {uid token : String}
    (h : (exchange s v).Issues uid token) (hne : v.moment.session ≠ "") :
    ∃ a, s.store.accounts.find? uid = some a ∧
      token = SessionDescriptor.pack s.gate.master.bytes
        ⟨uid, a.role, v.moment.session, v.moment.second⟩ ∧
      (serve v.moment v.request s).2.store = s.store ∧
      (serve v.moment v.request s).2.Active uid v.moment.session := by
  obtain ⟨request, issued, ho, rfl, hname⟩ := Exchange.of_issues_outcome h
  simp only [exchange] at ho hname
  have hst : (serve v.moment v.request s).2.store = s.store := by
    have h := store_serve v.moment v.request s
    rw [ho] at h
    exact h
  rcases serve_cases v.moment v.request s with
    ⟨_, he⟩ | ⟨request', he⟩ | ⟨_, he⟩ | ⟨_, _, _, -, -, he⟩
  · rw [he] at ho
    cases ho
  · rw [he] at ho
    obtain ⟨rfl, hok⟩ := Outcome.login.inj ho
    rcases login_cases hr v.moment request' with ⟨_, herr, -⟩ | ⟨user, hauth, hissued, -, hsess⟩
    · rw [hok] at herr
      cases herr
    · rw [hok] at hissued
      obtain ⟨uid', a, hn, ha, rfl⟩ := Store.of_authenticate_eq_some hauth
      rw [hn] at hname
      cases hname
      refine ⟨a, ha, ?_, hst, ?_⟩
      · rw [Except.ok.inj hissued]
        rfl
      · -- A session is kept only if neither the uid nor the id of the session is empty.
        obtain ⟨n, -, huid⟩ := hs.accountUid ha
        have hnil : uid ≠ "" := by
          rw [huid]
          exact Store.uidOf_ne_empty n
        rw [he, active_iff_of_sessions hsess]
        exact (Registry.Table.hasSession_addSession _ _ _ _ _).2 (.inr ⟨hnil, hne, rfl, rfl⟩)
  · rw [he] at ho
    cases ho
  · rw [he] at ho
    cases ho

/-- **The role of an account** stays as it is unless the sessions of its user end. -/
theorem role_exchange (hs : s.store.Sound) {uid token : String} {a : Account}
    (ha : s.store.accounts.find? uid = some a) (h : ¬ (exchange s v).Ends uid token) :
    ∃ a', (serve v.moment v.request s).2.store.accounts.find? uid = some a' ∧ a'.role = a.role := by
  have hst := store_serve v.moment v.request s
  have hrefl : ∃ a', s.store.accounts.find? uid = some a' ∧ a'.role = a.role := ⟨a, ha, rfl⟩
  unfold Exchange.Ends exchange at h
  rcases serve_cases v.moment v.request s with
    ⟨_, he⟩ | ⟨_, he⟩ | ⟨_, he⟩ | ⟨c, call, s', hauth, -, he⟩
  · rw [hst, he]
    exact hrefl
  · rw [hst, he]
    exact hrefl
  · rw [hst, he]
    exact hrefl
  · rw [he] at h hst
    by_cases hcall : ∃ request, call = .updateAccounts request
    · obtain ⟨request, rfl⟩ := hcall
      rcases hp : ((Call.updateAccounts request).perform v.moment c).run s' with ⟨e | answer, t⟩
      · have hr' := (of_authenticate_eq_ok hr hauth).1.responsive hr
        have hs' := Service.keeps_authenticate apart_store v.moment v.request.credentials s
        rw [hauth] at hs'
        have hs' : s'.store = s.store := hs'
        rw [he, hp]
        show ∃ a', t.store.accounts.find? uid = some a' ∧ _
        rw [store_updateAccounts_of_error hr' hp, hs']
        exact hrefl
      · rw [hp] at h
        have h : ¬ ∃ u ∈ request.users, u.Revokes uid := h
        rw [he, hst]
        simp only [Call.effect]
        cases hb : request.bind c with
        | error e => exact hrefl
        | ok updates =>
          rw [AccountsRequest.eq_map_of_bind_eq_ok hb]
          exact role_updateAccounts ha fun u hu hrev => h ⟨u, hu, hrev⟩
    · rw [he, hst]
      exact call.role_effect hs ha v.moment c fun request hreq => hcall ⟨request, hreq⟩

end Step

end SealedGraph.Http
