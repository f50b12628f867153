import SealedGraph.Proofs.Server.Login
import SealedGraph.Proofs.Server.Effect

/-!
# Which work opens and ends sessions

As long as the registry answers, nothing fails half way, so that for each login, each call and each
look at a header it can be said exactly which sessions are active after it.

* `authenticate_cases`: a header lets a caller in, or takes an old session away, or neither.
* `login_cases`: a login opens one session or none.
* `Call.closes_perform`: a call ends the sessions that `Call.Ends` says, if it succeeds.
-/

namespace SealedGraph

open Attempt
open Registry (Link Operation)

/-! ### Who is let in -/

/-- **The ways of a token**, as long as the registry answers. -/
theorem Gate.validate_cases (g : Gate) {l : Link} (hr : l.isResponsive = true) (token : String)
    (now : Int64) (instant : Nat) :
    (∃ d l', SessionDescriptor.unpack g.master.bytes token = .ok d ∧ d.age now < g.maxAge ∧
      l.table.hasSession d.uid d.session = true ∧
      g.validate token now instant l = (.ok (g.caller d.uid d.role d.session), l') ∧ l.Calm l') ∨
    (∃ d l', SessionDescriptor.unpack g.master.bytes token = .ok d ∧ g.maxAge ≤ d.age now ∧
      g.validate token now instant l = (.error .expired, l') ∧ l'.isResponsive = true ∧
      l'.table = l.table.deleteSession d.uid d.session) ∨
    ∃ e l', g.validate token now instant l = (.error e, l') ∧ l.Calm l' ∧
      ∀ d, SessionDescriptor.unpack g.master.bytes token = .ok d →
        l.table.hasSession d.uid d.session = false := by
  unfold validate
  cases hu : SessionDescriptor.unpack g.master.bytes token with
  | error e => exact .inr (.inr ⟨_, l, rfl, .refl l, by simp⟩)
  | ok d =>
    simp only
    by_cases ha : g.maxAge ≤ d.age now
    · obtain ⟨l', hl, ht, hr'⟩ :=
        Link.call_of_isResponsive hr instant (.deleteSession d.uid d.session)
      rw [if_pos ha, hl]
      exact .inr (.inl ⟨d, l', rfl, ha, rfl, hr', ht⟩)
    · obtain ⟨l', hl, ht, hr'⟩ := Link.call_of_isResponsive hr instant (.hasSession d.uid d.session)
      have ht : l'.table = l.table := ht
      have hcalm : l.Calm l' := ⟨fun _ => hr', by rw [ht]⟩
      rw [if_neg ha, hl]
      show _ ∨ _ ∨ _
      simp only [Operation.apply]
      cases hs : l.table.hasSession d.uid d.session with
      | true => exact .inl ⟨d, l', rfl, Int.not_le.1 ha, hs, rfl, hcalm⟩
      | false =>
        refine .inr (.inr ⟨_, l', rfl, hcalm, fun d' hd' => ?_⟩)
        cases hd'
        exact hs

/-- **A token is accepted** if and only if it is a session's, young enough, and the session is
active. -/
theorem Gate.validate_eq_ok_iff (g : Gate) {l : Link} (hr : l.isResponsive = true) {token : String}
    {now : Int64} {instant : Nat} {c : Caller} :
    (g.validate token now instant l).1 = .ok c ↔
      ∃ d, SessionDescriptor.unpack g.master.bytes token = .ok d ∧ d.age now < g.maxAge ∧
        l.table.hasSession d.uid d.session = true ∧ c = g.caller d.uid d.role d.session := by
  rcases g.validate_cases hr token now instant with
    ⟨d, l', hu, ha, hs, h, -⟩ | ⟨d, l', hu, ha, h, -⟩ | ⟨e, l', h, -, hno⟩
  · rw [h]
    constructor
    · intro hc
      cases hc
      exact ⟨d, hu, ha, hs, rfl⟩
    · rintro ⟨d', hu', -, -, rfl⟩
      rw [hu] at hu'
      cases hu'
      rfl
  · rw [h]
    constructor
    · intro hc
      cases hc
    · rintro ⟨d', hu', ha', -, -⟩
      rw [hu] at hu'
      cases hu'
      omega
  · rw [h]
    constructor
    · intro hc
      cases hc
    · rintro ⟨d, hu, -, hs, -⟩
      rw [hno d hu] at hs
      cases hs

/-- A session of the server is active. -/
def Server.Active (s : Server) (uid session : String) : Prop :=
  s.registry.table.hasSession uid session = true

theorem active_iff_of_sessions {t : Server} {table : Registry.Table}
    (h : t.registry.table.sessions = table.sessions) (uid session : String) :
    t.Active uid session ↔ table.hasSession uid session = true := by
  unfold Server.Active Registry.Table.hasSession
  rw [h]

theorem active_iff_of_calm {s t : Server} (h : s.registry.Calm t.registry) (uid session : String) :
    t.Active uid session ↔ s.Active uid session := by
  unfold Server.Active
  rw [h.hasSession]

/-- **The ways of a header.** It lets a caller in and changes no session; or it has a token that is
too old, and takes the session of this token away; or it is of no consequence. -/
theorem authenticate_cases {s : Server} (hr : s.registry.isResponsive = true) (m : Moment)
    (header : Option String) :
    (∃ token d t, (Service.authenticate m header).run s =
        (.ok (s.gate.caller d.uid d.role d.session), t) ∧
      bearerToken? header = some token ∧
      SessionDescriptor.unpack s.gate.master.bytes token = .ok d ∧ s.registry.Calm t.registry) ∨
    (∃ e token d t, (Service.authenticate m header).run s = (.error e, t) ∧
      bearerToken? header = some token ∧
      SessionDescriptor.unpack s.gate.master.bytes token = .ok d ∧
      s.gate.maxAge ≤ d.age m.second ∧ t.registry.isResponsive = true ∧
      t.registry.table = s.registry.table.deleteSession d.uid d.session) ∨
    ∃ e t, (Service.authenticate m header).run s = (.error e, t) ∧ s.registry.Calm t.registry := by
  unfold Service.authenticate Gate.authenticate run
  cases hb : bearerToken? header with
  | none => exact .inr (.inr ⟨_, _, rfl, .refl _⟩)
  | some token =>
    simp only
    rcases s.gate.validate_cases hr token m.second m.instant with
      ⟨d, l', hu, -, -, h, hc⟩ | ⟨d, l', hu, ha, h, hr', ht⟩ | ⟨e, l', h, hc, -⟩
    · rw [h]
      exact .inl ⟨token, d, _, rfl, rfl, hu, hc⟩
    · rw [h]
      exact .inr (.inl ⟨_, token, d, _, rfl, rfl, hu, ha, hr', ht⟩)
    · rw [h]
      simp only
      split
      · exact .inr (.inr ⟨_, _, rfl, hc⟩)
      · exact .inr (.inr ⟨_, _, rfl, hc⟩)

/-- **Whoever is let in** has a token that says so; no session is touched by looking at it. -/
theorem of_authenticate_eq_ok {s t : Server} (hr : s.registry.isResponsive = true) {m : Moment}
    {header : Option String} {c : Caller}
    (h : (Service.authenticate m header).run s = (.ok c, t)) :
    s.registry.Calm t.registry ∧ ∃ token d, bearerToken? header = some token ∧
      SessionDescriptor.unpack s.gate.master.bytes token = .ok d ∧
      c = s.gate.caller d.uid d.role d.session := by
  rcases authenticate_cases hr m header with
    ⟨token, d, t', h', hb, hu, hc⟩ | ⟨_, _, _, t', h', -⟩ | ⟨_, t', h', -⟩
  · rw [h] at h'
    cases h'
    exact ⟨hc, token, d, hb, hu, rfl⟩
  · rw [h] at h'
    cases h'
  · rw [h] at h'
    cases h'

/-! ### Logins -/

namespace LoginStage

variable {m : Moment} {r : LoginRequest} {s : Server}

/-- The session that a login opens, if there is one. -/
def Opens (m : Moment) (r : LoginRequest) (s : Server)
    (outcome : Except ServiceError IssuedSession) (t : Server) : Prop :=
  (∃ e, outcome = .error e ∧ s.registry.Calm t.registry) ∨
  ∃ user, s.store.authenticate r.username r.password = some user ∧
    outcome = .ok (issued m s.gate user) ∧ t.registry.isResponsive = true ∧
    t.registry.table.sessions = (s.registry.table.addSession user.uid m.session).sessions

end LoginStage

theorem LoginWay.opens {m : Moment} {r : LoginRequest} {s t : Server}
    {outcome : Except ServiceError IssuedSession} (hr : s.registry.isResponsive = true)
    (h : LoginWay m r s outcome t) : LoginStage.Opens m r s outcome t := by
  have hcalm : ∀ {table : Registry.Table} {l : Link}, s.registry.Follows table l →
      table.sessions = s.registry.table.sessions → s.registry.Calm l := by
    intro table l hf ht
    exact ⟨hf.responsive, by rw [hf.table, ht]⟩
  cases h with
  | unavailable e l k fails =>
    rw [hr] at fails
    cases fails
  | throttled l _ follows => exact .inl ⟨_, rfl, hcalm follows rfl⟩
  | missed l _ _ _ follows =>
    refine .inl ⟨_, rfl, hcalm follows ?_⟩
    exact Operation.same_apply (.recordFailure r.username) (p := .sessions)
      (by simp [Operation.writes]) m.instant s.registry.table
  | unknown l _ _ _ follows => exact .inl ⟨_, rfl, hcalm follows rfl⟩
  | welcomed user l _ right follows =>
    refine .inr ⟨user, right, rfl, follows.responsive hr, ?_⟩
    show l.table.sessions = _
    rw [follows.table]
    unfold Registry.Table.addSession
    split
    · rfl
    · rfl

/-- **A login opens one session or none**, as long as the registry answers. -/
theorem login_cases {s : Server} (hr : s.registry.isResponsive = true) (m : Moment)
    (r : LoginRequest) :
    LoginStage.Opens m r s ((login m r).run s).1 ((login m r).run s).2 :=
  (login_way m r s).opens hr

/-! ### Changes of accounts -/

/-- A change gives the account with a uid a role or a password. -/
def AccountUpdate.Revokes (u : AccountUpdate) (uid : String) : Prop :=
  u.uid.map Char.toLower = uid ∧ (u.role ≠ none ∨ ∃ p, u.password = some p ∧ p ≠ "")

theorem mem_credentialChanges {users : List AccountUpdate} {uid : String} :
    uid ∈ credentialChanges (users.map AccountsRequest.normalize) ↔
      ∃ u ∈ users, u.Revokes uid := by
  have hpassword : ∀ u : AccountUpdate, (AccountsRequest.newPassword u).isSome = true ↔
      ∃ p, u.password = some p ∧ p ≠ "" := by
    intro u
    unfold AccountsRequest.newPassword
    cases u.password <;> simp
  unfold credentialChanges AccountUpdate.Revokes
  simp only [List.mem_map, List.mem_filter, Bool.or_eq_true, Option.isSome_iff_ne_none]
  constructor
  · rintro ⟨_, ⟨⟨u, hu, rfl⟩, hc⟩, rfl⟩
    refine ⟨u, hu, rfl, ?_⟩
    rcases hc with hc | hc
    · exact .inr ((hpassword u).1 (Option.isSome_iff_ne_none.2 hc))
    · exact .inl hc
  · rintro ⟨u, hu, rfl, hc⟩
    refine ⟨_, ⟨⟨u, hu, rfl⟩, ?_⟩, rfl⟩
    rcases hc with hc | hc
    · exact .inr hc
    · exact .inl (Option.isSome_iff_ne_none.1 ((hpassword u).2 hc))

theorem mem_cleanups {changed : List String} {users : List User} {uid : String} :
    Cleanup.endSessions uid ∈ cleanups changed users ↔
      uid ∈ users.map User.uid ∧ uid ∈ changed := by
  unfold cleanups
  simp only [List.mem_flatMap, List.mem_append, Option.mem_toList,
    Option.map_eq_some_iff, reduceCtorEq, and_false, exists_false, false_or, List.mem_map]
  constructor
  · rintro ⟨u, hu, h⟩
    split at h
    · rename_i hc
      cases List.mem_singleton.1 h
      exact ⟨⟨u, hu, rfl⟩, List.contains_iff_mem.1 hc⟩
    · cases h
  · rintro ⟨⟨u, hu, rfl⟩, hc⟩
    refine ⟨u, hu, ?_⟩
    rw [if_pos (List.contains_iff_mem.2 hc)]
    exact List.mem_singleton.2 rfl

/-- **Whose failures are to be cleared** after a change of accounts. -/
theorem mem_cleanups_forgetFailures {changed : List String} {users : List User} {name : String} :
    Cleanup.forgetFailures name ∈ cleanups changed users ↔
      ∃ user ∈ users, user.username = some name := by
  unfold cleanups
  rw [List.mem_flatMap]
  refine exists_congr fun user => and_congr_right fun _ => ?_
  rw [List.mem_append]
  constructor
  · rintro (h | h)
    · obtain ⟨name', hn, e⟩ := Option.map_eq_some_iff.1 (Option.mem_toList.1 h)
      rw [hn, Cleanup.forgetFailures.inj e]
    · split at h
      · cases List.mem_singleton.1 h
      · cases h
  · intro h
    exact .inl (Option.mem_toList.2 (Option.map_eq_some_iff.2 ⟨name, h, rfl⟩))

/-- **Whose sessions are to end** after a change of accounts that succeeded. -/
theorem mem_cleanups_updateAccounts {s : Store} {updates : List AccountUpdate} {users : List User}
    (h : (s.updateAccounts updates).1 = .ok users) {uid : String} :
    Cleanup.endSessions uid ∈ cleanups (credentialChanges updates) users ↔
      uid ∈ credentialChanges updates := by
  -- Every uid with new credentials is that of an update, and so of a user in the answer.
  obtain ⟨huids, -⟩ := Store.uids_updateAccounts h
  have hsub : uid ∈ credentialChanges updates → uid ∈ users.map User.uid := by
    intro hc
    rw [huids]
    obtain ⟨u, hu, rfl⟩ := List.mem_map.1 hc
    exact List.mem_map_of_mem (List.mem_filter.1 hu).1
  rw [mem_cleanups]
  exact ⟨fun hc => hc.2, fun hc => ⟨hsub hc, hc⟩⟩

theorem active_cleanup (m : Moment) (c : Cleanup) {s : Server}
    (hr : s.registry.isResponsive = true) :
    ∃ t, (c.perform m).run s = (.ok (), t) ∧ t.registry.isResponsive = true ∧
      ∀ uid session, t.Active uid session ↔ s.Active uid session ∧ c ≠ .endSessions uid := by
  cases c with
  | forgetFailures username =>
    obtain ⟨l, hl, ht, hr'⟩ := Service.call_of_isResponsive hr m (.resetFailures username)
    refine ⟨_, hl, hr', fun uid session => ?_⟩
    show l.table.hasSession uid session = true ↔ _
    rw [ht]
    simp only [Operation.apply, ne_eq, reduceCtorEq, not_false_eq_true, and_true]
    rfl
  | endSessions user =>
    obtain ⟨l, hl, ht, hr'⟩ := Service.call_of_isResponsive hr m (.purgeSessions user)
    refine ⟨{ s with registry := l }, ?_, hr', fun uid session => ?_⟩
    · unfold Cleanup.perform
      simp only
      rw [run_bind_ok hl]
      rfl
    · show l.table.hasSession uid session = true ↔ _
      rw [ht]
      simp only [Operation.apply]
      rw [Registry.Table.hasSession_purgeSessions]
      simp only [ne_eq, Cleanup.endSessions.injEq]
      rw [eq_comm (a := user)]
      rfl

/-- **All that the registry is told arrives**, and the sessions that are to end are over. -/
theorem active_tell (m : Moment) (todo : List Cleanup) {s : Server}
    (hr : s.registry.isResponsive = true) :
    ∃ t, (tell m todo).run s = (.ok (), t) ∧ t.registry.isResponsive = true ∧
      ∀ uid session, t.Active uid session ↔
        s.Active uid session ∧ Cleanup.endSessions uid ∉ todo := by
  induction todo generalizing s with
  | nil => exact ⟨s, rfl, hr, by simp⟩
  | cons c cs ih =>
    obtain ⟨t, ht, hrt, hat⟩ := active_cleanup m c hr
    obtain ⟨u, hu, hru, hau⟩ := ih hrt
    refine ⟨u, ?_, hru, fun uid session => ?_⟩
    · unfold tell
      rw [run_bind_ok ht]
      exact hu
    · rw [hau, hat, List.mem_cons, not_or, and_assoc, ne_comm]

theorem active_updateAccounts (m : Moment) (updates : List AccountUpdate) {s : Server}
    (hr : s.registry.isResponsive = true) :
    (∃ e t, (updateAccounts m updates).run s = (.error e, t) ∧ s.registry.Calm t.registry ∧
      t.store = s.store) ∨
    ∃ users t, (updateAccounts m updates).run s = (.ok users, t) ∧
      t.registry.isResponsive = true ∧
      ∀ uid session, t.Active uid session ↔
        s.Active uid session ∧ uid ∉ credentialChanges updates := by
  unfold updateAccounts
  have hrun := Service.run_onStore (fun t => t.updateAccounts updates) s
  rcases hu : s.store.updateAccounts updates with ⟨e | users, t⟩
  · rw [hu] at hrun
    have ht := Store.updateAccounts_eq_error (s := s.store) (by rw [hu])
    rw [hu] at ht
    exact .inl ⟨_, _, run_bind_error hrun, .refl _, ht⟩
  · rw [hu] at hrun
    obtain ⟨u, ht, hru, hau⟩ := active_tell m (cleanups (credentialChanges updates) users)
      (s := { s with store := t }) hr
    refine .inr ⟨users, u, ?_, hru, fun uid session => ?_⟩
    · rw [run_bind_ok hrun, run_bind_ok ht]
      rfl
    · rw [hau, mem_cleanups_updateAccounts (by rw [hu] : (s.store.updateAccounts updates).1 = _)]
      rfl

theorem AccountsRequest.eq_map_of_bind_eq_ok {r : AccountsRequest} {c : Caller}
    {updates : List AccountUpdate} (h : r.bind c = .ok updates) :
    updates = r.users.map normalize := by
  unfold AccountsRequest.bind at h
  rcases hd : demand (!r.users.isEmpty) .noUsers with e | _
  · rw [hd] at h
    cases h
  rcases hc : checkUpdates r.users with e | _
  · rw [hd, hc] at h
    cases h
  rcases ha : requireAdmin c with e | _
  · rw [hd, hc, ha] at h
    cases h
  rw [hd, hc, ha] at h
  cases h
  rfl

/-! ### Calls -/

/-- A successful call of a caller ends a session. -/
def Call.Ends (c : Caller) (uid session : String) : Call → Prop
  | .logout => uid = c.uid ∧ session = c.session
  | .logoutEverywhere => uid = c.uid
  | .updateAccounts request => ∃ u ∈ request.users, u.Revokes uid
  | _ => False

/-- What a call does to the sessions: those that it ends, if it succeeds, are gone, the others are
as before, and the registry still answers. -/
structure Call.Closes (m : Moment) (c : Caller) (s : Server) (call : Call) : Prop where
  responsive : ((call.perform m c).run s).2.registry.isResponsive = true
  active : ∀ uid session, ((call.perform m c).run s).2.Active uid session ↔
    s.Active uid session ∧
      ¬ ((∃ a, ((call.perform m c).run s).1 = .ok a) ∧ call.Ends c uid session)

namespace Call

variable {s : Server} (hr : s.registry.isResponsive = true) (m : Moment) (c : Caller)

/-- **Calls that are not about sessions** end none. -/
theorem calms_or_ends (call : Call) :
    (Calms Server.registry (call.perform m c) ∧ ∀ uid session, ¬ call.Ends c uid session) ∨
      call = .logout ∨ call = .logoutEverywhere ∨ ∃ request, call = .updateAccounts request := by
  have hcalms (h : Registry.Part.sessions ∉ call.writes) : Calms Server.registry (call.perform m c) :=
    (asks_perform m c call).calms h
  cases call with
  | logout => exact .inr (.inl rfl)
  | logoutEverywhere => exact .inr (.inr (.inl rfl))
  | updateAccounts request => exact .inr (.inr (.inr ⟨request, rfl⟩))
  | _ => exact .inl ⟨hcalms (by simp [writes]), fun _ _ h => h⟩

include hr

theorem closes_of_calms {call : Call} (h : Calms Server.registry (call.perform m c))
    (hends : ∀ uid session, ¬ call.Ends c uid session) : call.Closes m c s where
  responsive := (h s).responsive hr
  active uid session := by
    rw [active_iff_of_calm (h s)]
    exact ⟨fun hs => ⟨hs, fun he => hends uid session he.2⟩, fun hs => hs.1⟩

theorem closes_logout : logout.Closes m c s := by
  obtain ⟨l, hl, ht, hr'⟩ := Service.call_of_isResponsive hr m (.deleteSession c.uid c.session)
  have hrun : (logout.perform m c).run s = (.ok .ok, { s with registry := l }) := by
    unfold perform
    simp only
    rw [run_bind_ok hl]
    rfl
  refine ⟨by rw [hrun]; exact hr', fun uid session => ?_⟩
  rw [hrun]
  show l.table.hasSession uid session = true ↔ _
  rw [ht]
  simp only [Operation.apply, Ends, Except.ok.injEq, exists_eq', true_and]
  exact Registry.Table.hasSession_deleteSession _ _ _ _ _

theorem closes_logoutEverywhere : logoutEverywhere.Closes m c s := by
  obtain ⟨l, hl, ht, hr'⟩ := Service.call_of_isResponsive hr m (.purgeSessions c.uid)
  have hrun : (logoutEverywhere.perform m c).run s =
      (.ok (.ended (s.registry.table.sessionsOf c.uid)), { s with registry := l }) := by
    unfold perform
    simp only
    rw [run_bind_ok hl]
    rfl
  refine ⟨by rw [hrun]; exact hr', fun uid session => ?_⟩
  rw [hrun]
  show l.table.hasSession uid session = true ↔ _
  rw [ht]
  simp only [Operation.apply, Ends, Except.ok.injEq, exists_eq', true_and]
  exact Registry.Table.hasSession_purgeSessions _ _ _ _

theorem closes_updateAccounts (request : AccountsRequest) :
    (updateAccounts request).Closes m c s := by
  cases hb : request.bind c with
  | error e =>
    have hrun : ((updateAccounts request).perform m c).run s =
        (.error (.request e), ((Service.bound (.error e : Except RequestError
          (List AccountUpdate))).run s).2) := by
      unfold perform
      simp only
      rw [Service.run_bound_bind, hb]
    have hc := (Service.told_bound (.error e : Except RequestError (List AccountUpdate)) s).calm
      List.not_mem_nil
    refine ⟨by rw [hrun]; exact hc.responsive hr, fun uid session => ?_⟩
    rw [hrun, active_iff_of_calm hc]
    simp
  | ok updates =>
    have hrun : ((updateAccounts request).perform m c).run s =
        (SealedGraph.updateAccounts m updates >>= fun users =>
          pure (.users (users.map (User.stamp c.key)))).run s := by
      unfold perform
      simp only
      rw [Service.run_bound_bind, hb]
    rcases active_updateAccounts m updates hr with ⟨e, t, h, hc, -⟩ | ⟨users, t, h, hrt, hat⟩
    · rw [run_bind_error h] at hrun
      refine ⟨by rw [hrun]; exact hc.responsive hr, fun uid session => ?_⟩
      rw [hrun, active_iff_of_calm hc]
      simp
    · rw [run_bind_ok h, run_pure] at hrun
      refine ⟨by rw [hrun]; exact hrt, fun uid session => ?_⟩
      have he : uid ∈ credentialChanges (request.users.map AccountsRequest.normalize) ↔ _ :=
        mem_credentialChanges
      rw [← AccountsRequest.eq_map_of_bind_eq_ok hb] at he
      rw [hrun, hat, he]
      simp [Ends]

/-- **The sessions after a call** are those before it, without those that it ends if it succeeds. -/
theorem closes_perform (call : Call) : call.Closes m c s := by
  rcases call.calms_or_ends m c with ⟨h, hends⟩ | rfl | rfl | ⟨request, rfl⟩
  · exact closes_of_calms hr m c h hends
  · exact closes_logout hr m c
  · exact closes_logoutEverywhere hr m c
  · exact closes_updateAccounts hr m c request

end Call

/-! ### Roles -/

/-- **A change of accounts** gives another role only to an account that it has an entry for. -/
theorem role_updateAccounts {s : Store} {uid : String} {a : Account}
    (ha : s.accounts.find? uid = some a) {users : List AccountUpdate}
    (hn : ∀ u ∈ users, ¬ u.Revokes uid) :
    ∃ a', (s.updateAccounts (users.map AccountsRequest.normalize)).2.accounts.find? uid = some a' ∧
      a'.role = a.role := by
  obtain ⟨a', ha', hr⟩ := (Store.revises_updateAccounts s _).account ha
  refine ⟨a', ha', hr.role.resolve_right ?_⟩
  rintro ⟨_, hm, hu, hrole⟩
  obtain ⟨u, hu', rfl⟩ := List.mem_map.1 hm
  have hrole : u.role = some a'.role := hrole
  exact hn u hu' ⟨hu, .inl (by rw [hrole]; simp)⟩

/-- **A change of accounts that fails** has changed none, as long as the registry answers. -/
theorem store_updateAccounts_of_error {s t : Server} (hr : s.registry.isResponsive = true)
    {m : Moment} {c : Caller} {request : AccountsRequest} {e : ServiceError}
    (h : ((Call.updateAccounts request).perform m c).run s = (.error e, t)) :
    t.store = s.store := by
  unfold Call.perform at h
  simp only at h
  rw [Service.run_bound_bind] at h
  cases hb : request.bind c with
  | error e' =>
    rw [hb] at h
    cases h
    exact Service.keeps_bound apart_store.steady _ s
  | ok updates =>
    rw [hb] at h
    simp only at h
    rcases active_updateAccounts m updates hr with ⟨e', t', hrun, -, hst⟩ | ⟨users, t', hrun, -⟩
    · rw [run_bind_error hrun] at h
      cases h
      exact hst
    · rw [run_bind_ok hrun] at h
      cases h

end SealedGraph
