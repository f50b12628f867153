import SealedGraph.Proofs.Lifetime

/-!
# Nobody gets past the gate

All but two of the resources are there only for whoever has a live session. Who has none is told
why, and nothing else: neither the resource nor the method, the parameter or the body is looked at
before, so that the response cannot depend on them, and nothing is done but that an old session is
taken away.

* `Server.LetsIn`: a header that has the token of a live session.
* `gate_of_not_letsIn`: what becomes of any other header, also when the registry fails.
* `handle_of_guarded`: a guarded resource is behind the gate, whatever else the request has.
* `complete_mediation`: one response for all guarded requests with that header.
-/

namespace SealedGraph

open Attempt
open Registry (Table)

/-! ### Headers -/

namespace Server

/-- The header has a token that was issued here, with this description of a session. -/
def Presents (s : Server) (header : Option String) (d : SessionDescriptor) : Prop :=
  ∃ token, bearerToken? header = some token ∧
    SessionDescriptor.unpack s.gate.master.bytes token = .ok d

theorem Presents.unique {s : Server} {header : Option String} {d d' : SessionDescriptor}
    (h : s.Presents header d) (h' : s.Presents header d') : d = d' := by
  obtain ⟨token, hb, hu⟩ := h
  obtain ⟨token', hb', hu'⟩ := h'
  rw [hb] at hb'
  cases hb'
  rw [hu] at hu'
  cases hu'
  rfl

/-- The header has the token of a live session: it is young enough, it is active, and the registry
answers when it is asked. -/
def LetsIn (s : Server) (m : Moment) (header : Option String) : Prop :=
  ∃ d, s.Presents header d ∧ d.age m.second < s.gate.maxAge ∧ s.Active d.uid d.session ∧
    s.registry.nextFate = .answered

/-- The response to a header that does not let its bearer in. -/
inductive TurnsAway (s : Server) (m : Moment) (header : Option String) : Http.Response → Prop
  | unauthenticated (h : ∀ d, ¬ s.Presents header d) :
    TurnsAway s m header ⟨401, .text "unauthenticated"⟩
  | expired {d : SessionDescriptor} (h : s.Presents header d)
    (ha : s.gate.maxAge ≤ d.age m.second) : TurnsAway s m header ⟨401, .text "expired"⟩
  | revoked {d : SessionDescriptor} (h : s.Presents header d) (ha : d.age m.second < s.gate.maxAge)
    (hn : s.registry.nextFate = .answered) (hs : ¬ s.Active d.uid d.session) :
    TurnsAway s m header ⟨401, .text "revoked"⟩
  | unavailable {d : SessionDescriptor} (h : s.Presents header d)
    (ha : d.age m.second < s.gate.maxAge) {e : Registry.Error} {done : Bool}
    (hn : s.registry.nextFate = .failed e done) :
    TurnsAway s m header ⟨500, .text "internal error"⟩

end Server

/-- One table and another one, which is without one session at most. -/
structure Registry.Table.LosesAtMost (uid session : String) (t t' : Table) : Prop where
  groups : t'.groups = t.groups
  failures : t'.failures = t.failures
  window : t'.window = t.window
  others : ∀ u x, ¬ (u = uid ∧ x = session) → t'.hasSession u x = t.hasSession u x
  gone : t'.hasSession uid session = true → t.hasSession uid session = true

/-- What stays of a server when somebody is turned away: all but the counters, except for the
session of a token that is too old. -/
structure Server.Spares (s : Server) (m : Moment) (header : Option String) (t : Server) : Prop where
  store : t.store = s.store
  gate : t.gate = s.gate
  closed : t.registry.closed = s.registry.closed
  table : t.registry.table = s.registry.table ∨
    ∃ d, s.Presents header d ∧ s.gate.maxAge ≤ d.age m.second ∧
      s.registry.table.LosesAtMost d.uid d.session t.registry.table

theorem Registry.Table.losesAtMost_deleteSession (t : Table) (uid session : String) :
    t.LosesAtMost uid session (t.deleteSession uid session) where
  groups := rfl
  failures := rfl
  window := rfl
  others u x h := by
    rw [Bool.eq_iff_iff, hasSession_deleteSession]
    exact and_iff_left h
  gone h := ((t.hasSession_deleteSession uid session uid session).1 h).1

/-- **A question about a session** leaves the table alone. -/
theorem Registry.Link.call_hasSession (l : Registry.Link) (now : Nat) (uid session : String) :
    ∃ l', l.call now (.hasSession uid session) =
        (match l.nextFate with
          | .answered => .ok (l.table.hasSession uid session)
          | .failed e _ => .error e, l') ∧
      l'.closed = l.closed ∧ l'.table = l.table := by
  refine ⟨_, Prod.ext (l.call_fst now (.hasSession uid session)) rfl, l.closed_call _ _, ?_⟩
  rcases l.table_call now (.hasSession uid session) with h | h
  · exact h
  · exact h

section Authenticate

variable {s : Server} {m : Moment} {header : Option String}

/-- Only the registry and the counters can be others after a header was looked at. -/
theorem run_authenticate_of_error {e : AccessError} {l : Registry.Link}
    (h : s.gate.authenticate header m.second m.instant s.registry = (.error e, l)) :
    ∃ t, (Service.authenticate m header).run s = (.error (.access e), t) ∧ t.store = s.store ∧
      t.gate = s.gate ∧ t.registry = l := by
  unfold Service.authenticate run
  simp only [h]
  split
  · exact ⟨_, rfl, rfl, rfl, rfl⟩
  · exact ⟨_, rfl, rfl, rfl, rfl⟩

/-- **The ways of a header** that has no live session behind it, whether the registry answers or
not. -/
theorem gate_of_not_letsIn (hno : ¬ s.LetsIn m header) :
    ∃ e l, s.gate.authenticate header m.second m.instant s.registry = (.error e, l) ∧
      s.TurnsAway m header (Http.Refusal.service (.access e)).response ∧
      l.closed = s.registry.closed ∧
      (l.table = s.registry.table ∨
        ∃ d, s.Presents header d ∧ s.gate.maxAge ≤ d.age m.second ∧
          s.registry.table.LosesAtMost d.uid d.session l.table) := by
  unfold Gate.authenticate
  cases hb : bearerToken? header with
  | none =>
    refine ⟨_, _, rfl, .unauthenticated ?_, rfl, .inl rfl⟩
    rintro d ⟨token, h, -⟩
    rw [hb] at h
    cases h
  | some token =>
    simp only [Gate.validate]
    cases hu : SessionDescriptor.unpack s.gate.master.bytes token with
    | error e =>
      refine ⟨_, _, rfl, .unauthenticated ?_, rfl, .inl rfl⟩
      rintro d ⟨token', h, h'⟩
      rw [hb] at h
      cases h
      rw [hu] at h'
      cases h'
    | ok d =>
      have hp : s.Presents header d := ⟨token, hb, hu⟩
      by_cases ha : s.gate.maxAge ≤ d.age m.second
      · simp only [if_pos ha]
        refine ⟨_, _, rfl, .expired hp ha, s.registry.closed_call _ _, ?_⟩
        rcases s.registry.table_call m.instant (.deleteSession d.uid d.session) with h | h
        · exact .inl h
        · refine .inr ⟨d, hp, ha, ?_⟩
          rw [h]
          exact s.registry.table.losesAtMost_deleteSession d.uid d.session
      · simp only [if_neg ha]
        obtain ⟨l, hl, hclosed, htable⟩ :=
          s.registry.call_hasSession m.instant d.uid d.session
        rw [hl]
        cases hn : s.registry.nextFate with
        | failed e done =>
          exact ⟨_, l, rfl, .unavailable hp (by omega) hn, hclosed, .inl htable⟩
        | answered =>
          -- The registry answers, so that only its answer can be in the way.
          have hs : s.registry.table.hasSession d.uid d.session = false := by
            rw [← Bool.not_eq_true]
            exact fun hs => hno ⟨d, hp, by omega, hs, hn⟩
          rw [hs]
          refine ⟨_, l, rfl, .revoked hp (by omega) hn ?_, hclosed, .inl htable⟩
          rw [Server.Active, hs]
          exact Bool.false_ne_true

/-- **Who has no live session is turned away**, and the server is spared. -/
theorem authenticate_of_not_letsIn (hno : ¬ s.LetsIn m header) :
    ∃ e t, (Service.authenticate m header).run s = (.error e, t) ∧
      s.TurnsAway m header (Http.Refusal.service e).response ∧ s.Spares m header t := by
  obtain ⟨e, l, h, hresponse, hclosed, htable⟩ := gate_of_not_letsIn hno
  obtain ⟨t, ht, hstore, hgate, rfl⟩ := run_authenticate_of_error h
  exact ⟨_, t, ht, hresponse, hstore, hgate, hclosed, htable⟩

end Authenticate

/-! ### Requests -/

namespace Http

/-- A request for a resource that is not there for everyone. -/
def Request.Guarded (r : Request) : Prop :=
  ∃ resource, Resource.ofPath r.path = some resource ∧ resource ≠ .login ∧ resource ≠ .health

/-- A full response, as it is sent to a request with a method. -/
def Method.sends (method : Method) (full : Response) : Response :=
  if method = .head then full.withoutBody else full

variable {s : Server} {m : Moment} {header : Option String} {r : Request}

/-- **The gate comes first**: the response to a guarded request is that of the gate, if there is
one. -/
theorem handle_of_guarded (hr : r.Guarded) {e : ServiceError} {t : Server}
    (h : (Service.authenticate m r.credentials).run s = (.error e, t)) :
    handle m r s = (r.method.sends (Refusal.service e).response, t) := by
  obtain ⟨resource, hpath, hlogin, hhealth⟩ := hr
  have hfull : handleFull m r s = ((Refusal.service e).response, t) := by
    unfold handleFull
    rw [hpath]
    cases resource with
    | login => exact absurd rfl hlogin
    | health => exact absurd rfl hhealth
    | _ => simp only [h]
  unfold handle Method.sends
  rw [hfull]

/-- **Complete mediation.** If a header has no live session behind it, then there is one response
that says why, and one server that is as it was but for the counters and an expired session, such
that every request with this header for any guarded resource, whatever its method, its parameter and
its body, gets this response and leaves this server. -/
theorem complete_mediation (hno : ¬ s.LetsIn m header) :
    ∃ full t, s.TurnsAway m header full ∧ s.Spares m header t ∧
      ∀ r : Request, r.Guarded → r.credentials = header →
        handle m r s = (r.method.sends full, t) := by
  obtain ⟨e, t, h, hresponse, hspares⟩ := authenticate_of_not_letsIn hno
  refine ⟨_, t, hresponse, hspares, ?_⟩
  rintro r hr rfl
  exact handle_of_guarded hr h

namespace FirstLogin

/-- The server after the first login. -/
def after : Server := run server [visit]

/-- What the token of the first login says. -/
def descriptor : SessionDescriptor := ⟨"0x1", "user", Fresh.sessionId random, 0⟩

theorem presents_token : after.Presents (some ("Bearer " ++ token)) descriptor := by
  refine ⟨token, by decide +kernel, ?_⟩
  rw [after, gate_run]
  decide +kernel

theorem maxAge_le_age : after.gate.maxAge ≤ descriptor.age (moment 3600).second := by
  rw [after, gate_run]
  decide

/-- A guarded request whose method, body and media type are all wrong. -/
def latecomer : Request :=
  ⟨.get, "/user/share", some ("Bearer " ++ token), none, "no value of JSON"⟩

theorem guarded_latecomer : latecomer.Guarded := by
  refine ⟨.share, ?_, ?_, ?_⟩
  · decide +kernel
  · decide
  · decide

end FirstLogin

/-- The session of the first login is too old an hour later, and that is all that whoever comes with
its token is told. -/
theorem complete_mediation_expired :
    ∃ t, FirstLogin.after.Spares (FirstLogin.moment 3600) FirstLogin.latecomer.credentials t ∧
      handle (FirstLogin.moment 3600) FirstLogin.latecomer FirstLogin.after =
        (⟨401, .text "expired"⟩, t) := by
  have hcredentials : FirstLogin.latecomer.credentials = some ("Bearer " ++ FirstLogin.token) := by
    decide +kernel
  have hage : ∀ d, FirstLogin.after.Presents FirstLogin.latecomer.credentials d →
      FirstLogin.after.gate.maxAge ≤ d.age (FirstLogin.moment 3600).second := by
    intro d hd
    rw [hcredentials] at hd
    rw [hd.unique FirstLogin.presents_token]
    exact FirstLogin.maxAge_le_age
  have hno : ¬ FirstLogin.after.LetsIn (FirstLogin.moment 3600)
      FirstLogin.latecomer.credentials := by
    rintro ⟨d, hd, ha, -⟩
    have := hage d hd
    omega
  obtain ⟨full, t, hfull, hspares, hhandle⟩ := complete_mediation hno
  refine ⟨t, hspares, ?_⟩
  rw [hhandle _ FirstLogin.guarded_latecomer rfl]
  cases hfull with
  | unauthenticated h =>
    rw [hcredentials] at h
    exact absurd FirstLogin.presents_token (h _)
  | expired => rfl
  | revoked h ha =>
    have := hage _ h
    omega
  | unavailable h ha =>
    have := hage _ h
    omega

end Http

end SealedGraph
