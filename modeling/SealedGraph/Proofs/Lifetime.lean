import Mathlib.Data.List.Nodup
import SealedGraph.Fresh
import SealedGraph.Proofs.Http.Sessions

/-!
# How long a session lasts

A token says whose session it is and since when, and the registry says whether the session is still
active. What a token says never changes, and so it is only right as long as every request that
changes what it says also ends the session.

* `Orderly`: what is assumed of the requests: a clock that does not go back, fresh session ids, and
  no forged tokens.
* `Orderly.lasting`: from its login on, a session is active until one of the requests ends it, or a
  request presents its token too late; until it is ended its role is that of the account.
* `session_lifetime`: which tokens are accepted after any requests, and as whom.
-/

namespace SealedGraph

/-! ### Session ids -/

theorem sessionId_ne_empty {bytes : List UInt8} (hlen : bytes.length = 16) :
    Fresh.sessionId bytes ≠ "" := by
  intro h
  have h := congrArg String.toList h
  unfold Fresh.sessionId at h
  rw [String.toList_ofList] at h
  cases bytes with
  | nil => simp at hlen
  | cons b bs => simp [Fresh.marked, Text.bytesHex, Text.byteHex, List.modify_succ_cons] at h

theorem isField_sessionId (bytes : List UInt8) : IsField (Fresh.sessionId bytes) := by
  unfold IsField Fresh.sessionId
  rw [String.toList_ofList]
  exact Text.dot_not_mem_bytesHex _

namespace Http

open Attempt

/-! ### Ages -/

theorem second_toInt {m : Moment} (hmin : Timestamp.minSeconds ≤ m.clock.seconds)
    (hmax : m.clock.seconds ≤ Timestamp.maxSeconds) : m.second.toInt = m.clock.seconds := by
  have hlo : -(2 : Int) ^ 63 ≤ Timestamp.minSeconds := by decide
  have hhi : Timestamp.maxSeconds < (2 : Int) ^ 63 := by decide
  exact Int64.toInt_ofInt_of_le (by omega) (by omega)

/-- **A session is too old** once it is as many seconds old as sessions are good for. -/
theorem age_lt_maxAge_iff (g : Gate) {d : SessionDescriptor} {m now : Moment}
    (hd : d.timestamp = m.second) (hmin : Timestamp.minSeconds ≤ m.clock.seconds)
    (hle : m.clock.seconds ≤ now.clock.seconds)
    (hmax : now.clock.seconds ≤ Timestamp.maxSeconds) :
    d.age now.second < g.maxAge ↔ now.clock.seconds - m.clock.seconds < g.ttl := by
  have hspan : Timestamp.maxSeconds - Timestamp.minSeconds < Text.maxSigned 64 := by decide
  have hlow : Text.minSigned 64 ≤ 0 := by decide
  unfold SessionDescriptor.age Gate.maxAge
  rw [hd, second_toInt hmin (by omega), second_toInt (by omega) hmax]
  omega

/-! ### Requests in order -/

/-- What is assumed of the requests to a server. -/
structure Orderly (s₀ : Server) (history : List Visit) : Prop where
  /-- the clock does not go back -/
  clock : (history.map fun v => v.moment.clock.seconds).Pairwise (· ≤ ·)
  /-- and shows a time that there is a timestamp for -/
  range : ∀ v ∈ history, Timestamp.minSeconds ≤ v.moment.clock.seconds ∧
    v.moment.clock.seconds ≤ Timestamp.maxSeconds
  /-- ids for sessions are made from sixteen random bytes -/
  random : ∀ v ∈ history, ∃ bytes : List UInt8, bytes.length = 16 ∧
    v.moment.session = Fresh.sessionId bytes
  /-- and no two of them are the same -/
  distinct : (history.map fun v => v.moment.session).Nodup
  /-- a token in a header that is sealed with the master secret was the answer to a login before -/
  issued : ∀ {before v after token payload}, history = before ++ v :: after →
    bearerToken? v.request.credentials = some token →
    Envelope.verify s₀.gate.master.bytes token = .ok payload →
    ∃ x ∈ transcript s₀ before, ∃ uid, x.Issues uid token

namespace Orderly

variable {s₀ : Server} {before after history : List Visit} {v w : Visit} {uid token : String}

theorem of_append (h : Orderly s₀ (before ++ after)) : Orderly s₀ before where
  clock := by
    have := h.clock
    rw [List.map_append, List.pairwise_append] at this
    exact this.1
  range v hv := h.range v (List.mem_append_left _ hv)
  random v hv := h.random v (List.mem_append_left _ hv)
  distinct := by
    have := h.distinct
    rw [List.map_append, List.nodup_append] at this
    exact this.1
  issued {b v a _ _} e hb hv := by
    have e : before ++ after = b ++ v :: (a ++ after) := by simp [e]
    exact h.issued e hb hv

theorem le_clock (h : Orderly s₀ (before ++ [w])) (hv : v ∈ before) :
    v.moment.clock.seconds ≤ w.moment.clock.seconds := by
  have hc := h.clock
  rw [List.map_append, List.pairwise_append] at hc
  exact hc.2.2 _ (List.mem_map_of_mem hv) _ (by simp)

theorem session_ne (h : Orderly s₀ (before ++ [w])) (hv : v ∈ before) :
    v.moment.session ≠ w.moment.session := by
  have hd := h.distinct
  rw [List.map_append, List.nodup_append] at hd
  exact hd.2.2 _ (List.mem_map_of_mem hv) _ (by simp)

theorem session_ne_empty (h : Orderly s₀ history) (hv : v ∈ history) : v.moment.session ≠ "" := by
  obtain ⟨bytes, hlen, e⟩ := h.random v hv
  rw [e]
  exact sessionId_ne_empty hlen

theorem isField_session (h : Orderly s₀ history) (hv : v ∈ history) :
    IsField v.moment.session := by
  obtain ⟨bytes, -, e⟩ := h.random v hv
  rw [e]
  exact isField_sessionId bytes

/-- Exchanges in which the same session id came from the world are the same. -/
theorem eq_of_session (h : Orderly s₀ history) {x y : Exchange} (hx : x ∈ transcript s₀ history)
    (hy : y ∈ transcript s₀ history) (e : x.visit.moment.session = y.visit.moment.session) :
    x = y := by
  have hd := h.distinct
  rw [← map_visit_transcript s₀ history, List.map_map] at hd
  exact List.inj_on_of_nodup_map hd hx hy e

end Orderly

/-! ### The sessions during the requests -/

namespace Orderly

variable {s₀ : Server} {before after history : List Visit} {v w : Visit} {uid token : String}

section Tokens

variable (hs : s₀.store.Sound) (hr : s₀.registry.isResponsive = true)

include hs hr

/-- **What a login does.** Its token says the uid of the account, its role, the session and the
time, and the session is active. -/
theorem of_login (h : Orderly s₀ (before ++ v :: after))
    (hi : (exchange (run s₀ before) v).Issues uid token) :
    ∃ a, (run s₀ (before ++ [v])).store.accounts.find? uid = some a ∧
      SessionDescriptor.unpack s₀.gate.master.bytes token =
        .ok ⟨uid, a.role, v.moment.session, v.moment.second⟩ ∧
      (run s₀ (before ++ [v])).Active uid v.moment.session := by
  have hv : v ∈ before ++ v :: after := by simp
  have hsound := sound_run hs before
  obtain ⟨a, ha, ht, hst, hact⟩ :=
    of_issues (responsive_run hr before) v hsound hi (h.session_ne_empty hv)
  obtain ⟨n, -, huid⟩ := hsound.accountUid ha
  rw [run_concat]
  refine ⟨a, by rw [hst]; exact ha, ?_, hact⟩
  rw [ht, gate_run]
  refine SessionDescriptor.unpack_pack ?_ (h.session_ne_empty hv) ?_ ?_ (h.isField_session hv)
  · show uid ≠ ""
    rw [huid]
    exact Store.uidOf_ne_empty n
  · show IsField uid
    rw [huid]
    exact Store.isField_uidOf n
  · exact isField_of_isValidRole (hsound.role ha)

/-- **What the token of a login says**, whenever that was. -/
theorem unpack_token (h : Orderly s₀ history) {x : Exchange} (hx : x ∈ transcript s₀ history)
    (hi : x.Issues uid token) :
    ∃ role, SessionDescriptor.unpack s₀.gate.master.bytes token =
      .ok ⟨uid, role, x.visit.moment.session, x.visit.moment.second⟩ := by
  obtain ⟨pre, post, e⟩ := List.append_of_mem hx
  obtain ⟨before, w, after, rfl, -, rfl, -⟩ := eq_append_of_transcript e
  obtain ⟨a, -, hu, -⟩ := h.of_login hs hr hi
  exact ⟨a.role, hu⟩

/-- **Sessions are told apart by their tokens.** The token in the header of a later request is for
the session of a login if and only if it is the token of this login. -/
theorem bearer_iff (h : Orderly s₀ (before ++ [w])) {x : Exchange}
    (hx : x ∈ transcript s₀ before) (hi : x.Issues uid token) {token' : String}
    {d : SessionDescriptor} (hb : (exchange (run s₀ before) w).bearer? = some token')
    (hd : SessionDescriptor.unpack s₀.gate.master.bytes token' = .ok d) :
    (d.uid = uid ∧ d.session = x.visit.moment.session) ↔ token' = token := by
  obtain ⟨payload, hp, rfl, -⟩ := SessionDescriptor.unpack_eq_ok_iff.1 hd
  obtain ⟨y, hy, uid', hi'⟩ := h.issued rfl hb (Envelope.verify_sign hp)
  obtain ⟨role, hu⟩ := h.of_append.unpack_token hs hr hx hi
  obtain ⟨role', hu'⟩ := h.of_append.unpack_token hs hr hy hi'
  rw [hu'] at hd
  cases hd
  constructor
  · rintro ⟨-, e⟩
    obtain rfl : y = x := h.of_append.eq_of_session hy hx e
    unfold Exchange.Issues at hi hi'
    rw [hi] at hi'
    exact (Prod.mk.inj (Option.some.inj hi')).2.symm
  · intro e
    rw [e, hu] at hu'
    obtain ⟨huid, -, hsession, -⟩ := SessionDescriptor.mk.inj (Except.ok.inj hu')
    exact ⟨huid.symm, hsession.symm⟩

/-- **What a later request does to a session** of a login: the session is ended by what ends the
token, and by nothing else while it is young enough. -/
theorem step (h : Orderly s₀ (before ++ [w])) {x : Exchange} (hx : x ∈ transcript s₀ before)
    (hi : x.Issues uid token) :
    ((run s₀ (before ++ [w])).Active uid x.visit.moment.session →
      (run s₀ before).Active uid x.visit.moment.session ∧
        ¬ (exchange (run s₀ before) w).Ends uid token) ∧
    ((run s₀ before).Active uid x.visit.moment.session →
      (run s₀ (before ++ [w])).Active uid x.visit.moment.session ∨
        (exchange (run s₀ before) w).Ends uid token ∨
        (s₀.gate.ttl : Int) ≤ w.moment.clock.seconds - x.visit.moment.clock.seconds) := by
  have hrun := responsive_run hr before
  have hturns := turns_exchange hrun w
  obtain ⟨role, hu⟩ := h.of_append.unpack_token hs hr hx hi
  have hxv : x.visit ∈ before := by
    rw [← map_visit_transcript s₀ before]
    exact List.mem_map_of_mem hx
  rw [run_concat]
  refine ⟨fun hact => ⟨?_, fun hend => ?_⟩, fun hact => ?_⟩
  · -- The session of this moment is another one.
    exact (hturns.opened hact).resolve_right (h.session_ne hxv)
  · unfold Exchange.Ends at hend
    split at hend
    · rename_i c a ho
      obtain ⟨token', d, hb, hd, huid, hsession⟩ := caller_of_exchange hrun w ho
      rw [gate_run] at hd
      rw [hb] at hend
      obtain ⟨e, e'⟩ := (h.bearer_iff hs hr hx hi hb hd).2 (Option.some.inj hend)
      exact hturns.ended ho ⟨by rw [huid, e], by rw [hsession, e']⟩ hact
    · rename_i c a ho
      exact hturns.ended ho hend hact
    · rename_i c request a ho
      exact hturns.ended ho hend hact
    · exact hend
  · rcases hturns.kept hact with
      hact | ⟨c, call, a, ho, hend⟩ | ⟨token', d, hb, hd, huid, hsess, ha⟩
    · exact .inl hact
    · refine .inr (.inl ?_)
      unfold Exchange.Ends
      rw [ho]
      cases call with
      | logout =>
        obtain ⟨token', d, hb, hd, huid, hsession⟩ := caller_of_exchange hrun w ho
        rw [gate_run] at hd
        have e := (h.bearer_iff hs hr hx hi hb hd).1
          ⟨by rw [← huid, hend.1], by rw [← hsession, hend.2]⟩
        rw [← e]
        exact hb
      | logoutEverywhere => exact hend
      | updateAccounts request => exact hend
      | _ => exact hend
    · right
      right
      rw [show (exchange (run s₀ before) w).before.gate = s₀.gate from gate_run s₀ before] at hd ha
      have e := (h.bearer_iff hs hr hx hi hb hd).1 ⟨huid, hsess⟩
      rw [e, hu] at hd
      cases hd
      have hage := age_lt_maxAge_iff s₀.gate
        (d := ⟨uid, role, x.visit.moment.session, x.visit.moment.second⟩) rfl
        (h.range _ (List.mem_append_left _ hxv)).1 (h.le_clock hxv) (h.range w (by simp)).2
      have ha : s₀.gate.maxAge ≤
        SessionDescriptor.age ⟨uid, role, x.visit.moment.session, x.visit.moment.second⟩
          w.moment.second := ha
      by_contra hlt
      rw [Int.not_le, ← hage] at hlt
      omega

/-- **What becomes of the session of a login.** As long as it is active, none of the requests since
then ended it; it is active unless one of them did, or one of them came when it was too old; and
until one of them ends it, the role in its token is that of the account. -/
theorem lasting (h : Orderly s₀ (before ++ v :: after))
    (hi : (exchange (run s₀ before) v).Issues uid token) :
    ((run s₀ (before ++ v :: after)).Active uid v.moment.session →
      ∀ y ∈ transcript (run s₀ (before ++ [v])) after, ¬ y.Ends uid token) ∧
    ((run s₀ (before ++ v :: after)).Active uid v.moment.session ∨
      (∃ y ∈ transcript (run s₀ (before ++ [v])) after, y.Ends uid token) ∨
      ∃ w ∈ after, (s₀.gate.ttl : Int) ≤ w.moment.clock.seconds - v.moment.clock.seconds) ∧
    ((∀ y ∈ transcript (run s₀ (before ++ [v])) after, ¬ y.Ends uid token) →
      ∃ a, (run s₀ (before ++ v :: after)).store.accounts.find? uid = some a ∧
        SessionDescriptor.unpack s₀.gate.master.bytes token =
          .ok ⟨uid, a.role, v.moment.session, v.moment.second⟩) := by
  induction after using List.reverseRecOn with
  | nil =>
    obtain ⟨a, ha, hu, hact⟩ := h.of_login hs hr hi
    refine ⟨fun _ y hy => ?_, .inl hact, fun _ => ⟨a, ha, hu⟩⟩
    unfold transcript at hy
    cases hy
  | append_singleton ws w ih =>
    have e : before ++ v :: (ws ++ [w]) = (before ++ v :: ws) ++ [w] := by simp
    rw [e] at h
    obtain ⟨hended, hactive, hrole⟩ := ih h.of_append
    have hx : exchange (run s₀ before) v ∈ transcript s₀ (before ++ v :: ws) := by
      rw [transcript_append, transcript_cons]
      exact List.mem_append_right _ List.mem_cons_self
    have hmid : run (run s₀ (before ++ [v])) ws = run s₀ (before ++ v :: ws) := by
      rw [← run_append]
      simp
    obtain ⟨hback, hon⟩ := h.step hs hr hx hi
    rw [e, transcript_concat, hmid]
    refine ⟨fun hact y hy => ?_, ?_, fun hno => ?_⟩
    · obtain ⟨hact, hw⟩ := hback hact
      rcases List.mem_append.1 hy with hy | hy
      · exact hended hact y hy
      · rwa [List.mem_singleton.1 hy]
    · rcases hactive with hact | ⟨y, hy, hend⟩ | ⟨y, hy, hold⟩
      · rcases hon hact with hact | hend | hold
        · exact .inl hact
        · exact .inr (.inl ⟨_, by simp, hend⟩)
        · exact .inr (.inr ⟨w, by simp, hold⟩)
      · exact .inr (.inl ⟨y, List.mem_append_left _ hy, hend⟩)
      · exact .inr (.inr ⟨y, List.mem_append_left _ hy, hold⟩)
    · obtain ⟨a, ha, hu⟩ := hrole fun y hy => hno y (List.mem_append_left _ hy)
      have hw := hno (exchange (run s₀ (before ++ v :: ws)) w) (by simp)
      obtain ⟨a', ha', e'⟩ :=
        role_exchange (responsive_run hr (before ++ v :: ws)) w (sound_run hs _) ha hw
      rw [run_concat]
      exact ⟨a', ha', by rw [e']; exact hu⟩

end Tokens

end Orderly

/-! ### Which tokens are accepted -/

/-- **The lifetime of a session.** Start with any accounts and any registry that answers, an empty
one or another, and let any requests be served, with a clock that does not go back, fresh session
ids and no forged tokens. A token is accepted at a later moment if and only if it was the answer to
a login, is younger than sessions are good for, and no request since then was a logout with it, a
logout of all sessions of its user, or a change of accounts that gave its user a role or a password.
Whoever is let in by it has the uid of the account that logged in, and the role that this account
has at that moment. -/
theorem session_lifetime {accounts : List NewAccount} {s₀ : Server} {history : List Visit}
    {now : Moment} {token : String} (hstore : s₀.store = .withAccounts accounts)
    (hr : s₀.registry.isResponsive = true) (hhistory : Orderly s₀ history)
    (hclock : ∀ v ∈ history, v.moment.clock.seconds ≤ now.clock.seconds)
    (hmax : now.clock.seconds ≤ Timestamp.maxSeconds)
    (hissued : ∀ payload, Envelope.verify s₀.gate.master.bytes token = .ok payload →
      ∃ x ∈ transcript s₀ history, ∃ uid, x.Issues uid token) :
    let s := run s₀ history
    ((∃ c, (s.gate.validate token now.second now.instant s.registry).1 = .ok c) ↔
      ∃ pre x post uid, transcript s₀ history = pre ++ x :: post ∧ x.Issues uid token ∧
        now.clock.seconds - x.visit.moment.clock.seconds < s₀.gate.ttl ∧
        ∀ y ∈ post, ¬ y.Ends uid token) ∧
    ∀ c, (s.gate.validate token now.second now.instant s.registry).1 = .ok c →
      (∃ x ∈ transcript s₀ history, x.Issues c.uid token) ∧
        ∃ a, s.store.accounts.find? c.uid = some a ∧ c.role = a.role := by
  have hs : s₀.store.Sound := by
    rw [hstore]
    exact Store.sound_withAccounts accounts
  have hrun := responsive_run hr history
  have hage : ∀ {v : Visit} {uid role : String}, v ∈ history →
      (SessionDescriptor.age ⟨uid, role, v.moment.session, v.moment.second⟩ now.second <
        s₀.gate.maxAge ↔ now.clock.seconds - v.moment.clock.seconds < s₀.gate.ttl) :=
    fun hv => age_lt_maxAge_iff s₀.gate rfl (hhistory.range _ hv).1 (hclock _ hv) hmax
  -- Everything about an accepted token, from the login that it came from.
  have haccepted : ∀ c, ((run s₀ history).gate.validate token now.second now.instant
      (run s₀ history).registry).1 = .ok c →
      ∃ pre x post, transcript s₀ history = pre ++ x :: post ∧ x.Issues c.uid token ∧
        now.clock.seconds - x.visit.moment.clock.seconds < s₀.gate.ttl ∧
        (∀ y ∈ post, ¬ y.Ends c.uid token) ∧
        ∃ a, (run s₀ history).store.accounts.find? c.uid = some a ∧ c.role = a.role := by
    intro c hc
    obtain ⟨d, hu, ha, hact, rfl⟩ := (Gate.validate_eq_ok_iff _ hrun).1 hc
    rw [gate_run] at hu ha
    obtain ⟨payload, hp, ht, -⟩ := SessionDescriptor.unpack_eq_ok_iff.1 hu
    obtain ⟨x, hx, uid, hi⟩ := hissued payload (by rw [ht]; exact Envelope.verify_sign hp)
    obtain ⟨pre, post, e⟩ := List.append_of_mem hx
    obtain ⟨before, v, after, rfl, -, rfl, rfl⟩ := eq_append_of_transcript e
    obtain ⟨role, hu'⟩ := hhistory.unpack_token hs hr hx hi
    rw [hu'] at hu
    cases hu
    obtain ⟨hended, -, hrole⟩ := hhistory.lasting hs hr hi
    have hno := hended hact
    obtain ⟨a, ha', hu⟩ := hrole hno
    rw [hu'] at hu
    obtain ⟨-, hrole, -⟩ := SessionDescriptor.mk.inj (Except.ok.inj hu)
    exact ⟨pre, _, _, e, hi, (hage (v := v) (by simp)).1 ha, hno, a, ha', hrole⟩
  refine ⟨⟨?_, ?_⟩, fun c hc => ?_⟩
  · rintro ⟨c, hc⟩
    obtain ⟨pre, x, post, e, hi, hlt, hno, -⟩ := haccepted c hc
    exact ⟨pre, x, post, c.uid, e, hi, hlt, hno⟩
  · rintro ⟨pre, x, post, uid, e, hi, hlt, hno⟩
    obtain ⟨before, v, after, rfl, -, rfl, rfl⟩ := eq_append_of_transcript e
    obtain ⟨-, hactive, hrole⟩ := hhistory.lasting hs hr hi
    obtain ⟨a, -, hu⟩ := hrole hno
    have hact : (run s₀ (before ++ v :: after)).Active uid v.moment.session := by
      rcases hactive with hact | ⟨y, hy, hend⟩ | ⟨w, hw, hold⟩
      · exact hact
      · exact absurd hend (hno y hy)
      · have hle := hclock w (by simp [hw])
        have hlt : now.clock.seconds - v.moment.clock.seconds < s₀.gate.ttl := hlt
        omega
    refine ⟨_, (Gate.validate_eq_ok_iff _ hrun).2
      ⟨⟨uid, a.role, v.moment.session, v.moment.second⟩, ?_, ?_, hact, rfl⟩⟩
    · rw [gate_run]
      exact hu
    · rw [gate_run]
      exact (hage (v := v) (by simp)).2 hlt
  · obtain ⟨pre, x, post, e, hi, -, -, ha⟩ := haccepted c hc
    exact ⟨⟨x, by rw [e]; simp, hi⟩, ha⟩

/-! ### Two logins and a logout -/

/-- The outcome of a logout that succeeded. -/
def Outcome.isLogout : Outcome → Bool
  | .call _ .logout (.ok _) => true
  | _ => false

/-- A logout ends the session of the token in its header. -/
theorem Exchange.ends_iff_of_isLogout {x : Exchange} {uid token : String}
    (h : x.outcome.isLogout = true) : x.Ends uid token ↔ x.bearer? = some token := by
  unfold Outcome.isLogout at h
  unfold Exchange.Ends
  split at h
  · rename_i ho
    rw [ho]
  · cases h

namespace FirstLogin

/-- A server with one account and no sessions. -/
def server : Server where
  gate := ⟨⟨[9], List.cons_ne_nil 9 []⟩, 3600⟩
  maxFailures := 5
  store := .withAccounts [⟨"ann", "secret", "user", none⟩]
  registry := .responsive (.empty 0)
  metrics := .empty

/-- The bytes of the first session id. -/
def random : List UInt8 := List.replicate 16 1

/-- The moment so many seconds after the start. -/
def moment (seconds : Nat) : Moment := ⟨⟨seconds, 0⟩, 0, Fresh.sessionId random, ""⟩

/-- The user logs in. -/
def visit : Visit where
  moment := moment 0
  request := ⟨.post, "/auth/login", none, some "application/json",
    "\x7b\"username\":\"ann\",\"password\":\"secret\"\x7d"⟩

/-- The answer. -/
def token : String :=
  "MHgxLnVzZXIuMDEwMTAxMDEwMTAxNDEwMTgxMDEwMTAxMDEwMTAxMDEuMA." ++
    "vb56jWrCV76Wuq6iIJE0UFcWQypvw_USrS3bLLVZIF0"

theorem issues_visit : (exchange server visit).Issues "0x1" token := by decide +kernel

/-- The user logs in once more, ten seconds later. -/
def again : Visit := { visit with moment := ⟨⟨10, 0⟩, 0, Fresh.sessionId (.replicate 16 2), ""⟩ }

/-- The user logs out of the first session. -/
def logout : Visit where
  moment := ⟨⟨20, 0⟩, 0, Fresh.sessionId (.replicate 16 3), ""⟩
  request := ⟨.post, "/auth/logout", some ("Bearer " ++ token), none, ""⟩

/-- The answer to the second login. -/
def tokenAgain : String :=
  "MHgxLnVzZXIuMDIwMjAyMDIwMjAyNDIwMjgyMDIwMjAyMDIwMjAyMDIuMTA." ++
    "m2sdT_D4wNDtAFxjR5qyyQjg-b0SJ2ilR84UWFyJM2s"

/-- The three requests. -/
def history : List Visit := [visit, again, logout]

/-- The logout is one that succeeds, and it has the first token with it. -/
theorem serves_history :
    (exchange (run server [visit]) again).Issues "0x1" tokenAgain ∧
      (exchange (run server [visit, again]) logout).outcome.isLogout = true ∧
      (exchange (run server [visit, again]) logout).issued? = none ∧
      (exchange (run server [visit, again]) logout).bearer? = some token ∧
      token ≠ tokenAgain := by
  decide +kernel

theorem transcript_history : transcript server history =
    [exchange server visit, exchange (run server [visit]) again,
      exchange (run server [visit, again]) logout] := rfl

theorem orderly_history : Orderly server history where
  clock := by decide
  range := by decide
  random v hv := by
    simp only [history, List.mem_cons, List.not_mem_nil, or_false] at hv
    rcases hv with rfl | rfl | rfl
    · exact ⟨random, rfl, rfl⟩
    · exact ⟨.replicate 16 2, rfl, rfl⟩
    · exact ⟨.replicate 16 3, rfl, rfl⟩
  distinct := by decide
  issued {before v after t p} e hb _ := by
    -- Only the logout has a token with it, which is that of the first login.
    obtain ⟨-, -, -, hbearer, -⟩ := serves_history
    rcases before with _ | ⟨w, _ | ⟨w', _ | ⟨w'', ws⟩⟩⟩
    · cases e
      cases hb
    · cases e
      cases hb
    · cases e
      cases hbearer.symm.trans hb
      exact ⟨exchange server visit, List.mem_cons_self, _, issues_visit⟩
    · simp [history] at e

end FirstLogin

open FirstLogin in
/-- Two sessions of one user, and a logout with the token of the first: a second before the first
would have been too old, only the token of the second is accepted. -/
theorem session_lifetime_logout :
    (∃ c, ((run server history).gate.validate tokenAgain (moment 3599).second 0
      (run server history).registry).1 = .ok c) ∧
    ¬ ∃ c, ((run server history).gate.validate token (moment 3599).second 0
      (run server history).registry).1 = .ok c := by
  obtain ⟨hagain, hlogout, hno, hbearer, hne⟩ := serves_history
  have hclock : ∀ v ∈ history, v.moment.clock.seconds ≤ (moment 3599).clock.seconds := by decide
  constructor
  · have hissued : ∀ payload,
        Envelope.verify server.gate.master.bytes tokenAgain = .ok payload →
        ∃ x ∈ transcript server history, ∃ uid, x.Issues uid tokenAgain :=
      fun _ _ => ⟨_, by rw [transcript_history]; simp, _, hagain⟩
    have h := session_lifetime rfl rfl orderly_history hclock (by decide) hissued
    refine h.1.2 ⟨[_], _, [_], _, transcript_history, hagain, by decide, fun y hy => ?_⟩
    rw [List.mem_singleton.1 hy, Exchange.ends_iff_of_isLogout hlogout, hbearer]
    exact fun e => hne (Option.some.inj e)
  · have hissued : ∀ payload, Envelope.verify server.gate.master.bytes token = .ok payload →
        ∃ x ∈ transcript server history, ∃ uid, x.Issues uid token :=
      fun _ _ => ⟨_, by rw [transcript_history]; simp, _, issues_visit⟩
    have h := session_lifetime rfl rfl orderly_history hclock (by decide) hissued
    intro hc
    obtain ⟨pre, x, post, uid, e, hissues, -, hends⟩ := h.1.1 hc
    rw [transcript_history] at e
    generalize exchange (run server [visit, again]) logout = last at e hlogout hno hbearer
    -- The token is that of the first login, and so the logout is still to come.
    rcases pre with _ | ⟨y, _ | ⟨y', _ | ⟨y'', ys⟩⟩⟩
    · cases e
      exact hends last (by simp) ((Exchange.ends_iff_of_isLogout hlogout).2 hbearer)
    · cases e
      obtain ⟨-, e'⟩ := Prod.mk.inj (Option.some.inj (hagain.symm.trans hissues))
      exact hne e'.symm
    · cases e
      cases hno.symm.trans hissues
    · simp at e

end Http

end SealedGraph
