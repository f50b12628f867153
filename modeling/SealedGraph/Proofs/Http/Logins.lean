import SealedGraph.Proofs.Http.Sessions

/-!
# Failed logins during some requests

* `Request.Submits`: what it takes for a request to be a login.
* `way_of_outcome`: a login for a request goes one of the ways of a login.
* `Exchange.misses`, `Exchange.Admits`, `Refuses`: a login with a name that failed on the password,
  that succeeded, or that was refused before anyone looked at the password.
* `Exchange.Pardons`: a change of accounts that clears the failures with a name.
* `le_failureCount_serve`: no other request makes fewer failures with the name count.
-/

namespace SealedGraph

open Attempt
open Registry (Link Operation Part Table)

theorem LoginRequest.username_ne_empty {r : LoginRequest} (h : r.validate = .ok ()) :
    r.username ≠ "" := by
  intro he
  unfold LoginRequest.validate at h
  rw [he] at h
  cases h

/-! ### What changes of accounts clear -/

/-- The number of failures with a name that count, as a part of the server. -/
abbrev Server.failureCount (u : String) (now : Nat) (s : Server) : Nat :=
  s.registry.table.failureCount u now

section Cleared

variable {m : Moment} {u : String} {s : Server} (now : Nat)

theorem failureCount_of_told {parts : List Part} {l l' : Link} (h : Link.Told parts l l')
    (hp : Part.failures ∉ parts) : l'.table.failureCount u now = l.table.failureCount u now :=
  Table.failureCount_congr (h.same hp) h.window

/-- **What a successful login leaves** of the failures with a name: nothing if it is the name of the
login, and everything if it is another one. -/
theorem LoginWay.failureCount_of_isOk {r : LoginRequest} {t : Server}
    {outcome : Except ServiceError IssuedSession} (h : LoginWay m r s outcome t)
    (hok : outcome.isOk = true) :
    t.failureCount u now = if u = r.username then 0 else s.failureCount u now := by
  cases h with
  | welcomed user l _ _ follows =>
    have hkept := Table.failureCount_apply (t := s.registry.table.resetFailures r.username) (u := u)
      (.addSession user.uid m.session) (by simp [Operation.writes]) m.instant now
    show l.table.failureCount u now = _
    rw [follows.table]
    exact hkept.trans Table.failureCount_resetFailures
  | _ => cases hok

theorem failureCount_cleanup (hr : s.registry.isResponsive = true) {c : Cleanup}
    (h : c ≠ .forgetFailures u) :
    ((c.perform m).run s).2.failureCount u now = s.failureCount u now := by
  cases c with
  | forgetFailures w =>
    have hw : u ≠ w := fun e => h (by rw [e])
    obtain ⟨l, hl, ht, -⟩ := Service.call_of_isResponsive hr m (.resetFailures w)
    unfold Cleanup.perform
    simp only
    rw [hl]
    show l.table.failureCount u now = _
    rw [ht]
    exact Table.failureCount_resetFailures.trans (if_neg hw)
  | endSessions uid =>
    have hasks : Asks [.sessions] Server.registry (Cleanup.perform m (.endSessions uid)) :=
      (Service.asks_call m _ (by simp [Operation.writes])).bind fun _ => asks_pure _
    exact failureCount_of_told now (hasks s) (by simp)

theorem failureCount_tell (hr : s.registry.isResponsive = true) {todo : List Cleanup}
    (h : Cleanup.forgetFailures u ∉ todo) :
    ((tell m todo).run s).2.failureCount u now = s.failureCount u now := by
  induction todo generalizing s with
  | nil => rfl
  | cons c cs ih =>
    rw [List.mem_cons, not_or] at h
    obtain ⟨t, ht, hrt, -⟩ := active_cleanup m c hr
    have hc := failureCount_cleanup (m := m) now hr (Ne.symm h.1)
    unfold tell
    rw [run_bind_ok ht, ih hrt h.2]
    rw [ht] at hc
    exact hc

/-- **A change of accounts clears the failures with the names** that the accounts have after it, and
with no others. -/
theorem failureCount_updateAccounts (hr : s.registry.isResponsive = true)
    (updates : List AccountUpdate)
    (h : ∀ users, ((updateAccounts m updates).run s).1 = .ok users →
      ∀ user ∈ users, user.username ≠ some u) :
    ((updateAccounts m updates).run s).2.failureCount u now = s.failureCount u now := by
  have hstore := Service.run_onStore (fun t => t.updateAccounts updates) s
  unfold updateAccounts at h ⊢
  rcases hu : s.store.updateAccounts updates with ⟨e | users, t⟩
  · rw [hu] at hstore
    rw [run_bind_error hstore]
  · rw [hu] at hstore
    obtain ⟨t', ht', -⟩ := active_tell m (cleanups (credentialChanges updates) users)
      (s := { s with store := t }) hr
    have hrest : (tell m (cleanups (credentialChanges updates) users) >>= fun _ =>
        (pure users : Service (List User))).run { s with store := t } = (.ok users, t') := by
      rw [run_bind_ok ht']
      rfl
    have hnames : Cleanup.forgetFailures u ∉ cleanups (credentialChanges updates) users := by
      rw [mem_cleanups_forgetFailures]
      rintro ⟨user, huser, hname⟩
      refine h users ?_ user huser hname
      rw [run_bind_ok hstore, hrest]
    have htell := failureCount_tell (m := m) now (s := { s with store := t }) hr hnames
    rw [run_bind_ok hstore, hrest]
    rw [ht'] at htell
    exact htell

end Cleared

namespace Call

variable {m : Moment} {c : Caller} {s : Server} {u : String} (now : Nat)

/-- **A call clears the failures with a name** only if it is a change of accounts after which one of
those in the answer has the name. -/
theorem failureCount_perform (hr : s.registry.isResponsive = true) (call : Call)
    (h : ∀ request users, call = .updateAccounts request →
      ((call.perform m c).run s).1 = .ok (.users users) → ∀ user ∈ users, user.username ≠ some u) :
    ((call.perform m c).run s).2.failureCount u now = s.failureCount u now := by
  by_cases hcall : ∃ request, call = .updateAccounts request
  · obtain ⟨request, rfl⟩ := hcall
    replace h := fun users => h request users rfl
    unfold perform at h ⊢
    simp only at h ⊢
    rw [Service.run_bound_bind] at h ⊢
    cases hb : request.bind c with
    | error e => exact failureCount_of_told now (Service.told_bound _ s) List.not_mem_nil
    | ok updates =>
      rw [hb] at h
      simp only at h ⊢
      have hupdate := failureCount_updateAccounts (m := m) (u := u) now hr updates
      rcases hrun : (SealedGraph.updateAccounts m updates).run s with ⟨e | users, t⟩
      · rw [hrun] at hupdate
        rw [run_bind_error hrun]
        exact hupdate nofun
      · rw [hrun] at hupdate
        rw [run_bind_ok hrun] at h ⊢
        refine hupdate fun users' e user huser => ?_
        cases e
        -- The answer has the users with their tokens, but they keep their names.
        exact h _ rfl (user.stamp c.key) (List.mem_map_of_mem huser)
  · have hw : Part.failures ∉ call.writes := by
      cases call with
      | updateAccounts request => exact absurd ⟨request, rfl⟩ hcall
      | _ => simp [writes]
    exact failureCount_of_told now (asks_perform m c call s) hw

end Call

namespace Http

/-! ### Logins -/

/-- The request is a login with a name and a password. -/
structure Request.Submits (q : Request) (r : LoginRequest) : Prop where
  resource : Resource.ofPath q.path = some .login
  method : q.method = .post
  body : readBody LoginRequest.shape q = .ok r

section Login

variable {m : Moment} {q : Request} {r : LoginRequest} {s : Server}
  {outcome : Except ServiceError IssuedSession}

theorem serve_of_submits (h : q.Submits r) : serve m q s =
    match r.validate with
    | .error e => (.plain (Refusal.service (.request e)).response, s)
    | .ok () => (.login r ((login m r).run s).1, ((login m r).run s).2) := by
  unfold serve
  rw [h.resource]
  simp only
  rw [if_pos h.method]
  unfold serveLogin
  cases hv : r.validate with
  | error e => simp only [h.body, hv]
  | ok _ => simp only [h.body, hv]

theorem submits_of_outcome (h : (serve m q s).1 = .login r outcome) :
    q.Submits r ∧ r.validate = .ok () := by
  unfold serve at h
  rcases hres : Resource.ofPath q.path with _ | resource
  · rw [hres] at h
    cases h
  rw [hres] at h
  cases resource with
  | login =>
    simp only at h
    split at h
    · rename_i hmethod
      unfold serveLogin at h
      split at h
      · cases h
      · rename_i hbody
        split at h
        · cases h
        · rename_i hvalid
          obtain ⟨rfl, -⟩ := Outcome.login.inj h
          exact ⟨⟨hres, hmethod, hbody⟩, hvalid⟩
    · cases h
  | health =>
    simp only at h
    split at h
    · cases h
    · cases h
  | _ =>
    simp only at h
    split at h
    · cases h
    · rename_i c s' _
      rcases serveCall_cases m c _ q.method.served q s' with ⟨_, e⟩ | ⟨_, -, e⟩
      · rw [e] at h
        cases h
      · rw [e] at h
        cases h

/-- **A login for a request** goes one of the ways of a login, and has a name. -/
theorem way_of_outcome (h : (serve m q s).1 = .login r outcome) :
    r.username ≠ "" ∧ LoginWay m r s outcome (serve m q s).2 := by
  obtain ⟨hsub, hvalid⟩ := submits_of_outcome h
  have hserve := serve_of_submits (m := m) (s := s) hsub
  rw [hvalid] at hserve
  rw [hserve] at h ⊢
  obtain ⟨-, rfl⟩ := Outcome.login.inj h
  exact ⟨LoginRequest.username_ne_empty hvalid, login_way m r s⟩

end Login

/-! ### The clock of the registry -/

/-- From a time on, the clock of the registry is never set back. -/
def Ticks (start : Nat) (visits : List Visit) : Prop :=
  (start :: visits.map fun v => v.moment.instant).Pairwise (· ≤ ·)

instance (start : Nat) (visits : List Visit) : Decidable (Ticks start visits) :=
  inferInstanceAs (Decidable (List.Pairwise _ _))

theorem ticks_concat {start : Nat} {visits : List Visit} {v : Visit} :
    Ticks start (visits ++ [v]) ↔
      Ticks start visits ∧ start ≤ v.moment.instant ∧
        ∀ w ∈ visits, w.moment.instant ≤ v.moment.instant := by
  unfold Ticks
  rw [List.map_append, List.map_singleton, ← List.cons_append, List.pairwise_append]
  simp

/-! ### What requests do to failures -/

namespace Exchange

variable (x : Exchange) (u : String)

/-- A login with the name of an account that failed on the password. -/
def misses : Bool :=
  match x.outcome with
  | .login r (.error .invalidLogin) => r.username = u && x.before.store.isKnown u
  | _ => false

/-- A login with the name. -/
def Tries : Prop := ∃ r outcome, x.outcome = .login r outcome ∧ r.username = u

/-- A successful login with the name. -/
def Admits : Prop := ∃ r issued, x.outcome = .login r (.ok issued) ∧ r.username = u

/-- A successful change of accounts with one that has the name after it. -/
def Pardons : Prop := ∃ c request users,
  x.outcome = .call c (.updateAccounts request) (.ok (.users users)) ∧
    ∃ user ∈ users, user.username = some u

variable {x u}

theorem misses_iff : x.misses u = true ↔
    (∃ r, x.outcome = .login r (.error .invalidLogin) ∧ r.username = u) ∧
      x.before.store.isKnown u = true := by
  unfold misses
  constructor
  · intro h
    split at h
    · rename_i r ho
      rw [Bool.and_eq_true, decide_eq_true_eq] at h
      exact ⟨⟨r, ho, h.1⟩, h.2⟩
    · cases h
  · rintro ⟨⟨r, ho, rfl⟩, hknown⟩
    rw [ho]
    exact Bool.and_eq_true_iff.2 ⟨decide_eq_true rfl, hknown⟩

end Exchange

/-- A login is refused, and leaves the server as it is. -/
def Refuses (s : Server) (v : Visit) (r : LoginRequest) : Prop :=
  (serve v.moment v.request s).1 = .login r (.error .throttled) ∧
    ∃ l, (serve v.moment v.request s).2 = { s with registry := l } ∧
      l.table = s.registry.table ∧ l.isResponsive = true

section Step

variable {s : Server} {v : Visit} {u : String} {now : Nat}

/-- A login with a name is tried by every request for one that has a name an account can have. -/
theorem tries_exchange_iff : (exchange s v).Tries u ↔
    ∃ r, v.request.Submits r ∧ r.validate = .ok () ∧ r.username = u := by
  unfold Exchange.Tries
  rw [outcome_exchange]
  constructor
  · rintro ⟨r, outcome, ho, hu⟩
    obtain ⟨hsub, hvalid⟩ := submits_of_outcome ho
    exact ⟨r, hsub, hvalid, hu⟩
  · rintro ⟨r, hsub, hvalid, hu⟩
    refine ⟨r, ((login v.moment r).run s).1, ?_, hu⟩
    rw [serve_of_submits hsub, hvalid]

/-- **While failures lock a name**, every login with it is refused. -/
theorem refuses_of_locks (hr : s.registry.isResponsive = true) (h : (exchange s v).Tries u)
    (locked : s.Locks u v.moment.instant) : ∃ r, r.username = u ∧ Refuses s v r := by
  obtain ⟨r, outcome, ho, rfl⟩ := h
  rw [outcome_exchange] at ho
  obtain ⟨-, hway⟩ := way_of_outcome ho
  unfold Refuses
  refine ⟨r, rfl, ?_⟩
  rw [ho]
  generalize (serve v.moment v.request s).2 = t at hway
  cases hway with
  | unavailable e l k fails =>
    rw [hr] at fails
    cases fails
  | throttled l _ follows => exact ⟨rfl, l, rfl, follows.table, follows.responsive hr⟩
  | missed l open' => exact absurd locked open'
  | unknown l open' => exact absurd locked open'
  | welcomed user l open' => exact absurd locked open'

/-- **A login with a known name** succeeds, fails on the password, or is refused. -/
theorem admits_or_misses_or_refuses (hr : s.registry.isResponsive = true)
    (h : (exchange s v).Tries u) (hknown : s.store.isKnown u = true) :
    (exchange s v).Admits u ∨ (exchange s v).misses u = true ∨
      ∃ r, r.username = u ∧ Refuses s v r := by
  by_cases hlock : s.Locks u v.moment.instant
  · exact .inr (.inr (refuses_of_locks hr h hlock))
  obtain ⟨r, outcome, hx, rfl⟩ := h
  obtain ⟨-, hway⟩ := way_of_outcome ((outcome_exchange s v).symm.trans hx)
  generalize (serve v.moment v.request s).2 = t at hway
  cases hway with
  | unavailable e l k fails =>
    rw [hr] at fails
    cases fails
  | throttled l locked _ => exact absurd locked hlock
  | missed l _ _ _ _ => exact .inr (.inl (Exchange.misses_iff.2 ⟨⟨r, hx, rfl⟩, hknown⟩))
  | unknown l _ _ unknown _ =>
    rw [hknown] at unknown
    cases unknown
  | welcomed user l _ _ _ => exact .inl ⟨r, _, hx, rfl⟩

/-- **A failure that is entered** was checked against the password, and counts for a window. -/
theorem failureCount_of_misses (h : (exchange s v).misses u = true) :
    ¬ s.Locks u v.moment.instant ∧
      (∀ now, (serve v.moment v.request s).2.failureCount u now =
        (s.registry.table.noted u v.moment.instant).failureCount u now) ∧ u ≠ "" := by
  obtain ⟨⟨r, ho, rfl⟩, hknown⟩ := Exchange.misses_iff.1 h
  rw [outcome_exchange] at ho
  obtain ⟨hne, hway⟩ := way_of_outcome ho
  have hknown : s.store.isKnown r.username = true := hknown
  generalize (serve v.moment v.request s).2 = t at hway
  cases hway with
  | missed l open' wrong known follows =>
    refine ⟨open', fun now => ?_, hne⟩
    show l.table.failureCount r.username now = _
    rw [follows.table]
  | unknown l open' wrong unknown follows =>
    rw [hknown] at unknown
    cases unknown

/-- **A login that is not counted** leaves the failures with a name as they are, or drops them if they
had expired. -/
theorem failureCount_of_login {r : LoginRequest} {outcome : Except ServiceError IssuedSession}
    (hr : s.registry.isResponsive = true) (hx : (exchange s v).outcome = .login r outcome)
    (hadmits : ¬ (exchange s v).Admits u) (hmisses : (exchange s v).misses u = false) (now : Nat) :
    (serve v.moment v.request s).2.failureCount u now = s.failureCount u now ∨
    (serve v.moment v.request s).2.failureCount u now =
      (s.registry.table.prune v.moment.instant).failureCount u now := by
  obtain ⟨-, hway⟩ := way_of_outcome ((outcome_exchange s v).symm.trans hx)
  rcases outcome with e | issued
  · generalize (serve v.moment v.request s).2 = t at hway
    cases hway with
    | unavailable e l k fails =>
      rw [hr] at fails
      cases fails
    | throttled l locked follows =>
      exact .inl (congrArg (Table.failureCount · u now) follows.table)
    | missed l open' wrong known follows =>
      have hne : u ≠ r.username := by
        rintro rfl
        rw [Exchange.misses_iff.2 ⟨⟨r, hx, rfl⟩, known⟩] at hmisses
        cases hmisses
      right
      show l.table.failureCount u now = _
      rw [follows.table, Table.failureCount_noted_of_ne hne]
    | unknown l open' wrong unknown follows =>
      exact .inl (congrArg (Table.failureCount · u now) follows.table)
  · have hne : u ≠ r.username := fun h => hadmits ⟨r, issued, hx, h.symm⟩
    rw [hway.failureCount_of_isOk now rfl, if_neg hne]
    exact .inl rfl

/-- **A call** leaves the failures with a name as they are, unless it is a change of an account that
has the name. -/
theorem failureCount_of_call {c : Caller} {call : Call} {outcome : Except ServiceError Answer}
    (hr : s.registry.isResponsive = true) (hx : (exchange s v).outcome = .call c call outcome)
    (hpardons : ¬ (exchange s v).Pardons u) :
    (serve v.moment v.request s).2.failureCount u now = s.failureCount u now := by
  have hauth := Service.asks_authenticate v.moment v.request.credentials s
  have ho := (outcome_exchange s v).symm.trans hx
  rcases serve_cases v.moment v.request s with
    ⟨_, h⟩ | ⟨_, h⟩ | ⟨_, h⟩ | ⟨c', call', s', ha, -, h⟩
  · rw [h] at ho
    cases ho
  · rw [h] at ho
    cases ho
  · rw [h] at ho
    cases ho
  · rw [h] at ho
    obtain ⟨rfl, rfl, rfl⟩ := Outcome.call.inj ho
    rw [ha] at hauth
    have hcall := call'.failureCount_perform (m := v.moment) (u := u) now
      (hauth.isResponsive hr) fun request users hreq hok user huser hname =>
        hpardons ⟨c', request, users, by rw [hx, hok, hreq], user, huser, hname⟩
    rw [h]
    exact hcall.trans (failureCount_of_told now hauth (by simp))

/-- **All other requests leave the failures with a name** as they are, as long as they still
count. -/
theorem le_failureCount_serve (hr : s.registry.isResponsive = true)
    (hadmits : ¬ (exchange s v).Admits u) (hpardons : ¬ (exchange s v).Pardons u)
    (hmisses : (exchange s v).misses u = false) (ht : v.moment.instant ≤ now) :
    s.failureCount u now ≤ (serve v.moment v.request s).2.failureCount u now := by
  rcases hx : (exchange s v).outcome with response | ⟨r, outcome⟩ | ⟨c, call, outcome⟩
  · have htold := told_serve v.moment v.request s
    rw [← outcome_exchange, hx] at htold
    exact Nat.le_of_eq (failureCount_of_told now htold (by simp [Outcome.writes])).symm
  · rcases failureCount_of_login hr hx hadmits hmisses now with h | h
    · exact Nat.le_of_eq h.symm
    · rw [h]
      exact Table.le_failureCount_prune ht
  · exact Nat.le_of_eq (failureCount_of_call hr hx hpardons).symm

end Step

end Http

end SealedGraph
