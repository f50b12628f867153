import SealedGraph.Proofs.Lifetime

/-!
# Logins while accounts are changed

A login checks the password some steps before it enters its session, and a change of an account is
in the store some steps before the sessions of the user are ended. Any number of both take turns
here, step by step, on a registry that answers.

* `Workload`, `Snapshot`, `Turn`: logins and changes of accounts under way.
* `LoginStage.moves_advance`, `UpdateStage.moves_advance`: what one step can do.
* `interleaved_sessions`: a session outlives every change of accounts that has told the registry
  before the session was entered, whenever the password was checked.
* `LateLogin.stale_session_accepted`: so a token can be good for the role before a change that is
  complete.
-/

namespace SealedGraph

open Attempt

/-! ### Steps of a login -/

namespace LoginStage

/-- The stages between which a step of a login leads. -/
inductive Leads (m : Moment) (r : LoginRequest) (s : Server) : LoginStage → LoginStage → Prop
  | counted : Leads m r s .counting .checking
  | checked {user : User} (h : s.store.authenticate r.username r.password = some user) :
    Leads m r s .checking (.clearing user)
  | missed : Leads m r s .checking .noting
  | cleared (user : User) : Leads m r s (.clearing user) (.issuing user)
  | issued (user : User) : Leads m r s (.issuing user) (.finished (.ok (issued m s.gate user)))
  | failed (stage : LoginStage) (e : ServiceError) : Leads m r s stage (.finished (.error e))
  | stays (outcome : Except ServiceError IssuedSession) :
    Leads m r s (.finished outcome) (.finished outcome)

theorem Leads.to_clearing {m : Moment} {r : LoginRequest} {s : Server} {stage : LoginStage}
    {user : User} (h : Leads m r s stage (.clearing user)) :
    stage = .checking ∧ s.store.authenticate r.username r.password = some user := by
  cases h with
  | checked ha => exact ⟨rfl, ha⟩

theorem Leads.to_issuing {m : Moment} {r : LoginRequest} {s : Server} {stage : LoginStage}
    {user : User} (h : Leads m r s stage (.issuing user)) : stage = .clearing user := by
  cases h with
  | cleared _ => rfl

/-- **Only a login that enters its session** comes to a good end. -/
theorem Leads.to_ok {m : Moment} {r : LoginRequest} {s : Server} {stage stage' : LoginStage}
    {session : IssuedSession} (h : Leads m r s stage stage')
    (hok : stage' = .finished (.ok session)) :
    (∃ user, stage = .issuing user ∧ session = LoginStage.issued m s.gate user) ∨
      stage = .finished (.ok session) := by
  cases h with
  | issued user => exact .inl ⟨user, rfl, (Except.ok.inj (finished.inj hok)).symm⟩
  | stays _ => exact .inr hok
  | failed _ _ => cases finished.inj hok
  | _ => cases hok

/-- What a step of a login can do to the server. -/
structure Moves (m : Moment) (r : LoginRequest) (stage stage' : LoginStage) (s t : Server) :
    Prop where
  leads : Leads m r s stage stage'
  store : t.store = s.store
  gate : t.gate = s.gate
  responsive : t.registry.isResponsive = true
  active : ∀ uid session, t.Active uid session ↔ s.Active uid session ∨
    ∃ user, stage = .issuing user ∧ user.uid ≠ "" ∧ m.session ≠ "" ∧ uid = user.uid ∧
      session = m.session

theorem Moves.of_sessions {m : Moment} {r : LoginRequest} {stage stage' : LoginStage}
    {s t : Server} (hstage : ∀ user, stage ≠ .issuing user) (leads : Leads m r s stage stage')
    (store : t.store = s.store) (gate : t.gate = s.gate)
    (responsive : t.registry.isResponsive = true)
    (sessions : t.registry.table.sessions = s.registry.table.sessions) :
    Moves m r stage stage' s t where
  leads := leads
  store := store
  gate := gate
  responsive := responsive
  active uid session := by
    rw [active_iff_of_sessions sessions]
    constructor
    · exact .inl
    · rintro (h | ⟨user, h, -⟩)
      · exact h
      · exact absurd h (hstage user)

/-- **One step of a login**, as long as the registry answers. -/
theorem moves_advance (m : Moment) (r : LoginRequest) (stage : LoginStage) {s : Server}
    (hr : s.registry.isResponsive = true) :
    Moves m r stage (advance m r stage s).1 s (advance m r stage s).2 := by
  cases stage with
  | counting =>
    simp only [advance]
    split
    · exact .of_sessions (by simp) .counted rfl rfl hr rfl
    · obtain ⟨l, hl, ht, hr'⟩ := afterCall_of_isResponsive (m := m) hr (.failureCount r.username)
        fun n => if s.maxFailures ≤ n then .finished (.error .throttled) else .checking
      have hsessions : l.table.sessions = s.registry.table.sessions := by
        rw [ht]
        rfl
      rw [hl]
      refine .of_sessions (by simp) ?_ rfl rfl hr' hsessions
      simp only
      split
      · exact .failed _ _
      · exact .counted
  | checking =>
    simp only [advance]
    cases ha : s.store.authenticate r.username r.password with
    | some user => exact .of_sessions (by simp) (.checked ha) rfl rfl hr rfl
    | none =>
      simp only
      split
      · exact .of_sessions (by simp) .missed rfl rfl hr rfl
      · exact .of_sessions (by simp) (.failed _ _) rfl rfl hr rfl
  | noting =>
    obtain ⟨l, hl, ht, hr'⟩ := afterCall_of_isResponsive (m := m) hr (.recordFailure r.username)
      fun _ => .finished (.error .invalidLogin)
    have hsessions : l.table.sessions = s.registry.table.sessions := by
      rw [ht]
      exact Registry.Operation.same_apply (.recordFailure r.username) (p := .sessions)
        (by simp [Registry.Operation.writes]) m.instant s.registry.table
    simp only [advance, hl]
    exact .of_sessions (by simp) (.failed _ _) rfl rfl hr' hsessions
  | clearing user =>
    obtain ⟨l, hl, ht, hr'⟩ := afterCall_of_isResponsive (m := m) hr (.resetFailures r.username)
      fun _ => .issuing user
    have hsessions : l.table.sessions = s.registry.table.sessions := by
      rw [ht]
      rfl
    simp only [advance, hl]
    exact .of_sessions (by simp) (.cleared user) rfl rfl hr' hsessions
  | issuing user =>
    obtain ⟨l, hl, ht, hr'⟩ := afterCall_of_isResponsive (m := m) hr
      (.addSession user.uid m.session) fun _ => .finished (.ok (issued m s.gate user))
    simp only [advance, hl]
    refine ⟨.issued user, rfl, rfl, hr', fun uid session => ?_⟩
    show l.table.hasSession uid session = true ↔ _
    have hadded : l.table = s.registry.table.addSession user.uid m.session := ht
    rw [hadded, Registry.Table.hasSession_addSession]
    simp only [issuing.injEq, exists_eq_left']
    rfl
  | finished outcome => exact .of_sessions (by simp) (.stays outcome) rfl rfl hr rfl

end LoginStage

/-! ### Steps of a change of accounts -/

namespace UpdateStage

/-- The stages between which a step of a change of accounts leads. -/
inductive Leads (s : Server) : UpdateStage → UpdateStage → Prop
  | applied {updates : List AccountUpdate} {users : List User}
    (h : (s.store.updateAccounts updates).1 = .ok users) :
    Leads s (.applying updates) (.telling (cleanups (credentialChanges updates) users) users)
  | told (c : Cleanup) (todo : List Cleanup) (users : List User) :
    Leads s (.telling (c :: todo) users) (.telling todo users)
  | completed (users : List User) : Leads s (.telling [] users) (.finished (.ok users))
  | failed (stage : UpdateStage) (e : ServiceError) : Leads s stage (.finished (.error e))
  | stays (outcome : Except ServiceError (List User)) :
    Leads s (.finished outcome) (.finished outcome)

/-- The next step ends the sessions of a user. -/
def Purges (uid : String) (stage : UpdateStage) : Prop :=
  ∃ todo users, stage = .telling (.endSessions uid :: todo) users

/-- What a step of a change of accounts can do to the server. -/
structure Moves (stage stage' : UpdateStage) (s t : Server) : Prop where
  leads : Leads s stage stage'
  sound : s.store.Sound → t.store.Sound
  gate : t.gate = s.gate
  responsive : t.registry.isResponsive = true
  active : ∀ uid session, t.Active uid session ↔ s.Active uid session ∧ ¬ stage.Purges uid

/-- **One step of a change of accounts**, as long as the registry answers. -/
theorem moves_advance (m : Moment) (stage : UpdateStage) {s : Server}
    (hr : s.registry.isResponsive = true) :
    Moves stage (advance m stage s).1 s (advance m stage s).2 := by
  have hquiet : ∀ {stage : UpdateStage}, (∀ uid, ¬ stage.Purges uid) → ∀ uid session,
      s.Active uid session ↔ s.Active uid session ∧ ¬ stage.Purges uid := by
    intro stage h uid session
    exact ⟨fun hs => ⟨hs, h uid⟩, fun hs => hs.1⟩
  cases stage with
  | applying updates =>
    have hno : ∀ uid, ¬ (applying updates).Purges uid := by
      rintro uid ⟨todo, users, h⟩
      cases h
    have hsound : s.store.Sound → (s.store.updateAccounts updates).2.Sound :=
      fun hs => Store.sound_updateAccounts hs
    simp only [advance, Service.run_onStore]
    rcases hu : s.store.updateAccounts updates with ⟨e | users, t⟩
    · rw [hu] at hsound
      exact ⟨.failed _ _, hsound, rfl, hr, hquiet hno⟩
    · rw [hu] at hsound
      exact ⟨.applied (by rw [hu]), hsound, rfl, hr, hquiet hno⟩
  | telling todo users =>
    cases todo with
    | nil =>
      have hno : ∀ uid, ¬ (telling [] users).Purges uid := by
        rintro uid ⟨todo, users', h⟩
        cases h
      exact ⟨.completed users, id, rfl, hr, hquiet hno⟩
    | cons c todo =>
      obtain ⟨t, ht, hr', hactive⟩ := active_cleanup m c hr
      have hstore := keeps_cleanup apart_store.steady m c s
      have hgate := keeps_cleanup fixed_gate.toApart.steady m c s
      rw [ht] at hstore hgate
      have hstore : t.store = s.store := hstore
      simp only [advance, ht]
      refine ⟨.told c todo users, fun hs => ?_, hgate, hr', fun uid session => ?_⟩
      · rw [hstore]
        exact hs
      · have hpurges : (telling (c :: todo) users).Purges uid ↔ c = .endSessions uid := by
          unfold Purges
          simp only [telling.injEq, List.cons.injEq]
          constructor
          · rintro ⟨_, _, ⟨h, -⟩, -⟩
            exact h
          · intro h
            exact ⟨todo, users, ⟨h, rfl⟩, rfl⟩
        rw [hactive, hpurges]
  | finished outcome =>
    have hno : ∀ uid, ¬ (finished outcome).Purges uid := by
      rintro uid ⟨todo, users, h⟩
      cases h
    exact ⟨.stays outcome, id, rfl, hr, hquiet hno⟩

end UpdateStage

/-! ### Turns -/

/-- Logins and changes of accounts, by their numbers. -/
structure Workload where
  logins : Nat → LoginRequest
  updates : Nat → List AccountUpdate

/-- How far all of them have come. -/
structure Snapshot where
  server : Server
  login : Nat → LoginStage
  update : Nat → UpdateStage

/-- Which of them takes its next step, and when. -/
inductive Turn
  | login (i : Nat) (m : Moment)
  | update (j : Nat) (m : Moment)

def Turn.moment : Turn → Moment
  | .login _ m => m
  | .update _ m => m

/-- The turn ends the sessions of a user. -/
def Snapshot.Ends (x : Snapshot) (uid : String) : Turn → Prop
  | .login _ _ => False
  | .update j _ => (x.update j).Purges uid

namespace Workload

variable (w : Workload)

/-- Nothing is done yet. -/
def start (s : Server) : Snapshot := ⟨s, fun _ => .counting, fun j => .applying (w.updates j)⟩

/-- One turn. -/
def take (x : Snapshot) : Turn → Snapshot
  | .login i m =>
    let (stage, s) := (x.login i).advance m (w.logins i) x.server
    { x with server := s, login := Function.update x.login i stage }
  | .update j m =>
    let (stage, s) := (x.update j).advance m x.server
    { x with server := s, update := Function.update x.update j stage }

/-- Some turns, one after the other. -/
def run (x : Snapshot) (turns : List Turn) : Snapshot := turns.foldl w.take x

/-- One of the turns ends the sessions of a user. -/
def Ended (x : Snapshot) (uid : String) (turns : List Turn) : Prop :=
  ∃ before turn after, turns = before ++ turn :: after ∧ (w.run x before).Ends uid turn

/-- Name and password of a login were right for a user when they were checked in one of the turns. -/
def Checked (x : Snapshot) (turns : List Turn) (i : Nat) (user : User) : Prop :=
  ∃ before m after, turns = before ++ .login i m :: after ∧ (w.run x before).login i = .checking ∧
    (w.run x before).server.store.authenticate (w.logins i).username (w.logins i).password =
      some user

/-- A change of accounts was put into the store in one of the turns, and a later one of its turns
ended the sessions of a user. -/
def Purged (x : Snapshot) (turns : List Turn) (j : Nat) (uid : String) : Prop :=
  ∃ before m between m' after, turns = before ++ .update j m :: between ++ .update j m' :: after ∧
    (w.run x before).update j = .applying (w.updates j) ∧
    (w.run x (before ++ .update j m :: between)).Ends uid (.update j m')

variable {w} {x : Snapshot} {turns : List Turn} {turn : Turn} {uid : String}

theorem run_append (x : Snapshot) (turns more : List Turn) :
    w.run x (turns ++ more) = w.run (w.run x turns) more := List.foldl_append

theorem run_concat (x : Snapshot) (turns : List Turn) (turn : Turn) :
    w.run x (turns ++ [turn]) = w.take (w.run x turns) turn := run_append x turns [turn]

theorem ended_concat :
    w.Ended x uid (turns ++ [turn]) ↔ w.Ended x uid turns ∨ (w.run x turns).Ends uid turn := by
  constructor
  · rintro ⟨before, t, after, e, h⟩
    rcases List.eq_nil_or_concat after with rfl | ⟨after', t', rfl⟩
    · obtain ⟨rfl, ht⟩ := List.append_inj' e rfl
      cases ht
      exact .inr h
    · rw [List.concat_eq_append, ← List.cons_append, ← List.append_assoc] at e
      obtain ⟨rfl, -⟩ := List.append_inj' e rfl
      exact .inl ⟨before, t, after', rfl, h⟩
  · rintro (⟨before, t, after, rfl, h⟩ | h)
    · exact ⟨before, t, after ++ [turn], by simp, h⟩
    · exact ⟨turns, turn, [], rfl, h⟩

theorem Checked.append {i : Nat} {user : User} (h : w.Checked x turns i user)
    (more : List Turn) : w.Checked x (turns ++ more) i user := by
  obtain ⟨before, m, after, rfl, h⟩ := h
  exact ⟨before, m, after ++ more, by simp, h⟩

theorem Purged.append {j : Nat} (h : w.Purged x turns j uid) (more : List Turn) :
    w.Purged x (turns ++ more) j uid := by
  obtain ⟨before, m, between, m', after, rfl, h⟩ := h
  exact ⟨before, m, between, m', after ++ more, by simp, h⟩

/-! ### One turn -/

/-- What is true of the server at any time. -/
structure Steady (g : Gate) (s : Server) : Prop where
  sound : s.store.Sound
  responsive : s.registry.isResponsive = true
  gate : s.gate = g

section Take

variable {g : Gate} (hx : Steady g x.server)

include hx

theorem moves_login (i : Nat) (m : Moment) :
    LoginStage.Moves m (w.logins i) (x.login i) ((w.take x (.login i m)).login i) x.server
      (w.take x (.login i m)).server := by
  simp only [take, Function.update_self]
  exact LoginStage.moves_advance m (w.logins i) (x.login i) hx.responsive

theorem moves_update (j : Nat) (m : Moment) :
    UpdateStage.Moves (x.update j) ((w.take x (.update j m)).update j) x.server
      (w.take x (.update j m)).server := by
  simp only [take, Function.update_self]
  exact UpdateStage.moves_advance m (x.update j) hx.responsive

theorem steady_take (turn : Turn) : Steady g (w.take x turn).server := by
  cases turn with
  | login i m =>
    have h := moves_login (w := w) hx i m
    exact ⟨by rw [h.store]; exact hx.sound, h.responsive, h.gate.trans hx.gate⟩
  | update j m =>
    have h := moves_update (w := w) hx j m
    exact ⟨h.sound hx.sound, h.responsive, h.gate.trans hx.gate⟩

/-- A login stays where it is, or it is its turn. -/
theorem login_take (turn : Turn) (i : Nat) :
    (w.take x turn).login i = x.login i ∨
    ∃ m, turn = .login i m ∧
      LoginStage.Leads m (w.logins i) x.server (x.login i) ((w.take x turn).login i) := by
  cases turn with
  | login k m =>
    by_cases e : i = k
    · subst e
      exact .inr ⟨m, rfl, (moves_login hx i m).leads⟩
    · exact .inl (Function.update_of_ne e _ _)
  | update j m => exact .inl rfl

theorem update_take (turn : Turn) (j : Nat) :
    (w.take x turn).update j = x.update j ∨
    ∃ m, turn = .update j m ∧
      UpdateStage.Leads x.server (x.update j) ((w.take x turn).update j) := by
  cases turn with
  | login k m => exact .inl rfl
  | update k m =>
    by_cases e : j = k
    · subst e
      exact .inr ⟨m, rfl, (moves_update hx j m).leads⟩
    · exact .inl (Function.update_of_ne e _ _)

/-- **A session after a turn** that is not the one in which it is entered. -/
theorem active_take {session : String} (h : session ≠ turn.moment.session) :
    (w.take x turn).server.Active uid session ↔ x.server.Active uid session ∧ ¬ x.Ends uid turn := by
  cases turn with
  | login i m =>
    rw [(moves_login hx i m).active]
    constructor
    · rintro (ha | ⟨user, -, -, -, -, e⟩)
      · exact ⟨ha, id⟩
      · exact absurd e h
    · exact fun ha => .inl ha.1
  | update j m => exact (moves_update hx j m).active uid session

end Take

/-! ### Some turns -/

section Run

variable {g : Gate} (hx : Steady g x.server)

include hx

theorem steady_run (turns : List Turn) : Steady g (w.run x turns).server := by
  induction turns using List.reverseRecOn with
  | nil => exact hx
  | append_singleton turns turn ih =>
    rw [run_concat]
    exact steady_take ih turn

/-- **A session after some turns** in none of which it is entered. -/
theorem active_run {session : String} (h : session ∉ turns.map fun t => t.moment.session) :
    (w.run x turns).server.Active uid session ↔
      x.server.Active uid session ∧ ¬ w.Ended x uid turns := by
  induction turns using List.reverseRecOn with
  | nil =>
    have hno : ¬ w.Ended x uid [] := by
      rintro ⟨before, turn, after, e, -⟩
      simp at e
    exact ⟨fun ha => ⟨ha, hno⟩, fun ha => ha.1⟩
  | append_singleton turns turn ih =>
    rw [List.map_append, List.mem_append, not_or] at h
    have hne : session ≠ turn.moment.session := by simpa using h.2
    rw [run_concat, active_take (steady_run hx turns) hne, ih h.1, ended_concat, not_or, and_assoc]

end Run

/-! ### How a login and a change of accounts came where they are -/

section History

variable {s₀ : Server} {g : Gate} (hs : Steady g s₀)

include hs

theorem checked_of_clearing (turns : List Turn) (i : Nat) (user : User)
    (h : (w.run (w.start s₀) turns).login i = .clearing user) :
    w.Checked (w.start s₀) turns i user := by
  induction turns using List.reverseRecOn with
  | nil => cases h
  | append_singleton turns turn ih =>
    rw [run_concat] at h
    have hrun := steady_run (w := w) (x := w.start s₀) hs turns
    rcases login_take hrun turn i with e | ⟨m, rfl, hleads⟩
    · rw [e] at h
      exact (ih h).append [turn]
    · rw [h] at hleads
      obtain ⟨hbefore, ha⟩ := hleads.to_clearing
      exact ⟨turns, m, [], rfl, hbefore, ha⟩

/-- **Whoever gets a session** has had the right password in one of the turns. -/
theorem checked_of_issuing (turns : List Turn) (i : Nat) (user : User)
    (h : (w.run (w.start s₀) turns).login i = .issuing user) :
    w.Checked (w.start s₀) turns i user := by
  induction turns using List.reverseRecOn with
  | nil => cases h
  | append_singleton turns turn ih =>
    rw [run_concat] at h
    have hrun := steady_run (w := w) (x := w.start s₀) hs turns
    rcases login_take hrun turn i with e | ⟨m, rfl, hleads⟩
    · rw [e] at h
      exact (ih h).append [turn]
    · rw [h] at hleads
      exact (checked_of_clearing hs turns i user hleads.to_issuing).append _

theorem entered_of_run (turns : List Turn) (i : Nat) (issued : IssuedSession)
    (h : (w.run (w.start s₀) turns).login i = .finished (.ok issued)) :
    ∃ before m after user, turns = before ++ .login i m :: after ∧
      (w.run (w.start s₀) before).login i = .issuing user ∧
      issued = LoginStage.issued m g user := by
  induction turns using List.reverseRecOn with
  | nil => cases h
  | append_singleton turns turn ih =>
    rw [run_concat] at h
    have hrun := steady_run (w := w) (x := w.start s₀) hs turns
    have hkept : (w.run (w.start s₀) turns).login i = .finished (.ok issued) →
        ∃ before m after user, turns ++ [turn] = before ++ .login i m :: after ∧
          (w.run (w.start s₀) before).login i = .issuing user ∧
          issued = LoginStage.issued m g user := by
      intro hf
      obtain ⟨before, m, after, user, rfl, hstage, he⟩ := ih hf
      exact ⟨before, m, after ++ [turn], user, by simp, hstage, he⟩
    rcases login_take hrun turn i with e | ⟨m, rfl, hleads⟩
    · rw [e] at h
      exact hkept h
    · rcases hleads.to_ok h with ⟨user, hbefore, hissued⟩ | hbefore
      · have hgate := congrArg (fun g => LoginStage.issued m g user) hrun.gate
        exact ⟨turns, m, [], user, rfl, hbefore, hissued.trans hgate⟩
      · exact hkept hbefore

/-- What is done of a change of accounts at a stage: all sessions that it ends are ended, but for
those that it has still to tell of. -/
def Told (w : Workload) (x : Snapshot) (turns : List Turn) (j : Nat) : UpdateStage → Prop
  | .applying updates => updates = w.updates j
  | .telling todo _ =>
    (∃ before m between, turns = before ++ .update j m :: between ∧
      (w.run x before).update j = .applying (w.updates j)) ∧
    ∀ uid ∈ credentialChanges (w.updates j),
      Cleanup.endSessions uid ∈ todo ∨ w.Purged x turns j uid
  | .finished (.ok _) => ∀ uid ∈ credentialChanges (w.updates j), w.Purged x turns j uid
  | .finished (.error _) => True

theorem told_of_run (turns : List Turn) (j : Nat) :
    Told w (w.start s₀) turns j ((w.run (w.start s₀) turns).update j) := by
  induction turns using List.reverseRecOn with
  | nil => exact rfl
  | append_singleton turns turn ih =>
    have hrun := steady_run (w := w) (x := w.start s₀) hs turns
    rw [run_concat]
    rcases update_take hrun turn j with e | ⟨m, rfl, hleads⟩
    · -- Someone else's turn.
      rw [e]
      generalize (w.run (w.start s₀) turns).update j = stage at ih
      cases stage with
      | applying updates => exact ih
      | telling todo users =>
        obtain ⟨⟨before, m, between, rfl, hbefore⟩, hpurged⟩ := ih
        refine ⟨⟨before, m, between ++ [turn], by simp, hbefore⟩, fun uid hu => ?_⟩
        exact (hpurged uid hu).imp_right fun h => h.append [turn]
      | finished outcome =>
        cases outcome with
        | ok users => exact fun uid hu => (ih uid hu).append [turn]
        | error e => exact trivial
    · generalize hbefore : (w.run (w.start s₀) turns).update j = stage at hleads ih
      generalize (w.take (w.run (w.start s₀) turns) (.update j m)).update j = stage' at hleads
      cases hleads with
      | @applied updates users hok =>
        have hupdates : updates = w.updates j := ih
        subst hupdates
        refine ⟨⟨turns, m, [], rfl, hbefore⟩, fun uid hu => .inl ?_⟩
        exact (mem_cleanups_updateAccounts hok).2 hu
      | told c todo users =>
        obtain ⟨⟨before, m₀, between, rfl, hstart⟩, hpurged⟩ := ih
        refine ⟨⟨before, m₀, between ++ [.update j m], by simp, hstart⟩, fun uid hu => ?_⟩
        rcases hpurged uid hu with hc | hdone
        · rcases List.mem_cons.1 hc with rfl | hc
          · -- This is the turn in which the sessions of the user end.
            refine .inr ⟨before, m₀, between, m, [], rfl, hstart, ?_⟩
            exact ⟨todo, users, hbefore⟩
          · exact .inl hc
        · exact .inr (hdone.append _)
      | completed users =>
        intro uid hu
        rcases ih.2 uid hu with hc | hdone
        · cases hc
        · exact hdone.append _
      | failed _ e => exact trivial
      | stays outcome =>
        cases outcome with
        | ok users => exact fun uid hu => (ih uid hu).append _
        | error e => exact trivial

/-- **A change of accounts that is complete** has ended the sessions of everyone whose password or
role it changed, in a turn after the one that put it into the store. -/
theorem purged_of_run (turns : List Turn) {j : Nat} {users : List User}
    (h : (w.run (w.start s₀) turns).update j = .finished (.ok users)) {uid : String}
    (hu : uid ∈ credentialChanges (w.updates j)) : w.Purged (w.start s₀) turns j uid := by
  have htold := told_of_run (w := w) hs turns j
  rw [h] at htold
  exact htold uid hu

end History

end Workload

/-! ### Tokens -/

/-- Ids for sessions are made from sixteen random bytes, and no two of them are the same. -/
structure DistinctSessions (turns : List Turn) : Prop where
  random : ∀ t ∈ turns, ∃ bytes : List UInt8, bytes.length = 16 ∧
    t.moment.session = Fresh.sessionId bytes
  distinct : (turns.map fun t => t.moment.session).Nodup

namespace Workload

variable {w : Workload} {s₀ : Server} {before after : List Turn} {i : Nat} {m : Moment} {user : User}

/-- **What the token of a login says**: the uid and the role of the account whose password was
checked. -/
theorem unpack_issued (hs : s₀.store.Sound) {r : LoginRequest}
    (ha : s₀.store.authenticate r.username r.password = some user) (g : Gate)
    (hne : m.session ≠ "") (hfield : IsField m.session) :
    user.uid ≠ "" ∧ SessionDescriptor.unpack g.master.bytes (LoginStage.issued m g user).token =
      .ok (LoginStage.claims m user) := by
  obtain ⟨uid, a, -, hfind, rfl⟩ := Store.of_authenticate_eq_some ha
  obtain ⟨n, -, huid⟩ := hs.accountUid hfind
  have hnil : uid ≠ "" := by
    rw [huid]
    exact Store.uidOf_ne_empty n
  have huidField : IsField uid := by
    rw [huid]
    exact Store.isField_uidOf n
  have hrole : IsField a.role := isField_of_isValidRole (hs.role hfind)
  exact ⟨hnil, SessionDescriptor.unpack_pack hnil hne huidField hrole hfield⟩

/-- **A token is accepted** until the sessions of its user are ended in a turn after that in which
the session was entered. -/
theorem accepted_iff (hs : Steady s₀.gate s₀)
    (hd : DistinctSessions (before ++ .login i m :: after))
    (hstage : (w.run (w.start s₀) before).login i = .issuing user) (now : Int64) (instant : Nat)
    (c : Caller) :
    let s := (w.run (w.start s₀) (before ++ .login i m :: after)).server
    (s.gate.validate (LoginStage.issued m s₀.gate user).token now instant s.registry).1 = .ok c ↔
      c = s₀.gate.caller user.uid (user.role.getD "") m.session ∧
      (LoginStage.claims m user).age now < s₀.gate.maxAge ∧
      ¬ w.Ended (w.run (w.start s₀) (before ++ [.login i m])) user.uid after := by
  intro s
  have hbefore := steady_run (w := w) (x := w.start s₀) hs before
  have hentered := steady_run (w := w) (x := w.start s₀) hs (before ++ [.login i m])
  have hfinal := steady_run (w := w) (x := w.start s₀) hs (before ++ .login i m :: after)
  obtain ⟨bytes, hlen, hsession⟩ := hd.random (.login i m) (by simp)
  have hne : m.session ≠ "" := by
    rw [show m.session = _ from hsession]
    exact sessionId_ne_empty hlen
  have hfield : IsField m.session := by
    rw [show m.session = _ from hsession]
    exact isField_sessionId bytes
  obtain ⟨early, m₀, late, rfl, -, ha⟩ := checked_of_issuing (w := w) hs before i user hstage
  have hearly := steady_run (w := w) (x := w.start s₀) hs early
  obtain ⟨hnil, hunpack⟩ := unpack_issued hearly.sound ha s₀.gate hne hfield
  -- The session is active right after its turn, and no other turn can enter it once more.
  have hactive : (w.run (w.start s₀) (early ++ .login i m₀ :: late ++ [.login i m])).server.Active
      user.uid m.session := by
    rw [run_concat, (moves_login hbefore i m).active]
    exact .inr ⟨user, hstage, hnil, hne, rfl, rfl⟩
  have hfresh : m.session ∉ after.map fun t => t.moment.session := by
    have hdistinct := hd.distinct
    rw [List.map_append, List.map_cons, List.nodup_append] at hdistinct
    exact (List.nodup_cons.1 hdistinct.2.1).1
  have hlater : s.Active user.uid m.session ↔ ¬ w.Ended
      (w.run (w.start s₀) (early ++ .login i m₀ :: late ++ [.login i m])) user.uid after := by
    have hsplit : early ++ .login i m₀ :: late ++ .login i m :: after =
        early ++ .login i m₀ :: late ++ [.login i m] ++ after := by simp
    have hrun : (w.run (w.run (w.start s₀) (early ++ .login i m₀ :: late ++ [.login i m]))
        after).server.Active user.uid m.session ↔ _ := active_run hentered hfresh
    rw [← run_append, ← hsplit] at hrun
    exact ⟨fun h => (hrun.1 h).2, fun h => hrun.2 ⟨hactive, h⟩⟩
  rw [Gate.validate_eq_ok_iff _ hfinal.responsive, hfinal.gate, hunpack]
  constructor
  · rintro ⟨d, hd, hage, hsess, rfl⟩
    cases hd
    exact ⟨rfl, hage, hlater.1 hsess⟩
  · rintro ⟨rfl, hage, hno⟩
    exact ⟨_, rfl, hage, hlater.2 hno, rfl⟩

/-- Of a login's turn and a turn that ends sessions, one comes before the other. -/
theorem purged_before {j : Nat} {uid : String}
    (h : w.Purged (w.start s₀) (before ++ .login i m :: after) j uid)
    (hno : ¬ w.Ended (w.run (w.start s₀) (before ++ [.login i m])) uid after) :
    w.Purged (w.start s₀) before j uid := by
  obtain ⟨first, m₁, between, m', rest, e, hstart, hends⟩ := h
  rcases List.append_eq_append_iff.1 e with ⟨mid, hmid, hrest⟩ | ⟨mid, hmid, hrest⟩
  · cases mid with
    | nil => cases (List.cons.inj hrest).1
    | cons turn mid =>
      -- The sessions end after the session was entered.
      obtain ⟨rfl, rfl⟩ := List.cons.inj hrest
      refine absurd ⟨mid, _, rest, rfl, ?_⟩ hno
      rw [← run_append, List.append_assoc, List.singleton_append, ← hmid]
      exact hends
  · cases mid with
    | nil => cases (List.cons.inj hrest).1
    | cons turn mid =>
      obtain ⟨rfl, rfl⟩ := List.cons.inj hrest
      exact ⟨first, m₁, between, m', mid, hmid, hstart, hends⟩

end Workload

/-- **Sessions of logins that take turns with changes of accounts.** Start with a store that came out
of an empty one and a registry that answers, and let any number of logins and changes of accounts
take their steps in any order. For each login that has succeeded, let `user` be the account as it was
when the password was checked. The token is accepted, with the role of that time, until it is too old
or the sessions of the user are ended in a turn after the one in which the session was entered. A
change of accounts that is complete, and has changed the password or the role of this user, has
ended the user's sessions in one of its turns; so as long as the token is accepted, that turn came
before the one in which the session was entered. The password may have been checked before both. -/
theorem interleaved_sessions {w : Workload} {s₀ : Server} {turns : List Turn}
    (hs : s₀.store.Sound) (hr : s₀.registry.isResponsive = true) (hd : DistinctSessions turns) :
    let s := (w.run (w.start s₀) turns).server
    ∀ i issued, (w.run (w.start s₀) turns).login i = .finished (.ok issued) →
      ∃ before m after user, turns = before ++ .login i m :: after ∧
        w.Checked (w.start s₀) before i user ∧
        (w.run (w.start s₀) before).login i = .issuing user ∧
        (∀ now instant c, (s.gate.validate issued.token now instant s.registry).1 = .ok c ↔
          c = s₀.gate.caller user.uid (user.role.getD "") m.session ∧
          (LoginStage.claims m user).age now < s₀.gate.maxAge ∧
          ¬ w.Ended (w.run (w.start s₀) (before ++ [.login i m])) user.uid after) ∧
        ∀ j users, (w.run (w.start s₀) turns).update j = .finished (.ok users) →
          user.uid ∈ credentialChanges (w.updates j) →
          w.Purged (w.start s₀) turns j user.uid ∧
          ∀ now instant c, (s.gate.validate issued.token now instant s.registry).1 = .ok c →
            w.Purged (w.start s₀) before j user.uid := by
  intro s i issued hfinished
  have hsteady : Workload.Steady s₀.gate s₀ := ⟨hs, hr, rfl⟩
  obtain ⟨before, m, after, user, rfl, hstage, rfl⟩ :=
    Workload.entered_of_run (w := w) hsteady turns i issued hfinished
  have haccepted := Workload.accepted_iff hsteady hd hstage
  refine ⟨before, m, after, user, rfl, Workload.checked_of_issuing hsteady before i user hstage,
    hstage, haccepted, fun j users hcomplete hu => ?_⟩
  have hpurged := Workload.purged_of_run hsteady _ hcomplete hu
  refine ⟨hpurged, fun now instant c hc => ?_⟩
  exact Workload.purged_before hpurged ((haccepted now instant c).1 hc).2.2

/-! ### A login that comes late -/

namespace LateLogin

theorem secret_ne_nil : ([9] : List UInt8) ≠ [] := List.cons_ne_nil 9 []

/-- A server with one account, that of an administrator. -/
def server : Server where
  gate := ⟨⟨[9], secret_ne_nil⟩, 3600⟩
  maxFailures := 5
  store := .withAccounts [⟨"ann", "secret", adminRole, none⟩]
  registry := .responsive (.empty 0)
  metrics := .empty

/-- The administrator logs in, and gets another role. -/
def workload : Workload where
  logins _ := ⟨"ann", "secret"⟩
  updates _ := [⟨"0x1", none, none, some "user", none⟩]

/-- The moment so many seconds after the start. -/
def moment (seconds : Nat) : Moment :=
  ⟨⟨seconds, 0⟩, 0, Fresh.sessionId (List.replicate 16 (UInt8.ofNat seconds)), ""⟩

/-- The password is checked. -/
def check : List Turn := [.login 0 (moment 0), .login 0 (moment 1)]

/-- All of the change of the account is done. -/
def demotion : List Turn :=
  [.update 0 (moment 2), .update 0 (moment 3), .update 0 (moment 4), .update 0 (moment 5)]

/-- The session is entered. -/
def entry : List Turn := [.login 0 (moment 6), .login 0 (moment 7)]

/-- The account as it was when the password was checked. -/
def ann : User := ⟨"0x1", none, some "ann", some adminRole, none⟩

def turns : List Turn := check ++ demotion ++ entry

def final : Snapshot := workload.run (workload.start server) turns

theorem distinctSessions_turns : DistinctSessions turns where
  random t ht := by
    have hmoments : turns.map Turn.moment = (List.range 8).map moment := rfl
    have hm : t.moment ∈ (List.range 8).map moment := by
      rw [← hmoments]
      exact List.mem_map_of_mem ht
    obtain ⟨k, -, hk⟩ := List.mem_map.1 hm
    exact ⟨List.replicate 16 (UInt8.ofNat k), by simp, by rw [← hk]; rfl⟩
  distinct := by decide +kernel

theorem checked_ann : workload.Checked (workload.start server) check 0 ann :=
  ⟨[.login 0 (moment 0)], moment 1, [], rfl, rfl, rfl⟩

theorem final_login : final.login 0 =
    .finished (.ok (LoginStage.issued (moment 7) server.gate ann)) := rfl

theorem final_update : final.update 0 = .finished (.ok [{ ann with role := some "user" }]) := rfl

/-- The token is good for the role that the account no longer has. -/
theorem final_accepts : (final.server.gate.validate
    (LoginStage.issued (moment 7) server.gate ann).token (moment 8).second 0
      final.server.registry).1 =
    .ok (server.gate.caller "0x1" adminRole (moment 7).session) := by
  decide +kernel

/-- The session of the late login was entered after those of the user had been ended. -/
theorem interleaved_sessions_late_login :
    ∃ before m after user, turns = before ++ .login 0 m :: after ∧ user.uid = "0x1" ∧
      workload.Checked (workload.start server) before 0 user ∧
      workload.Purged (workload.start server) before 0 user.uid := by
  obtain ⟨before, m, after, user, hturns, hchecked, -, haccepted, hpurged⟩ :=
    interleaved_sessions (w := workload) (Store.sound_withAccounts _) rfl distinctSessions_turns 0 _
      final_login
  have hcaller := ((haccepted _ _ _).1 final_accepts).1
  have huid : user.uid = "0x1" := (congrArg Caller.uid hcaller).symm
  have hchanged : user.uid ∈ credentialChanges (workload.updates 0) := by
    rw [huid]
    decide
  refine ⟨before, m, after, user, hturns, huid, hchecked, ?_⟩
  exact (hpurged 0 _ final_update hchanged).2 _ _ _ final_accepts

/-- **A session that outlives a change of its account.** An administrator's password is checked, then
the account gets another role, and when all of that is done the session is entered: the token is good
for an administrator. -/
theorem stale_session_accepted :
    workload.Checked (workload.start server) check 0 ann ∧
    (workload.run (workload.start server) check).update 0 = .applying (workload.updates 0) ∧
    "0x1" ∈ credentialChanges (workload.updates 0) ∧
    (workload.run (workload.start server) (check ++ demotion)).update 0 =
      .finished (.ok [{ ann with role := some "user" }]) ∧
    final.login 0 = .finished (.ok (LoginStage.issued (moment 7) server.gate ann)) ∧
    (final.server.gate.validate (LoginStage.issued (moment 7) server.gate ann).token
      (moment 8).second 0 final.server.registry).1 =
      .ok (server.gate.caller "0x1" adminRole (moment 7).session) :=
  ⟨checked_ann, rfl, by decide, rfl, final_login, final_accepts⟩

end LateLogin

end SealedGraph
