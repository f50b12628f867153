import SealedGraph.Proofs.Http.Logins

/-!
# What logins tell about names

Whoever tries passwords for a name is told the same whether an account has the name or not, as long
as the password is wrong. There are two exceptions. Failures are counted only for names of accounts,
so that only such a name is ever locked. And a failure that is to be counted has to be told to the
registry, so that only for such a name a login can fail with the registry after the password was
checked.

* `Discloses`: two servers one of which has an account with a name and the other none.
* `guess_cases`: what both of them do with a wrong password.
* `logins_alike_unless_locked`: the answers are the same exactly as long as the name is not locked.
* `logins_told_apart`: a server that locks and a server whose registry is closed.
-/

namespace SealedGraph

theorem Store.authenticate_eq_none_of_wrong {s : Store} {name uid password : String} {a : Account}
    (h : s.accountNamed? name = some (uid, a)) (hp : password ≠ a.credential.password) :
    s.authenticate name password = none := by
  unfold authenticate
  rw [h]
  exact if_neg (by simpa [Credential.accepts] using Ne.symm hp)

theorem Store.authenticate_eq_none_of_unknown {s : Store} {name : String}
    (h : s.isKnown name = false) (password : String) : s.authenticate name password = none := by
  cases ha : s.authenticate name password with
  | none => rfl
  | some u =>
    obtain ⟨uid, _, hn, -⟩ := of_authenticate_eq_some ha
    rw [Index.contains_eq_false_iff.1 h] at hn
    cases hn

theorem Store.isKnown_of_accountNamed? {s : Store} {name uid : String} {a : Account}
    (h : s.accountNamed? name = some (uid, a)) : s.isKnown name = true :=
  Index.contains_iff.2 ⟨uid, (accountNamed?_eq_some_iff.1 h).1⟩

namespace Http

/-- The answer to a request. -/
def answer (s : Server) (v : Visit) : Response := (handle v.moment v.request s).1

/-- None of some requests is answered with the failure of the server. -/
def Answered (s : Server) (visits : List Visit) : Prop :=
  ∀ x ∈ transcript s visits, x.outcome.response.status ≠ 500

instance (s : Server) (visits : List Visit) : Decidable (Answered s visits) :=
  inferInstanceAs (Decidable (∀ x ∈ transcript s visits, x.outcome.response.status ≠ 500))

/-- The request is a login with a name and a password other than that of an account. -/
def Visit.Guesses (v : Visit) (u : String) (a : Account) : Prop :=
  ∃ password, v.request.Submits ⟨u, password⟩ ∧ password ≠ a.credential.password

/-- Two servers with one limit and one registry. On the first there is an account with the name, on
the second there is none. -/
structure Discloses (u : String) (a : Account) (s s' : Server) : Prop where
  maxFailures : s'.maxFailures = s.maxFailures
  registry : s'.registry = s.registry
  known : ∃ uid, s.store.accountNamed? u = some (uid, a)
  unknown : s'.store.isKnown u = false

theorem Discloses.locks_iff {u : String} {a : Account} {s s' : Server} (h : Discloses u a s s')
    {now : Nat} : s'.Locks u now ↔ s.Locks u now := by
  unfold Server.Locks
  rw [h.maxFailures, h.registry]

/-! ### One guess -/

section Guess

variable {s : Server} {v : Visit} {r : LoginRequest} {u : String}

theorem answer_of_submits (h : v.request.Submits r) :
    answer s v = (serve v.moment v.request s).1.response := by
  unfold answer
  rw [handle_eq_serve, if_neg (by rw [h.method]; decide)]

theorem store_of_submits (h : v.request.Submits r) :
    (serve v.moment v.request s).2.store = s.store := by
  rw [store_serve, serve_of_submits h]
  cases r.validate with
  | error e => rfl
  | ok _ => rfl

/-- **A wrong password** is refused for the lock or for itself, unless the registry fails. A failure
is entered only for a name that is known. -/
theorem guess_cases (h : v.request.Submits r) (hvalid : r.validate = .ok ())
    (wrong : s.store.authenticate r.username r.password = none)
    (hans : (serve v.moment v.request s).1.response.status ≠ 500) :
    (s.Locks r.username v.moment.instant ∧
      (serve v.moment v.request s).1 = .login r (.error .throttled) ∧
      (serve v.moment v.request s).2.registry.table = s.registry.table) ∨
    (¬ s.Locks r.username v.moment.instant ∧
      (serve v.moment v.request s).1 = .login r (.error .invalidLogin) ∧
      (serve v.moment v.request s).2.registry.table =
        if s.store.isKnown r.username then s.registry.table.noted r.username v.moment.instant
        else s.registry.table) := by
  have hserve := serve_of_submits (m := v.moment) (s := s) h
  rw [hvalid] at hserve
  rw [hserve] at hans ⊢
  have hway := login_way v.moment r s
  generalize ((login v.moment r).run s).1 = outcome at hway hans ⊢
  generalize ((login v.moment r).run s).2 = t at hway ⊢
  cases hway with
  | unavailable e l k fails => exact absurd rfl hans
  | throttled l locked follows => exact .inl ⟨locked, rfl, follows.table⟩
  | missed l open' _ known follows =>
    rw [if_pos known]
    exact .inr ⟨open', rfl, follows.table⟩
  | unknown l open' _ unknown follows =>
    rw [if_neg (by simp [unknown])]
    exact .inr ⟨open', rfl, follows.table⟩
  | welcomed user l _ right _ =>
    rw [wrong] at right
    cases right

end Guess

/-! ### Some guesses -/

section Guesses

variable {s : Server} {u : String} {a : Account} {start now : Nat} {visits : List Visit} {v : Visit}

theorem answered_concat : Answered s (visits ++ [v]) ↔
    Answered s visits ∧ (serve v.moment v.request (run s visits)).1.response.status ≠ 500 := by
  unfold Answered
  rw [transcript_concat]
  simp only [List.forall_mem_append, List.forall_mem_singleton, outcome_exchange]

theorem Ticks.not_locks (hticks : Ticks start (visits ++ [v])) (hopen : ¬ s.Locks u start) :
    ¬ s.Locks u v.moment.instant := by
  rintro ⟨hmax, hle⟩
  have hstart := (ticks_concat.1 hticks).2.1
  exact hopen ⟨hmax, Nat.le_trans hle (Registry.Table.failureCount_le_of_le hstart)⟩

theorem store_run_of_guesses (hguess : ∀ w ∈ visits, w.Guesses u a) :
    (run s visits).store = s.store := by
  induction visits using List.reverseRecOn with
  | nil => rfl
  | append_singleton vs w ih =>
    obtain ⟨p, hsub, -⟩ := hguess w (by simp)
    rw [run_concat, store_of_submits hsub]
    exact ih fun x hx => hguess x (List.mem_append_left _ hx)

/-- A name that no account can have is refused before anything is done. -/
theorem run_of_invalid {e : RequestError} (hinvalid : ∀ p, LoginRequest.validate ⟨u, p⟩ = .error e)
    (hguess : ∀ w ∈ visits, w.Guesses u a) : run s visits = s := by
  induction visits using List.reverseRecOn with
  | nil => rfl
  | append_singleton vs w ih =>
    obtain ⟨p, hsub, -⟩ := hguess w (by simp)
    rw [run_concat, serve_of_submits hsub, hinvalid p,
      ih fun x hx => hguess x (List.mem_append_left _ hx)]

/-- **Guesses at a name that nobody has** leave no trace in the registry. -/
theorem table_run_of_unknown (hvalid : ∀ p, LoginRequest.validate ⟨u, p⟩ = .ok ())
    (hunknown : s.store.isKnown u = false)
    (hguess : ∀ w ∈ visits, w.Guesses u a) (hans : Answered s visits) :
    (run s visits).registry.table = s.registry.table := by
  induction visits using List.reverseRecOn with
  | nil => rfl
  | append_singleton vs w ih =>
    obtain ⟨hansvs, hansw⟩ := answered_concat.1 hans
    obtain ⟨p, hsub, -⟩ := hguess w (by simp)
    have hguessvs : ∀ x ∈ vs, x.Guesses u a := fun x hx => hguess x (List.mem_append_left _ hx)
    have hstore : (run s vs).store = s.store := store_run_of_guesses hguessvs
    have htable := ih hguessvs hansvs
    have hunknown : (run s vs).store.isKnown u = false := by rw [hstore, hunknown]
    rw [run_concat]
    rcases guess_cases hsub (hvalid p) (Store.authenticate_eq_none_of_unknown hunknown p) hansw with
      ⟨-, -, h⟩ | ⟨-, -, h⟩
    · rw [h, htable]
    · rw [h, if_neg (by simp [hunknown]), htable]

/-- **Guesses count once each** at most. -/
theorem failureCount_run_le (hvalid : ∀ p, LoginRequest.validate ⟨u, p⟩ = .ok ())
    (hn : s.registry.table.failures.keys.Nodup) {uid : String}
    (hknown : s.store.accountNamed? u = some (uid, a)) (hticks : Ticks start visits)
    (hguess : ∀ w ∈ visits, w.Guesses u a) (hans : Answered s visits) :
    (run s visits).registry.table.failures.keys.Nodup ∧
      ∀ now, start ≤ now → (∀ w ∈ visits, w.moment.instant ≤ now) →
        (run s visits).failureCount u now ≤ s.failureCount u start + visits.length := by
  induction visits using List.reverseRecOn with
  | nil => exact ⟨hn, fun now hnow _ => Registry.Table.failureCount_le_of_le hnow⟩
  | append_singleton vs w ih =>
    obtain ⟨hansvs, hansw⟩ := answered_concat.1 hans
    obtain ⟨hticksvs, hstart, hlast⟩ := ticks_concat.1 hticks
    obtain ⟨p, hsub, hp⟩ := hguess w (by simp)
    have hguessvs : ∀ x ∈ vs, x.Guesses u a := fun x hx => hguess x (List.mem_append_left _ hx)
    have hstore : (run s vs).store = s.store := store_run_of_guesses hguessvs
    obtain ⟨hnvs, hle⟩ := ih hticksvs hguessvs hansvs
    have hknown : (run s vs).store.accountNamed? u = some (uid, a) := by rw [hstore, hknown]
    have hthen := hle w.moment.instant hstart hlast
    rw [run_concat, List.length_append, List.length_singleton]
    have hne : u ≠ "" := LoginRequest.username_ne_empty (hvalid p)
    rcases guess_cases hsub (hvalid p) (Store.authenticate_eq_none_of_wrong hknown hp) hansw with
      ⟨-, -, h⟩ | ⟨-, -, h⟩
    · refine ⟨by rw [h]; exact hnvs, fun now _ hlater => ?_⟩
      unfold Server.failureCount at hthen ⊢
      rw [h]
      have hlate := Registry.Table.failureCount_le_of_le (t := (run s vs).registry.table) (u := u)
        (hlater w (by simp))
      omega
    · have h : (serve w.moment w.request (run s vs)).2.registry.table =
          (run s vs).registry.table.noted u w.moment.instant :=
        h.trans (if_pos (Store.isKnown_of_accountNamed? hknown))
      refine ⟨by rw [h]; exact Registry.Table.nodup_keys_noted hnvs, fun now _ _ => ?_⟩
      unfold Server.failureCount at hthen ⊢
      rw [h]
      have hone : ((run s vs).registry.table.noted u w.moment.instant).failureCount u now ≤
          (run s vs).registry.table.failureCount u w.moment.instant + 1 :=
        Registry.Table.failureCount_noted_le hne hnvs
      omega

/-- **A name that nobody has** is not locked by guesses. -/
theorem not_locks_run_of_unknown (hvalid : ∀ p, LoginRequest.validate ⟨u, p⟩ = .ok ())
    (hunknown : s.store.isKnown u = false) (hopen : ¬ s.Locks u start)
    (hticks : Ticks start (visits ++ [v])) (hguess : ∀ w ∈ visits, w.Guesses u a)
    (hans : Answered s visits) : ¬ (run s visits).Locks u v.moment.instant := by
  unfold Server.Locks
  rw [fixed_run s visits fixed_maxFailures, table_run_of_unknown hvalid hunknown hguess hans]
  exact hticks.not_locks hopen

/-- **A few guesses** do not lock a name. -/
theorem not_locks_run_of_few (hvalid : ∀ p, LoginRequest.validate ⟨u, p⟩ = .ok ()) {uid : String}
    (hknown : s.store.accountNamed? u = some (uid, a)) (hticks : Ticks start (visits ++ [v]))
    (hguess : ∀ w ∈ visits, w.Guesses u a) (hans : Answered s visits)
    (hfew : s.maxFailures = 0 ∨ s.registry.table.failures.keys.Nodup ∧
      s.failureCount u start + visits.length < s.maxFailures) :
    ¬ (run s visits).Locks u v.moment.instant := by
  obtain ⟨hticksvs, hstart, hlast⟩ := ticks_concat.1 hticks
  unfold Server.Locks
  rw [fixed_run s visits fixed_maxFailures]
  rintro ⟨hmax, hle⟩
  rcases hfew with hzero | ⟨hn, hlt⟩
  · exact hmax hzero
  · have hcount := (failureCount_run_le hvalid hn hknown hticksvs hguess hans).2
      v.moment.instant hstart hlast
    unfold Server.failureCount at hcount hlt
    omega

end Guesses

/-! ### Two servers -/

/-- **Logins tell nothing of whether a name is known, unless it is locked.** Two servers get the
same requests to log in with one name, on a clock that is not set back and with passwords other than
that of the account that one of them has with this name. They answer the last one alike exactly if
the name is not locked on the first server, provided that they could answer all. If it is locked,
the first server says so, and the second says that the login is invalid. A name is not locked as
long as the failures from before and these requests together are below the limit, and never without
one. -/
theorem logins_alike_unless_locked {u : String} {a : Account} {s s' : Server}
    (h : Discloses u a s s') {start : Nat} (hopen : ¬ s.Locks u start) {visits : List Visit}
    {v : Visit} (hticks : Ticks start (visits ++ [v])) (hguess : ∀ w ∈ visits ++ [v], w.Guesses u a)
    (hans : Answered s (visits ++ [v])) (hans' : Answered s' (visits ++ [v])) :
    (answer (run s visits) v = answer (run s' visits) v ↔
        ¬ (run s visits).Locks u v.moment.instant) ∧
      ((run s visits).Locks u v.moment.instant →
        answer (run s visits) v = ⟨429, .text "too many failed login attempts"⟩ ∧
          answer (run s' visits) v = ⟨401, .text "invalid login"⟩) ∧
      (s.maxFailures = 0 ∨ s.registry.table.failures.keys.Nodup ∧
          s.failureCount u start + visits.length < s.maxFailures →
        ¬ (run s visits).Locks u v.moment.instant) := by
  obtain ⟨uid, hknown⟩ := h.known
  obtain ⟨p, hsub, hp⟩ := hguess v (by simp)
  have hguessvs : ∀ w ∈ visits, w.Guesses u a := fun w hw => hguess w (List.mem_append_left _ hw)
  obtain ⟨hansvs, hansv⟩ := answered_concat.1 hans
  obtain ⟨hansvs', hansv'⟩ := answered_concat.1 hans'
  rw [answer_of_submits hsub, answer_of_submits hsub]
  cases hv : LoginRequest.validate ⟨u, ""⟩ with
  | error e =>
    have hinvalid : ∀ p, LoginRequest.validate ⟨u, p⟩ = .error e := fun _ => hv
    have hnot := hticks.not_locks hopen
    rw [run_of_invalid hinvalid hguessvs, run_of_invalid hinvalid hguessvs, serve_of_submits hsub,
      serve_of_submits hsub, hinvalid p]
    exact ⟨⟨fun _ => hnot, fun _ => rfl⟩, fun hlock => absurd hlock hnot, fun _ => hnot⟩
  | ok _ =>
    have hvalid : ∀ p, LoginRequest.validate ⟨u, p⟩ = .ok () := fun _ => hv
    have hknown' : (run s visits).store.accountNamed? u = some (uid, a) := by
      rw [store_run_of_guesses hguessvs, hknown]
    have hunknown' : (run s' visits).store.isKnown u = false := by
      rw [store_run_of_guesses hguessvs, h.unknown]
    -- The second server never locks the name, since nothing is ever entered for it there.
    have hnot' : ¬ (run s' visits).Locks u v.moment.instant :=
      not_locks_run_of_unknown hvalid h.unknown (mt h.locks_iff.1 hopen) hticks hguessvs hansvs'
    have hfew := not_locks_run_of_few hvalid hknown hticks hguessvs hansvs
    rcases guess_cases hsub (hvalid p) (Store.authenticate_eq_none_of_unknown hunknown' p) hansv'
      with ⟨hlock, -⟩ | ⟨-, ho', -⟩
    · exact absurd hlock hnot'
    rcases guess_cases hsub (hvalid p) (Store.authenticate_eq_none_of_wrong hknown' hp) hansv with
      ⟨hlock, ho, -⟩ | ⟨hlock, ho, -⟩
    · rw [ho, ho']
      refine ⟨⟨fun e => ?_, fun hnot => absurd hlock hnot⟩, fun _ => ⟨rfl, rfl⟩, hfew⟩
      have hstatus : 429 = 401 := congrArg Response.status e
      exact absurd hstatus (by decide)
    · rw [ho, ho']
      exact ⟨⟨fun _ => hlock, fun _ => rfl⟩, fun hyes => absurd hyes hlock, hfew⟩

/-! ### Twins -/

namespace Twins

/-- The account of one of the two. -/
def ann : Account := ⟨"ann", "user", none, ⟨"secret"⟩, [], []⟩

/-- A server with a limit that has the account; its registry may be closed. -/
def server (limit : Nat) (closed : Bool) : Server where
  gate := ⟨⟨[3], List.cons_ne_nil 3 []⟩, 3600⟩
  maxFailures := limit
  store := ⟨1, ∅, Index.empty.insert "0x1" ann, Index.empty.insert "ann" "0x1"⟩
  registry := ⟨.empty 1000, closed, []⟩
  metrics := .empty

/-- A server without its accounts. -/
def without (s : Server) : Server :=
  { s with store := { s.store with accounts := ∅, usernames := ∅ } }

/-- A wrong password. -/
def request : Request := ⟨.post, "/auth/login", none, some "application/json",
  "\x7b\"username\":\"ann\",\"password\":\"sesame\"\x7d"⟩

/-- A wrong password at a time. -/
def guess (instant : Nat) : Visit := ⟨⟨⟨0, 0⟩, instant, "s", "g"⟩, request⟩

theorem discloses (limit : Nat) (closed : Bool) :
    Discloses "ann" ann (server limit closed) (without (server limit closed)) where
  maxFailures := rfl
  registry := rfl
  known := ⟨"0x1", by simp [server, Store.accountNamed?]⟩
  unknown := rfl

theorem submits_request : request.Submits ⟨"ann", "sesame"⟩ where
  resource := by decide
  method := rfl
  body := by decide +kernel

theorem guesses (instant : Nat) : (guess instant).Guesses "ann" ann :=
  ⟨"sesame", submits_request, by decide⟩

theorem answered_server : Answered (server 2 false) [guess 0, guess 1] := by decide +kernel

theorem answered_without : Answered (without (server 2 false)) [guess 0, guess 1] := by
  decide +kernel

end Twins

/-- With a limit of two the second guess is answered alike. -/
theorem logins_alike_unless_locked_second_guess :
    answer (run (Twins.server 2 false) [Twins.guess 0]) (Twins.guess 1) =
      answer (run (Twins.without (Twins.server 2 false)) [Twins.guess 0]) (Twins.guess 1) := by
  have hopen : ¬ (Twins.server 2 false).Locks "ann" 0 := by decide
  have hticks : Ticks 0 ([Twins.guess 0] ++ [Twins.guess 1]) := by decide
  have hguess : ∀ w ∈ [Twins.guess 0] ++ [Twins.guess 1], w.Guesses "ann" Twins.ann := by
    intro w hw
    rcases List.mem_pair.1 hw with rfl | rfl
    · exact Twins.guesses 0
    · exact Twins.guesses 1
  obtain ⟨hiff, -, hfew⟩ := logins_alike_unless_locked (Twins.discloses 2 false) hopen hticks hguess
    Twins.answered_server Twins.answered_without
  exact hiff.2 (hfew (.inr ⟨by decide, by decide⟩))

/-- **Logins do tell who is known.** With a limit of one, the second wrong password for a name that
is known is told that the name is locked. Without a limit, a closed registry fails only the one for
the name that is known. -/
theorem logins_told_apart :
    (Discloses "ann" Twins.ann (Twins.server 1 false) (Twins.without (Twins.server 1 false)) ∧
      ¬ (Twins.server 1 false).Locks "ann" 0 ∧ (Twins.server 1 false).registry.isResponsive = true ∧
      (Twins.guess 0).Guesses "ann" Twins.ann ∧ (Twins.guess 1).Guesses "ann" Twins.ann ∧
      answer (run (Twins.server 1 false) [Twins.guess 0]) (Twins.guess 1) ≠
        answer (run (Twins.without (Twins.server 1 false)) [Twins.guess 0]) (Twins.guess 1)) ∧
    (Discloses "ann" Twins.ann (Twins.server 0 true) (Twins.without (Twins.server 0 true)) ∧
      ¬ (Twins.server 0 true).Locks "ann" 0 ∧ (Twins.guess 0).Guesses "ann" Twins.ann ∧
      answer (Twins.server 0 true) (Twins.guess 0) ≠
        answer (Twins.without (Twins.server 0 true)) (Twins.guess 0)) := by
  have hlocked : (answer (run (Twins.server 1 false) [Twins.guess 0]) (Twins.guess 1)).status ≠
      (answer (run (Twins.without (Twins.server 1 false)) [Twins.guess 0])
        (Twins.guess 1)).status := by
    decide +kernel
  have hclosed : (answer (Twins.server 0 true) (Twins.guess 0)).status ≠
      (answer (Twins.without (Twins.server 0 true)) (Twins.guess 0)).status := by
    decide +kernel
  exact ⟨⟨Twins.discloses 1 false, by decide, rfl, Twins.guesses 0, Twins.guesses 1,
      fun e => hlocked (congrArg Response.status e)⟩,
    Twins.discloses 0 true, by decide, Twins.guesses 0,
    fun e => hclosed (congrArg Response.status e)⟩

end Http

end SealedGraph
