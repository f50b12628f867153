import SealedGraph.Proofs.Registry.Failures
import SealedGraph.Proofs.Server.Calm

/-!
# The ways of a login

A login asks the registry up to three times, and each of these calls may fail. What it comes to, and
what is left of the server, is said here once for all of them.

* `LoginWay`: how a login can go, with the table of the registry after it.
* `login_way`: every login goes one of these ways.
-/

namespace SealedGraph

open Attempt
open Registry (Link Operation Table)

/-! ### Calls -/

namespace Registry.Link

/-- The link has the table, and answers if the one before it did. -/
structure Follows (l : Link) (table : Table) (l' : Link) : Prop where
  table : l'.table = table
  responsive : l.isResponsive = true → l'.isResponsive = true

theorem Follows.refl (l : Link) : l.Follows l.table l := ⟨rfl, id⟩

theorem Follows.trans {l l' l'' : Link} {table table' : Table} (h : l.Follows table l')
    (h' : l'.Follows table' l'') : l.Follows table' l'' :=
  ⟨h'.table, fun hr => h'.responsive (h.responsive hr)⟩

end Registry.Link

/-- **A call is answered**, and then it has been done, **or the registry fails**. -/
theorem Service.call_cases {k : Registry.Kind} (m : Moment) (op : Operation k) (s : Server) :
    (∃ l, (call m op).run s =
        (.ok (op.apply m.instant s.registry.table).1, { s with registry := l }) ∧
      s.registry.Follows (op.apply m.instant s.registry.table).2 l) ∨
    (s.registry.isResponsive = false ∧
      ∃ e l, (call m op).run s = (.error (.access (.unavailable e)), { s with registry := l })) := by
  have hrun : (call m op).run s =
      match s.registry.call m.instant op with
      | (.ok v, l) => (.ok v, { s with registry := l })
      | (.error e, l) => (.error (.access (.unavailable e)), { s with registry := l }) := by
    unfold call inquire ask
    rw [run_within, run_of]
    rcases s.registry.call m.instant op with ⟨_ | _, _⟩
    · rfl
    · rfl
  rw [hrun]
  rcases hc : s.registry.call m.instant op with ⟨e | v, l⟩
  · refine .inr ⟨Bool.eq_false_iff.2 fun hr => ?_, e, l, rfl⟩
    obtain ⟨l', hl, -⟩ := Link.call_of_isResponsive hr m.instant op
    rw [hc] at hl
    cases hl
  · obtain ⟨rfl, ht⟩ := Link.of_call_eq_ok hc
    refine .inl ⟨l, rfl, ht, fun hr => ?_⟩
    obtain ⟨l', hl, -, hr'⟩ := Link.call_of_isResponsive hr m.instant op
    rw [hc] at hl
    cases hl
    exact hr'

/-! ### Logins -/

/-- Logins with a name are refused at a time: as many failures with it count as the limit says. -/
def Server.Locks (s : Server) (username : String) (instant : Nat) : Prop :=
  s.maxFailures ≠ 0 ∧ s.maxFailures ≤ s.registry.table.failureCount username instant

instance (s : Server) (username : String) (instant : Nat) : Decidable (s.Locks username instant) :=
  inferInstanceAs (Decidable (_ ∧ _))

/-- How a login can go, with its outcome and the server after it. -/
inductive LoginWay (m : Moment) (r : LoginRequest) (s : Server) :
    Except ServiceError IssuedSession → Server → Prop
  /-- the registry fails -/
  | unavailable (error : Registry.Error) (l : Link) (k : Metrics)
    (fails : s.registry.isResponsive = false) :
    LoginWay m r s (.error (.access (.unavailable error))) { s with registry := l, metrics := k }
  /-- too many failures count, and nobody looks at the password -/
  | throttled (l : Link) (locked : s.Locks r.username m.instant)
    (follows : s.registry.Follows s.registry.table l) :
    LoginWay m r s (.error .throttled) { s with registry := l }
  /-- the name is known and the password is wrong -/
  | missed (l : Link) (open' : ¬ s.Locks r.username m.instant)
    (wrong : s.store.authenticate r.username r.password = none)
    (known : s.store.isKnown r.username = true)
    (follows : s.registry.Follows (s.registry.table.noted r.username m.instant) l) :
    LoginWay m r s (.error .invalidLogin)
      { s with registry := l, metrics := s.metrics.add .loginFailures 1 }
  /-- nobody is known by the name -/
  | unknown (l : Link) (open' : ¬ s.Locks r.username m.instant)
    (wrong : s.store.authenticate r.username r.password = none)
    (unknown : s.store.isKnown r.username = false)
    (follows : s.registry.Follows s.registry.table l) :
    LoginWay m r s (.error .invalidLogin)
      { s with registry := l, metrics := s.metrics.add .loginFailures 1 }
  /-- name and password are those of a user -/
  | welcomed (user : User) (l : Link) (open' : ¬ s.Locks r.username m.instant)
    (right : s.store.authenticate r.username r.password = some user)
    (follows : s.registry.Follows
      ((s.registry.table.resetFailures r.username).addSession user.uid m.session) l) :
    LoginWay m r s (.ok (LoginStage.issued m s.gate user))
      { s with registry := l, metrics := s.metrics.add .sessionsIssued 1 }

namespace LoginStage

variable {m : Moment} {r : LoginRequest} {s : Server}

theorem run_succ (n : Nat) (stage : LoginStage) (s : Server) :
    run m r (n + 1) stage s = run m r n (advance m r stage s).1 (advance m r stage s).2 := rfl

theorem run_finished (n : Nat) (outcome : Except ServiceError IssuedSession) (s : Server) :
    run m r n (.finished outcome) s = (.finished outcome, s) := by
  induction n with
  | zero => rfl
  | succ n ih => exact ih

theorem afterCall_cases {k : Registry.Kind} (op : Operation k) (next : k.Value → LoginStage)
    (s : Server) :
    (∃ l, afterCall m op next s =
        (next (op.apply m.instant s.registry.table).1, { s with registry := l }) ∧
      s.registry.Follows (op.apply m.instant s.registry.table).2 l) ∨
    (s.registry.isResponsive = false ∧ ∃ e l, afterCall m op next s =
      (.finished (.error (.access (.unavailable e))), { s with registry := l })) := by
  unfold afterCall
  rcases Service.call_cases m op s with ⟨l, hl, hf⟩ | ⟨hr, e, l, hl⟩
  · rw [hl]
    exact .inl ⟨l, rfl, hf⟩
  · rw [hl]
    exact .inr ⟨hr, e, l, rfl⟩

theorem afterCall_of_isResponsive {k : Registry.Kind} (hr : s.registry.isResponsive = true)
    (op : Operation k) (next : k.Value → LoginStage) :
    ∃ l, afterCall m op next s =
        (next (op.apply m.instant s.registry.table).1, { s with registry := l }) ∧
      l.table = (op.apply m.instant s.registry.table).2 ∧ l.isResponsive = true := by
  rcases afterCall_cases (m := m) op next s with ⟨l, hl, hf⟩ | ⟨hno, -⟩
  · exact ⟨l, hl, hf.table, hf.responsive hr⟩
  · rw [hr] at hno
    cases hno

/-- The login goes one of the ways from a stage on, and is over after some steps. -/
def Ends (m : Moment) (r : LoginRequest) (s : Server) (n : Nat) (stage : LoginStage) (t : Server) :
    Prop :=
  ∃ outcome u, run m r n stage t = (.finished outcome, u) ∧ LoginWay m r s outcome u

theorem Ends.of_advance {n : Nat} {stage : LoginStage} {t : Server} (stage' : LoginStage)
    (t' : Server) (h : advance m r stage t = (stage', t')) (he : Ends m r s n stage' t') :
    Ends m r s (n + 1) stage t := by
  obtain ⟨outcome, u, hrun, hway⟩ := he
  refine ⟨outcome, u, ?_, hway⟩
  rw [run_succ, h]
  exact hrun

theorem Ends.of_way {n : Nat} {outcome : Except ServiceError IssuedSession} {t : Server}
    (h : LoginWay m r s outcome t) : Ends m r s n (.finished outcome) t :=
  ⟨outcome, t, run_finished n outcome t, h⟩

section Stages

variable {l : Link} (open' : ¬ s.Locks r.username m.instant)

include open'

theorem ends_issuing {user : User}
    (right : s.store.authenticate r.username r.password = some user)
    (hl : s.registry.Follows (s.registry.table.resetFailures r.username) l) (n : Nat) :
    Ends m r s (n + 1) (.issuing user) { s with registry := l } := by
  rcases afterCall_cases (m := m) (.addSession user.uid m.session)
    (fun _ => .finished (.ok (issued m s.gate user))) { s with registry := l } with
    ⟨l', h, hf⟩ | ⟨hr, e, l', h⟩
  · refine .of_advance (.finished (.ok (issued m s.gate user)))
      { s with registry := l', metrics := s.metrics.add .sessionsIssued 1 } ?_ (.of_way ?_)
    · simp only [advance, h]
    · have ht : ({ s with registry := l } : Server).registry.table =
          s.registry.table.resetFailures r.username := hl.table
      rw [ht] at hf
      exact .welcomed user l' open' right (hl.trans hf)
  · refine .of_advance (.finished (.error (.access (.unavailable e)))) { s with registry := l' } ?_
      (.of_way ?_)
    · simp only [advance, h]
    · exact .unavailable e l' s.metrics (Bool.eq_false_iff.2 fun h =>
        Bool.eq_false_iff.1 hr (hl.responsive h))

theorem ends_checking (hl : s.registry.Follows s.registry.table l) (n : Nat) :
    Ends m r s (n + 3) .checking { s with registry := l } := by
  have hfails : l.isResponsive = false → s.registry.isResponsive = false := fun hr =>
    Bool.eq_false_iff.2 fun h => Bool.eq_false_iff.1 hr (hl.responsive h)
  cases hauth : s.store.authenticate r.username r.password with
  | some user =>
    refine .of_advance (.clearing user) { s with registry := l } ?_ ?_
    · simp only [advance, hauth]
    rcases afterCall_cases (m := m) (.resetFailures r.username) (fun _ => .issuing user)
      { s with registry := l } with ⟨l', h, hf⟩ | ⟨hr, e, l', h⟩
    · have ht : ({ s with registry := l } : Server).registry.table = s.registry.table := hl.table
      rw [ht] at hf
      exact .of_advance _ _ h (ends_issuing open' hauth (hl.trans hf) n)
    · exact .of_advance _ _ h (.of_way (.unavailable e l' s.metrics (hfails hr)))
  | none =>
    cases hknown : s.store.isKnown r.username with
    | true =>
      refine .of_advance .noting
        { s with registry := l, metrics := s.metrics.add .loginFailures 1 } ?_ ?_
      · simp only [advance, hauth, hknown, if_true]
      rcases afterCall_cases (m := m) (.recordFailure r.username)
        (fun _ => .finished (.error .invalidLogin))
        { s with registry := l, metrics := s.metrics.add .loginFailures 1 } with
        ⟨l', h, hf⟩ | ⟨hr, e, l', h⟩
      · have ht : ({ s with registry := l, metrics := s.metrics.add .loginFailures 1 } :
            Server).registry.table = s.registry.table := hl.table
        rw [ht] at hf
        exact .of_advance _ _ h (.of_way (.missed l' open' hauth hknown (hl.trans hf)))
      · exact .of_advance _ _ h (.of_way (.unavailable e l' _ (hfails hr)))
    | false =>
      refine .of_advance (.finished (.error .invalidLogin))
        { s with registry := l, metrics := s.metrics.add .loginFailures 1 } ?_ (.of_way ?_)
      · simp [advance, hauth, hknown]
      · exact .unknown l open' hauth hknown hl

end Stages

theorem ends_counting (s : Server) : Ends m r s maxSteps .counting s := by
  unfold maxSteps
  by_cases hmax : s.maxFailures = 0
  · refine .of_advance .checking s ?_ ?_
    · simp only [advance, if_pos hmax]
    · exact ends_checking (l := s.registry) (fun h => h.1 hmax) (.refl _) 0
  · rcases afterCall_cases (m := m) (.failureCount r.username)
      (fun n => if s.maxFailures ≤ n then .finished (.error .throttled) else .checking) s with
      ⟨l, h, hf⟩ | ⟨hr, e, l, h⟩
    · by_cases hlimit : s.maxFailures ≤ s.registry.table.failureCount r.username m.instant
      · refine .of_advance (.finished (.error .throttled)) { s with registry := l } ?_
          (.of_way (.throttled l ⟨hmax, hlimit⟩ hf))
        simp only [advance, if_neg hmax, h]
        exact congrArg (·, _) (if_pos hlimit)
      · refine .of_advance .checking { s with registry := l } ?_
          (ends_checking (fun h => hlimit h.2) hf 0)
        simp only [advance, if_neg hmax, h]
        exact congrArg (·, _) (if_neg hlimit)
    · refine .of_advance (.finished (.error (.access (.unavailable e)))) { s with registry := l } ?_
        (.of_way (.unavailable e l s.metrics hr))
      simp only [advance, if_neg hmax, h]

end LoginStage

/-- **Every login goes one of the ways**, and is over after them. -/
theorem login_way (m : Moment) (r : LoginRequest) (s : Server) :
    LoginWay m r s ((login m r).run s).1 ((login m r).run s).2 := by
  obtain ⟨outcome, t, hrun, hway⟩ := LoginStage.ends_counting (m := m) (r := r) s
  have hlogin : (login m r).run s = (outcome, t) := by
    unfold login run
    simp only [hrun]
    rfl
  rw [hlogin]
  exact hway

end SealedGraph
