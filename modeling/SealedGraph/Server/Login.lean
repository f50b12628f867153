import SealedGraph.Request.Account
import SealedGraph.Server.Basic

/-!
# Logins

A login in the steps between which other requests may be served: the failures with the name are
counted, name and password are checked, a success clears the failures and a new session is entered,
a failure is entered if the name is one that exists. The token names the account and the role as
they were when the password was checked.
-/

namespace SealedGraph

/-- A session that was just issued. -/
structure IssuedSession where
  token : String
  /-- seconds until the session is too old -/
  expires : Nat
  deriving DecidableEq, Repr

/-- How far a login has come. -/
inductive LoginStage
  /-- the failures are to be counted -/
  | counting
  /-- name and password are to be checked -/
  | checking
  /-- a failure is to be entered -/
  | noting
  /-- the failures are to be cleared for a user -/
  | clearing (user : User)
  /-- a session is to be entered for a user -/
  | issuing (user : User)
  | finished (outcome : Except ServiceError IssuedSession)

namespace LoginStage

/-- The stage after a call to the registry: the given one, unless the call failed. -/
def afterCall {k : Registry.Kind} (m : Moment) (op : Registry.Operation k)
    (next : k.Value → LoginStage) (s : Server) : LoginStage × Server :=
  match (Service.call m op).run s with
  | (.ok v, s) => (next v, s)
  | (.error e, s) => (.finished (.error e), s)

/-- The claims of a new session of a user. -/
def claims (m : Moment) (user : User) : SessionDescriptor :=
  ⟨user.uid, user.role.getD "", m.session, m.second⟩

/-- The session as it is handed out. -/
def issued (m : Moment) (g : Gate) (user : User) : IssuedSession :=
  ⟨(claims m user).pack g.master.bytes, g.ttl⟩

/-- The next step of a login. -/
def advance (m : Moment) (r : LoginRequest) : LoginStage → Server → LoginStage × Server
  | .counting, s =>
    if s.maxFailures = 0 then (.checking, s)
    else
      afterCall m (.failureCount r.username)
        (fun n => if s.maxFailures ≤ n then .finished (.error .throttled) else .checking) s
  | .checking, s =>
    match s.store.authenticate r.username r.password with
    | some user => (.clearing user, s)
    | none =>
      let s' := { s with metrics := s.metrics.add .loginFailures 1 }
      if s.store.isKnown r.username then (.noting, s')
      else (.finished (.error .invalidLogin), s')
  | .noting, s =>
    afterCall m (.recordFailure r.username) (fun _ => .finished (.error .invalidLogin)) s
  | .clearing user, s => afterCall m (.resetFailures r.username) (fun _ => .issuing user) s
  | .issuing user, s =>
    let (stage, s) := afterCall m (.addSession user.uid m.session)
      (fun _ => .finished (.ok (issued m s.gate user))) s
    match stage with
    | .finished (.ok _) => (stage, { s with metrics := s.metrics.add .sessionsIssued 1 })
    | _ => (stage, s)
  | .finished outcome, s => (.finished outcome, s)

/-- The outcome of a login that is over. -/
def outcome? : LoginStage → Option (Except ServiceError IssuedSession)
  | .finished outcome => some outcome
  | _ => none

/-- The most steps that a login takes. -/
def maxSteps : Nat := 4

/-- A login in one go, from a stage on. -/
def run (m : Moment) (r : LoginRequest) : Nat → LoginStage → Server → LoginStage × Server
  | 0, stage, s => (stage, s)
  | n + 1, stage, s =>
    let (stage, s) := advance m r stage s
    run m r n stage s

end LoginStage

/-- A login in one go. -/
def login (m : Moment) (r : LoginRequest) : Service IssuedSession := fun s =>
  let (stage, s) := LoginStage.run m r LoginStage.maxSteps .counting s
  (stage.outcome?.getD (.error .invalidLogin), s)

end SealedGraph
