import SealedGraph.Registry.Table
import SealedGraph.Time.Duration

/-!
# Operations of the registry

What the registry can be asked to do, what each operation answers, and how a call can fail. Three of
them are not waited for: their callers go on as soon as the registry has the message.
-/

namespace SealedGraph.Registry

/-- Why the registry did not do what a call asked, as far as the caller knows. -/
inductive Error
  | closed
  /-- there was no answer within these milliseconds -/
  | timeout (millis : Nat)
  deriving DecidableEq, Repr

/-- The text of an error. -/
def Error.message : Error → String
  | .closed => "authorization registry is closed"
  | .timeout millis =>
    "authorization registry did not answer within " ++ String.ofList (Duration.text millis)

/-- What the answer to an operation is. -/
inductive Kind
  | flag
  | count
  | done
  deriving DecidableEq, Repr

/-- The answers of a kind. -/
abbrev Kind.Value : Kind → Type
  | .flag => Bool
  | .count => Nat
  | .done => Unit

/-- An operation with the kind of its answer. -/
inductive Operation : Kind → Type
  | hasSession (uid session : String) : Operation .flag
  | addSession (uid session : String) : Operation .done
  | deleteSession (uid session : String) : Operation .flag
  | purgeSessions (uid : String) : Operation .count
  | hasGroup (uid group : String) : Operation .flag
  | allow (uid list : String) : Operation .done
  | revoke (uid list : String) : Operation .done
  | recordFailure (username : String) : Operation .count
  | failureCount (username : String) : Operation .count
  | resetFailures (username : String) : Operation .done
  deriving Repr

namespace Operation

/-- Whether a caller waits until the operation is done. -/
def isAwaited : {k : Kind} → Operation k → Bool
  | _, .addSession _ _ => false
  | _, .revoke _ _ => false
  | _, .resetFailures _ => false
  | _, _ => true

/-- The answer of an operation done at a time, and the table after it. A failure is recorded after
all that no longer count are dropped. -/
def apply (now : Nat) : {k : Kind} → Operation k → Table → k.Value × Table
  | _, .hasSession uid session, t => (t.hasSession uid session, t)
  | _, .addSession uid session, t => ((), t.addSession uid session)
  | _, .deleteSession uid session, t => (true, t.deleteSession uid session)
  | _, .purgeSessions uid, t => (t.sessionsOf uid, t.purgeSessions uid)
  | _, .hasGroup uid group, t => (t.hasGroup uid group, t)
  | _, .allow uid list, t => ((), t.allow uid list)
  | _, .revoke uid list, t => ((), t.revoke uid list)
  | _, .recordFailure username, t =>
    let t := t.prune now
    (t.nextCount username now, t.recordFailure username now)
  | _, .failureCount username, t => (t.failureCount username now, t)
  | _, .resetFailures username, t => ((), t.resetFailures username)

end Operation

/-- How a registry is set up. -/
structure Settings where
  /-- the number of messages that can wait; one at least can -/
  capacity : Nat
  /-- how long a call waits, in milliseconds -/
  timeout : Nat
  /-- after how many seconds a failed login no longer counts -/
  window : Nat
  deriving DecidableEq, Repr

/-- The settings unless something else is said. -/
def Settings.default : Settings := ⟨1024, 5000, 300⟩

/-- The table of a registry that is just set up. -/
def Settings.table (s : Settings) : Table := .empty (s.window * 1000)

end SealedGraph.Registry
