import SealedGraph.Access.Session
import SealedGraph.Access.Visibility
import SealedGraph.Request.Error
import SealedGraph.Store.Basic

/-!
# The server

The store, the registry and the counters of one server, and work on them that may be refused. What
the world adds to a request, the time and fresh names, comes in as a value, so that the same
request in the same state and at the same moment always has the same answer.
-/

namespace SealedGraph

/-- What the server counts. -/
inductive Counter
  | referencesDenied
  /-- sessions that were not let in, by the reason -/
  | sessionsRejected (reason : String)
  | nodesHidden
  | sessionsIssued
  | loginFailures
  | accountsCreated
  deriving DecidableEq, Repr

/-- The name of a counter, and its label behind a slash. -/
def Counter.name : Counter → String
  | .referencesDenied => "cogged_references_denied_total"
  | .sessionsRejected reason => "cogged_sessions_rejected_total/reason=" ++ reason
  | .nodesHidden => "cogged_nodes_hidden_total"
  | .sessionsIssued => "cogged_sessions_issued_total"
  | .loginFailures => "cogged_login_failures_total"
  | .accountsCreated => "cogged_users_created_total"

/-- The counters that are not zero, in the order in which they were first raised. -/
structure Metrics where
  counts : List (Counter × Nat)
  deriving DecidableEq, Repr

namespace Metrics

/-- Nothing counted. -/
def empty : Metrics := ⟨[]⟩

/-- The value of a counter. -/
def get (m : Metrics) (c : Counter) : Nat := (m.counts.lookup c).getD 0

/-- The counts with `n` added to one of them. -/
def addTo (c : Counter) (n : Nat) : List (Counter × Nat) → List (Counter × Nat)
  | [] => [(c, n)]
  | e :: es => if e.1 = c then (c, e.2 + n) :: es else e :: addTo c n es

/-- The metrics with a counter raised by `n`. -/
def add (m : Metrics) (c : Counter) (n : Nat) : Metrics :=
  if n = 0 then m else ⟨addTo c n m.counts⟩

end Metrics

/-- What the world adds to a request. -/
structure Moment where
  /-- the time on the clock -/
  clock : Timestamp
  /-- the time that has passed, in milliseconds, on a clock that is never set -/
  instant : Nat
  /-- an id for a new session -/
  session : String
  /-- an id for a new group -/
  group : String
  deriving DecidableEq, Repr

/-- The second on the clock. -/
def Moment.second (m : Moment) : Int64 := Int64.ofInt m.clock.seconds

/-- A server. -/
structure Server where
  gate : Gate
  /-- after how many failures the logins with a username are refused; zero for never -/
  maxFailures : Nat
  store : Store
  registry : Registry.Link
  metrics : Metrics
  deriving DecidableEq

/-- Why the server does not do what a request asks. -/
inductive ServiceError
  | access (error : AccessError)
  | request (error : RequestError)
  | store (error : StoreError)
  /-- there is no user whom the caller may see -/
  | userNotFound
  /-- a login with a wrong name or password -/
  | invalidLogin
  /-- a login with a name whose logins failed too often -/
  | throttled
  deriving DecidableEq, Repr

/-- Work on a server. -/
abbrev Service (α : Type) := Attempt Server ServiceError α

namespace Service

variable {α : Type}

/-- Raises a counter. -/
def count (c : Counter) (n : Nat) : Service Unit :=
  .change fun s => { s with metrics := s.metrics.add c n }

/-- Work that asks the registry. -/
def inquire (x : Inquiry α) : Service α :=
  x.within Server.registry (fun r s => { s with registry := r }) fun e => .access (.unavailable e)

/-- One call to the registry. -/
def call {k : Registry.Kind} (m : Moment) (op : Registry.Operation k) : Service k.Value :=
  inquire (ask m.instant op)

/-- An operation on the store. -/
def onStore (f : Store → Except StoreError α × Store) : Service α :=
  (Attempt.of f).within Server.store (fun t s => { s with store := t }) .store

/-- A request that is bound to a caller; a denied reference is counted. -/
def bound (outcome : Except RequestError α) : Service α :=
  match outcome with
  | .ok a => return a
  | .error e => do
    if e.isDenial then count .referencesDenied 1
    .fail (.request e)

/-- The caller whom a header lets in; whoever has to log in again is counted. -/
def authenticate (m : Moment) (header : Option String) : Service Caller := fun s =>
  match s.gate.authenticate header m.second m.instant s.registry with
  | (.ok c, r) => (.ok c, { s with registry := r })
  | (.error e, r) =>
    let s := { s with registry := r }
    if e.needsLogin then
      (.error (.access e), { s with metrics := s.metrics.add (.sessionsRejected e.reason) 1 })
    else (.error (.access e), s)

/-- The nodes of an answer that the caller may see; the others are counted. -/
def pack (m : Moment) (c : Caller) (nodes : List Node) : Service (List Node) := do
  let (shown, hidden) ← inquire (c.pack m.instant nodes)
  count .nodesHidden hidden
  return shown

end Service

end SealedGraph
