import SealedGraph.Request.Account
import SealedGraph.Request.Graph
import SealedGraph.Server.Accounts
import SealedGraph.Server.Login
import SealedGraph.Store.Accounts
import SealedGraph.Store.Query
import SealedGraph.Store.Share
import SealedGraph.Store.Update

/-!
# Calls

What a caller with a session can ask of the server, and the answers. Every call is first bound to
the caller, then put to the store, and what comes back goes through the filter: a caller learns
nothing of nodes that are hidden, and every node is handed out with a token for this caller alone.
-/

namespace SealedGraph

/-- What a caller asks. -/
inductive Call
  | check
  | logout
  | logoutEverywhere
  | query (request : QueryRequest)
  | update (request : UpdateRequest)
  | create (request : CreateRequest)
  | addEdges (request : EdgesRequest)
  | removeEdges (request : EdgesRequest)
  | createRoot (request : RootRequest)
  /-- the nodes with a relation to the caller, which is given by its name -/
  | list (relation : String)
  | share (request : ShareRequest)
  | unshare (request : ShareRequest)
  | userByName (username : String)
  | userByUid (uid : String)
  | createAccount (request : AccountRequest)
  | updateAccounts (request : AccountsRequest)

/-- An answer about nodes. -/
structure GraphAnswer where
  nodes : List Node
  /-- new nodes, each with the placeholder that the caller chose -/
  created : List (String × Node)
  time : Timestamp
  deriving DecidableEq, Repr

/-- What a caller is answered. -/
inductive Answer
  | ok
  /-- the number of sessions that were ended -/
  | ended (sessions : Nat)
  | graph (answer : GraphAnswer)
  | user (user : User)
  | users (users : List User)
  deriving DecidableEq, Repr

namespace Call

/-- The answer that only says when it was given. -/
def doneAt (m : Moment) : Answer := .graph ⟨[], [], m.clock⟩

/-- An answer with those of some nodes that the caller may see. -/
def shown (m : Moment) (c : Caller) (nodes : List Node) : Service Answer := do
  return .graph ⟨← Service.pack m c nodes, [], m.clock⟩

/-- An answer with new nodes, which are the caller's own. -/
def made (m : Moment) (c : Caller) (created : List (String × Node)) : Answer :=
  .graph ⟨[], created.map fun (placeholder, n) => (placeholder, n.stamp c.key), m.clock⟩

/-- An answer with a user, if the caller may see it: administrators are shown to each other only. -/
def visibleUser (c : Caller) (user : Option User) : Service Answer :=
  match user with
  | some u =>
    if c.isAdmin || u.role ≠ some adminRole then return .user (u.stamp c.key)
    else .fail .userNotFound
  | none => .fail .userNotFound

/-- Does the same for each recipient of a share in turn. -/
def forEach (work : String → Inquiry Nat) : List String → Service Unit
  | [] => return ()
  | recipient :: recipients => do
    let _ ← Service.inquire (work recipient)
    forEach work recipients

/-- Changes what is shared with some users, and then what they may see. The two steps are not one:
if the registry fails in the second, the first stays done. -/
def changeShare (m : Moment) (c : Caller) (change : ShareChange) (request : ShareRequest) :
    Service Answer := do
  let r ← Service.bound (request.bind c)
  let members ← Service.onStore fun t => t.share change r.nodes r.users
  let work := match change with
    | .add => fun recipient => c.grant m.instant recipient members
    | .remove => fun recipient => c.withdraw m.instant recipient members
  forEach work r.users
  return doneAt m

/-- Answers a call. -/
def perform (m : Moment) (c : Caller) : Call → Service Answer
  | .check => return .ok
  | .logout => do
    let _ ← Service.call m (.deleteSession c.uid c.session)
    return .ok
  | .logoutEverywhere => return .ended (← Service.call m (.purgeSessions c.uid))
  | .query request => do
    let q ← Service.bound (request.bind c)
    if q.rootQuery.isSome then Attempt.fail (.request (.invalid .rootQuery))
    else
      let s ← Attempt.state
      shown m c (if q.roots.isEmpty then [] else s.store.query q.roots q.depth)
  | .update request => do
    let nodes ← Service.bound (request.bind c)
    shown m c (← Service.onStore fun t => t.update m.clock nodes)
  | .create request => do
    let r ← Service.bound (request.bind c)
    return made m c (← Service.onStore fun t =>
      t.create m.clock m.group c.uid (some r.parent) r.nodes)
  | .createRoot request => do
    let n ← Service.bound (request.bind c)
    return made m c (← Service.onStore fun t => t.create m.clock m.group c.uid none [n])
  | .addEdges request => do
    let r ← Service.bound (request.bind c)
    Service.onStore fun t => t.addEdges m.clock r.subjects r.incoming r.outgoing
    return doneAt m
  | .removeEdges request => do
    let r ← Service.bound (request.bind c)
    Service.onStore fun t => t.removeEdges m.clock r.subjects r.incoming r.outgoing
    return doneAt m
  | .list name => do
    let relation ← Service.onStore fun t => (Relation.ofName name, t)
    shown m c (← Service.onStore fun t => (t.nodesOf c.uid relation, t))
  | .share request => changeShare m c .add request
  | .unshare request => changeShare m c .remove request
  | .userByName username => do visibleUser c ((← Attempt.state).store.findUsername username)
  | .userByUid uid => do visibleUser c ((← Attempt.state).store.findUser uid)
  | .createAccount request => do
    let account ← Service.bound (request.bind c)
    return .user ((← SealedGraph.createAccount account).stamp c.key)
  | .updateAccounts request => do
    let updates ← Service.bound (request.bind c)
    return .users ((← SealedGraph.updateAccounts m updates).map (User.stamp c.key))

end Call

end SealedGraph
