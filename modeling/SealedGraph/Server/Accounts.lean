import SealedGraph.Request.Account
import SealedGraph.Server.Basic

/-!
# Administration of accounts

Accounts are made and changed for administrators. A change clears the failed logins with the
account's name, and one of the password or the role ends the account's sessions. The store comes
first, and then the registry is told, one call after the other; between any two of these steps
other requests may be served.
-/

namespace SealedGraph

/-- What the registry is told after accounts were changed. -/
inductive Cleanup
  /-- the failed logins with a name no longer count -/
  | forgetFailures (username : String)
  /-- the sessions of a user are over -/
  | endSessions (uid : String)
  deriving DecidableEq, Repr

/-- Tells the registry. -/
def Cleanup.perform (m : Moment) : Cleanup → Service Unit
  | .forgetFailures username => Service.call m (.resetFailures username)
  | .endSessions uid => do
    let _ ← Service.call m (.purgeSessions uid)

/-- The uids of accounts whose password or role is to be changed. -/
def credentialChanges (updates : List AccountUpdate) : List String :=
  (updates.filter fun u => u.password.isSome || u.role.isSome).map AccountUpdate.uid

/-- What the registry is told after some users were changed. -/
def cleanups (changed : List String) (users : List User) : List Cleanup :=
  users.flatMap fun u =>
    (u.username.map Cleanup.forgetFailures).toList ++
      (if changed.contains u.uid then [.endSessions u.uid] else [])

/-- How far a change of accounts has come. -/
inductive UpdateStage
  | applying (updates : List AccountUpdate)
  /-- the accounts are changed, and these things are still to be told -/
  | telling (todo : List Cleanup) (users : List User)
  | finished (outcome : Except ServiceError (List User))

namespace UpdateStage

/-- The next step of a change of accounts. -/
def advance (m : Moment) : UpdateStage → Server → UpdateStage × Server
  | .applying updates, s =>
    match (Service.onStore fun t => t.updateAccounts updates).run s with
    | (.ok users, s) => (.telling (cleanups (credentialChanges updates) users) users, s)
    | (.error e, s) => (.finished (.error e), s)
  | .telling [] users, s => (.finished (.ok users), s)
  | .telling (c :: todo) users, s =>
    match (c.perform m).run s with
    | (.ok (), s) => (.telling todo users, s)
    | (.error e, s) => (.finished (.error e), s)
  | .finished outcome, s => (.finished outcome, s)

end UpdateStage

/-- Tells the registry several things in turn. -/
def tell (m : Moment) : List Cleanup → Service Unit
  | [] => return ()
  | c :: cs => do
    c.perform m
    tell m cs

/-- Changes accounts in one go. -/
def updateAccounts (m : Moment) (updates : List AccountUpdate) : Service (List User) := do
  let users ← Service.onStore fun t => t.updateAccounts updates
  tell m (cleanups (credentialChanges updates) users)
  return users

/-- Makes an account. -/
def createAccount (account : NewAccount) : Service User := do
  let user ← Service.onStore fun t => t.createAccount account
  Service.count .accountsCreated 1
  return user

end SealedGraph
