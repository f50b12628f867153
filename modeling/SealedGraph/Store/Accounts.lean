import SealedGraph.Store.Basic

/-!
# Accounts

New accounts, and changes to existing ones. A list of changes is applied as a whole or not at all;
changes may pass names on to accounts only if nobody holds them when the list comes in.
-/

namespace SealedGraph

/-- An account to be made. -/
structure NewAccount where
  username : String
  password : String
  role : String
  data : Option String
  deriving DecidableEq, Repr

/-- What is to be changed of an account; what is `none` stays. -/
structure AccountUpdate where
  uid : String
  username : Option String
  password : Option String
  role : Option String
  data : Option String
  deriving DecidableEq, Repr

/-- The account after an update. An empty password is no new password. -/
def Account.updated (a : Account) (u : AccountUpdate) : Account :=
  { a with
    username := u.username.getD a.username
    role := u.role.getD a.role
    data := u.data.or a.data
    credential := match u.password.filter fun p => !p.isEmpty with
      | some password => ⟨password⟩
      | none => a.credential }

namespace Store

/-- Fails unless a name and a role are such as an account can have. -/
def checkAccount (username role : Option String) : Except StoreError Unit :=
  match username.filter fun name => !isValidUsername name with
  | some name => .error (.badUsername name)
  | none =>
    match role.filter fun role => !isValidRole role with
    | some role => .error (.badRole role)
    | none => .ok ()

/-- Makes an account. -/
def createAccount (s : Store) (new : NewAccount) : Except StoreError User × Store :=
  match checkAccount (some new.username) (some new.role) with
  | .error e => (.error e, s)
  | .ok () =>
    if s.isKnown new.username then (.error (.usernameTaken new.username), s)
    else
      let uid := s.freshUid
      let account : Account := ⟨new.username, new.role, new.data, ⟨new.password⟩, [], []⟩
      (.ok (account.toUser uid),
        { s with lastUid := s.lastUid + 1
                 accounts := s.accounts.insert uid account
                 usernames := s.usernames.insert new.username uid })

/-- Fails at the first update with a bad name or role. -/
def checkUpdates : List AccountUpdate → Except StoreError Unit
  | [] => .ok ()
  | u :: us => do
    checkAccount u.username u.role
    checkUpdates us

/-- Fails at the first update of an account that is not there, or whose name belongs to another
account or was claimed for another one by an earlier update. -/
def checkClaims (s : Store) : List AccountUpdate → Index String → Except StoreError Unit
  | [], _ => .ok ()
  | u :: us, claimed =>
    if !s.hasAccount u.uid then .error (.noUser u.uid)
    else
      match u.username with
      | none => s.checkClaims us claimed
      | some name =>
        let isOther (uid : Option String) := uid.any (· ≠ u.uid)
        if isOther (s.usernames.find? name) || isOther (claimed.find? name) then
          .error (.usernameTaken name)
        else s.checkClaims us (claimed.insert name u.uid)

/-- The store after one update, and the user then. -/
def updateAccount (s : Store) (u : AccountUpdate) : Option User × Store :=
  match s.accounts.find? u.uid with
  | none => (none, s)
  | some a =>
    let a' := a.updated u
    let usernames :=
      if a'.username = a.username then s.usernames
      else (s.usernames.erase a.username).insert a'.username u.uid
    (some (a'.toUser u.uid),
      { s with accounts := s.accounts.insert u.uid a', usernames := usernames })

/-- The store after some updates in turn, and the users then. -/
def applyUpdates : List AccountUpdate → Store → List User × Store
  | [], s => ([], s)
  | u :: us, s =>
    let (user, s) := s.updateAccount u
    let (users, s) := applyUpdates us s
    (user.toList ++ users, s)

/-- Changes accounts. Gives the users in the order of the updates. -/
def updateAccounts (s : Store) (updates : List AccountUpdate) :
    Except StoreError (List User) × Store :=
  match checkUpdates updates with
  | .error e => (.error e, s)
  | .ok () =>
    match s.checkClaims updates ∅ with
    | .error e => (.error e, s)
    | .ok () =>
      let (users, s) := applyUpdates updates s
      (.ok users, s)

end Store

end SealedGraph
