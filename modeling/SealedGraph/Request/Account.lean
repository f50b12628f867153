import SealedGraph.Json.Shape
import SealedGraph.Request.Error
import SealedGraph.Store.Accounts

/-!
# Requests about accounts

Logins, which everyone may try, and the making and changing of accounts, which is for
administrators.
-/

namespace SealedGraph

open Json

/-- The least number of characters of a new password. -/
def minPasswordLength : Nat := 5

/-- A string that may be missing. -/
def stringField {σ : Type} (name : String) (set : String → σ → σ) : Shape.Field σ :=
  .free name Shape.string set

/-- A string that may be missing or `null`. -/
def optionalField {σ : Type} (name : String) (set : Option String → σ → σ) : Shape.Field σ :=
  .free name (Shape.optional Shape.string) set

/-- A login with a name and a password. -/
structure LoginRequest where
  username : String
  password : String
  deriving DecidableEq, Repr

namespace LoginRequest

/-- The shape of the body. -/
def shape : Shape LoginRequest :=
  Shape.record
    [ stringField "username" fun x r => { r with username := x },
      stringField "password" fun x r => { r with password := x } ]
    ⟨"", ""⟩

/-- Fails unless there is a name with which an account can start. -/
def validate (r : LoginRequest) : Except RequestError Unit :=
  demand (!r.username.isEmpty && r.username.toList.head? != some reservedUsernameStart) .badUsername

end LoginRequest

/-- Fails unless a name and a role are such as an account can have. -/
def checkAccountFields (username role : Option String) : Except RequestError Unit := do
  demand (username.all isValidUsername) .badUsername
  demand (role.all isValidRole) .badRole

/-- Fails unless a password is long enough. -/
def checkPassword (password : String) : Except RequestError Unit :=
  demand (minPasswordLength ≤ password.length) .shortPassword

/-- Fails unless the caller is an administrator. -/
def requireAdmin (c : Caller) : Except RequestError Unit :=
  if c.isAdmin then .ok () else .error .adminOnly

/-- A request to make an account. -/
structure AccountRequest where
  username : String
  password : String
  role : String
  data : Option String
  deriving DecidableEq, Repr

namespace AccountRequest

/-- The shape of the body. -/
def shape : Shape AccountRequest :=
  Shape.record
    [ stringField "username" fun x r => { r with username := x },
      stringField "password" fun x r => { r with password := x },
      stringField "role" fun x r => { r with role := x },
      optionalField "us" fun x r => { r with data := x } ]
    ⟨"", "", "", none⟩

/-- The account to make. -/
def bind (r : AccountRequest) (c : Caller) : Except RequestError NewAccount := do
  checkAccountFields (some r.username) (some r.role)
  checkPassword r.password
  requireAdmin c
  return ⟨r.username, r.password, r.role, r.data⟩

end AccountRequest

/-- A request to change accounts. -/
structure AccountsRequest where
  users : List AccountUpdate
  deriving DecidableEq, Repr

namespace AccountsRequest

/-- The shape of one change. -/
def updateShape : Shape AccountUpdate :=
  Shape.record
    [ stringField "uid" fun x u => { u with uid := x },
      optionalField "un" fun x u => { u with username := x },
      optionalField "ph" fun x u => { u with password := x },
      optionalField "role" fun x u => { u with role := x },
      optionalField "us" fun x u => { u with data := x } ]
    ⟨"", none, none, none, none⟩

/-- The shape of the body. -/
def shape : Shape AccountsRequest :=
  Shape.record
    [.free "users" (Shape.list updateShape) fun x r => { r with users := x }] ⟨[]⟩

/-- The new password of a change; an empty one is none. -/
def newPassword (u : AccountUpdate) : Option String := u.password.filter fun p => !p.isEmpty

/-- Fails at the first change that no account could take. -/
def checkUpdates : List AccountUpdate → Except RequestError Unit
  | [] => .ok ()
  | u :: us => do
    demand (isStoreUid u.uid) .badUid
    checkAccountFields u.username u.role
    match newPassword u with
    | some password => checkPassword password
    | none => pure ()
    checkUpdates us

/-- A change as the store takes it: with the uid in lower case. -/
def normalize (u : AccountUpdate) : AccountUpdate :=
  { u with uid := u.uid.map Char.toLower, password := newPassword u }

/-- The changes to make. -/
def bind (r : AccountsRequest) (c : Caller) : Except RequestError (List AccountUpdate) := do
  demand (!r.users.isEmpty) .noUsers
  checkUpdates r.users
  requireAdmin c
  return r.users.map normalize

end AccountsRequest

end SealedGraph
