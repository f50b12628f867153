import SealedGraph.Identity
import SealedGraph.Text.Split

/-!
# Users named on the command line

A username and a role with a comma between them.
-/

namespace SealedGraph.Command

/-- A user to begin with. -/
structure NewUser where
  username : String
  role : String
  deriving DecidableEq, Repr

/-- What is wrong with the text of a new user. -/
inductive NewUserError
  | form (text : String)
  | username (name : String)
  | role (role : String)
  deriving DecidableEq, Repr

/-- The error in words. -/
def NewUserError.message : NewUserError → String
  | .form t => "expected NAME,ROLE, got '" ++ t ++ "'"
  | .username t => "invalid username '" ++ t ++ "'"
  | .role t => "invalid role '" ++ t ++ "': '.', ':' and whitespace are not allowed"

namespace NewUser

/-- The two parts of a text with one comma, without the blanks around them, if neither is empty. -/
def parts? (text : String) : Option (String × String) :=
  match Text.split ',' text.toList with
  | [username, role] =>
    let username := Text.trim username
    let role := Text.trim role
    if username = [] ∨ role = [] then none
    else some (String.ofList username, String.ofList role)
  | _ => none

/-- The user of a text. -/
def ofText (text : String) : Except NewUserError NewUser :=
  match parts? text with
  | none => .error (.form text)
  | some (username, role) =>
    if !isValidUsername username then .error (.username username)
    else if !isValidRole role then .error (.role role)
    else .ok ⟨username, role⟩

end NewUser

end SealedGraph.Command
