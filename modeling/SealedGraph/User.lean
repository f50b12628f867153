import SealedGraph.Node.Json

/-!
# Users

A user as it travels, and its form in JSON.
-/

namespace SealedGraph

/-- A user. -/
structure User where
  uid : String
  /-- the token of its descriptor under the key of whoever may use it -/
  token : Option String
  username : Option String
  role : Option String
  data : Option String
  deriving DecidableEq, Repr, Inhabited

namespace User

open Json

/-- What a user claims about its identity. -/
def descriptor (u : User) : UserDescriptor := ⟨u.uid, u.role.getD ""⟩

/-- The user with the token of its descriptor under a key. -/
def stamp (key : IdentityKey) (u : User) : User :=
  { u with token := some (u.descriptor.pack key.bytes) }

/-- A user as an object. -/
def toJson (u : User) : Value :=
  .object (("uid", .string u.uid) :: stringMember "ad" u.token ++ stringMember "un" u.username ++
    stringMember "role" u.role ++ stringMember "us" u.data)

/-- The shape of a user. -/
def shape : Shape User :=
  Shape.record
    [ .free "uid" Shape.string fun x u => { u with uid := x },
      .free "ad" (Shape.optional Shape.string) fun x u => { u with token := x },
      .free "un" (Shape.optional Shape.string) fun x u => { u with username := x },
      .free "role" (Shape.optional Shape.string) fun x u => { u with role := x },
      .free "us" (Shape.optional Shape.string) fun x u => { u with data := x } ]
    ⟨"", none, none, none, none⟩

end User

end SealedGraph
