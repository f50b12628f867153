import SealedGraph.Json.Shape
import SealedGraph.Node.Basic

/-!
# Nodes in JSON

A node is an object whose members have short names; the letters of its permissions stand among
them. Members without a value, permissions that are not granted and lists without items are left
out, only the uid is always there.

Unlike other records a node is never an array, and its unknown members are read, not skipped. Its
permissions are looked at last, so that a permission which is no truth value is a lesser problem
than anything else that is wrong with the text of the node.
-/

namespace SealedGraph

open Json

/-- A member, if there is a value for it. -/
def memberOf (name : String) (v : Option Value) : List (String × Value) :=
  match v with
  | some v => [(name, v)]
  | none => []

/-- A member with a string, if there is one. -/
def stringMember (name : String) (s : Option String) : List (String × Value) :=
  memberOf name (s.map .string)

/-- The point in time of a string. -/
def timestampOf (s : String) : Option Timestamp := Timestamp.parse? s.toList

/-- A point in time as a string. -/
def timestampValue (t : Timestamp) : Value := .string (String.ofList t.text)

namespace Permissions

/-- The name of the member of a permission: its letter. -/
def memberName (p : Permission) : String := String.ofList [p.letter]

/-- The granted permissions as members. -/
def members (s : Permissions) : List (String × Value) :=
  (Permission.all.filter s.has).map fun p => (memberName p, .bool true)

/-- The set with a permission granted or not. -/
def set (p : Permission) (granted : Bool) (s : Permissions) : Permissions :=
  match p with
  | .read => { s with read := granted }
  | .write => { s with write := granted }
  | .linkOut => { s with linkOut := granted }
  | .linkIn => { s with linkIn := granted }
  | .delete => { s with delete := granted }
  | .share => { s with share := granted }

/-- The members of a set of permissions. -/
def fields : List (Shape.Field Permissions) :=
  Permission.all.map fun p => .free (memberName p) Shape.bool (set p)

/-- A set of permissions as an object of its own. -/
def toJson (s : Permissions) : Value := .object s.members

/-- The shape of a set of permissions. -/
def shape : Shape Permissions := Shape.record fields none

/-- Whether a member is a permission. -/
def isMember (name : String) : Bool := Permission.all.any fun p => memberName p = name

end Permissions

namespace Node

/-- The members of the contents. -/
def contentMembers (c : Content) : List (String × Value) :=
  stringMember "id" c.id ++ stringMember "ty" c.type ++ stringMember "p" c.privateData ++
  stringMember "s1" c.s1 ++ stringMember "s2" c.s2 ++ stringMember "s3" c.s3 ++
  stringMember "s4" c.s4 ++ stringMember "b" c.blob ++
  memberOf "n1" (c.n1.map fun x => .number (.double x)) ++
  memberOf "n2" (c.n2.map fun x => .number (.double x))

/-- The member of a list of children. -/
def childrenMember (children : List Value) : List (String × Value) :=
  if children.isEmpty then [] else [("e", .array children)]

mutual

/-- A node as an object. -/
def toJson : Node → Value
  | ⟨uid, token, owner, permissions, group, children, content, created, modified⟩ =>
    .object (("uid", .string uid) :: stringMember "ad" token ++
      memberOf "own" (owner.map fun uid => .object [("uid", .string uid)]) ++
      permissions.members ++ stringMember "sgi" group ++ childrenMember (allToJson children) ++
      contentMembers content ++ memberOf "c" (created.map timestampValue) ++
      memberOf "m" (modified.map timestampValue))

/-- Nodes as objects. -/
def allToJson : List Node → List Value
  | [] => []
  | n :: ns => toJson n :: allToJson ns

end

/-- A node under construction, with the members that are permissions as they came. -/
structure Draft where
  node : Node
  permissions : List (Option String × Doc)

namespace Draft

/-- A draft without any member. -/
def empty : Draft := ⟨.ofUid "", []⟩

/-- A field of the node. -/
def node? {α : Type} (name : String) (shape : Shape α) (set : α → Node → Node) :
    Shape.Field Draft :=
  .free name shape fun x d => { d with node := set x d.node }

/-- A field of the contents. -/
def content? {α : Type} (name : String) (shape : Shape α) (set : α → Content → Content) :
    Shape.Field Draft :=
  node? name shape fun x n => { n with content := set x n.content }

/-- The shape of an owner: an object with a uid. -/
def ownerShape : Shape String := Shape.record [.needed "uid" Shape.string fun uid _ => uid] ""

/-- The fields of a node, given how to read its children. -/
def fields (children : Doc → Except Failure (List Node)) : List (Shape.Field Draft) :=
  [ node? "uid" Shape.string fun x n => { n with uid := x },
    node? "ad" (Shape.optional Shape.string) fun x n => { n with token := x },
    node? "own" (Shape.optional ownerShape) fun x n => { n with owner := x },
    node? "sgi" (Shape.optional Shape.string) fun x n => { n with group := x },
    node? "e" (fun _ d => children d) fun x n => { n with children := x },
    content? "id" (Shape.optional Shape.string) fun x c => { c with id := x },
    content? "ty" (Shape.optional Shape.string) fun x c => { c with type := x },
    content? "p" (Shape.optional Shape.string) fun x c => { c with privateData := x },
    content? "s1" (Shape.optional Shape.string) fun x c => { c with s1 := x },
    content? "s2" (Shape.optional Shape.string) fun x c => { c with s2 := x },
    content? "s3" (Shape.optional Shape.string) fun x c => { c with s3 := x },
    content? "s4" (Shape.optional Shape.string) fun x c => { c with s4 := x },
    content? "b" (Shape.optional Shape.string) fun x c => { c with blob := x },
    content? "n1" (Shape.optional Shape.double) fun x c => { c with n1 := x },
    content? "n2" (Shape.optional Shape.double) fun x c => { c with n2 := x },
    node? "c" (Shape.optional (Shape.stringOf timestampOf)) fun x n => { n with created := x },
    node? "m" (Shape.optional (Shape.stringOf timestampOf)) fun x n => { n with modified := x } ]

/-- Reads a member that is no field, and keeps it if it is a permission. -/
def other (limit : Nat) (name : String) (doc : Doc) (d : Draft) : Except Failure Draft := do
  let _ ← Shape.any limit doc
  if Permissions.isMember name then
    return { d with permissions := d.permissions ++ [(some name, doc)] }
  else return d

/-- The node with the permissions that came. -/
def finish (d : Draft) : Except Failure Node := do
  let permissions ← Shape.members Permissions.fields Shape.ignore 0 [] .none d.permissions
  return { d.node with permissions := permissions }

/-- The node with the given members. -/
def read (limit : Nat) (children : Doc → Except Failure (List Node))
    (members : List (Option String × Doc)) : Except Failure Node := do
  (← Shape.members (fields children) other limit [] empty members).finish

end Draft

/-- The shape of a node. -/
def shape : Shape Node
  | 0, .object _ => .error .malformed
  | 1, .object members => Draft.read 0 (Shape.list (fun _ d => .error d.failure) 0) members
  | limit + 2, .object members =>
    Draft.read (limit + 1)
      (fun
        | .array items => items.mapM (shape limit)
        | d => .error d.failure)
      members
  | _, d => .error d.failure

end Node

end SealedGraph
