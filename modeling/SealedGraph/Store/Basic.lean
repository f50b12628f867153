import SealedGraph.Index
import SealedGraph.Node.Basic
import SealedGraph.User

/-!
# The store

Nodes and accounts under uids that the store assigns, and the index of usernames. A stored node has
an owner, a group and two times for certain, and names its children by uid; it carries no token.
-/

namespace SealedGraph

/-- A stored node. -/
structure Record where
  owner : String
  permissions : Permissions
  group : String
  /-- the uids of the nodes that it links to -/
  children : List String
  content : Content
  created : Timestamp
  modified : Timestamp
  deriving DecidableEq, Repr

/-- The record as a node, without its children. -/
def Record.toNode (uid : String) (r : Record) : Node :=
  ⟨uid, none, some r.owner, r.permissions, some r.group, [], r.content, some r.created,
    some r.modified⟩

/-- What a password is checked against. -/
structure Credential where
  password : String
  deriving DecidableEq

/-- Whether a password is the right one. -/
def Credential.accepts (c : Credential) (password : String) : Bool := c.password = password

/-- A user account. -/
structure Account where
  username : String
  role : String
  data : Option String
  credential : Credential
  /-- the uids of the nodes that the user created without a parent -/
  owned : List String
  /-- the uids of the nodes that were shared with the user -/
  shared : List String
  deriving DecidableEq

/-- The account as a user, without what it is checked against. -/
def Account.toUser (uid : String) (a : Account) : User :=
  ⟨uid, none, some a.username, some a.role, a.data⟩

/-- The nodes, the accounts, and the uids of the usernames. -/
structure Store where
  /-- the number of the uid that was assigned last -/
  lastUid : Nat
  nodes : Index Record
  accounts : Index Account
  usernames : Index String
  deriving DecidableEq

/-- Why the store refuses an operation. -/
inductive StoreError
  | noUser (uid : String)
  | noNode (uid : String)
  /-- a list of nodes to create without any -/
  | nothingToCreate
  /-- a new node whose uid is no placeholder, or that of another one -/
  | badPlaceholder (uid : String)
  /-- a new node that links to itself -/
  | selfEdge (uid : String)
  /-- a new node that links to something that is no new node -/
  | unknownPlaceholder (uid : String)
  /-- new nodes each of which is linked from another -/
  | noRoot
  /-- a link from a node to itself -/
  | selfLink (uid : String)
  | badUsername (name : String)
  | badRole (role : String)
  | usernameTaken (name : String)
  /-- a text that names no relation between users and nodes -/
  | badRelation (text : String)
  deriving DecidableEq, Repr

namespace StoreError

/-- The classes of errors. -/
inductive Class
  | notFound
  | invalid
  /-- the store itself is at fault; this one never is -/
  | backend
  deriving DecidableEq, Repr

/-- The text of an error of a class with a detail. -/
def Class.message : Class → String → String
  | .notFound, detail => "not found: " ++ detail
  | .invalid, detail => "invalid store operation: " ++ detail
  | .backend, detail => "graph store failure: " ++ detail

/-- The class of an error. -/
def classOf : StoreError → Class
  | .noUser _ => .notFound
  | .noNode _ => .notFound
  | _ => .invalid

/-- A text between single quotes. -/
def quoted (s : String) : String := "'" ++ s ++ "'"

/-- What an error says beyond its class. -/
def detail : StoreError → String
  | .noUser uid => "user " ++ uid
  | .noNode uid => "node " ++ uid
  | .nothingToCreate => "no nodes to create"
  | .badPlaceholder uid => "invalid placeholder uid " ++ quoted uid
  | .selfEdge uid => "self link on " ++ quoted uid
  | .unknownPlaceholder uid => "edge to unknown placeholder " ++ quoted uid
  | .noRoot => "at least one new node must not be linked from another new node"
  | .selfLink uid => "self link on " ++ uid
  | .badUsername name => "invalid username " ++ quoted name
  | .badRole role => "invalid role " ++ quoted role
  | .usernameTaken name => "username " ++ quoted name ++ " already exists"
  | .badRelation text => "invalid edge type " ++ quoted text

/-- The text of an error. -/
def message (e : StoreError) : String := e.classOf.message e.detail

end StoreError

/-- How nodes can be related to a user. -/
inductive Relation
  | own
  | shared
  deriving DecidableEq, Repr

/-- The relation with a name. -/
def Relation.ofName (name : String) : Except StoreError Relation :=
  if name = "own" then .ok .own
  else if name = "shared" then .ok .shared
  else .error (.badRelation name)

/-- The uids of the nodes with a relation to an account. -/
def Account.related (a : Account) : Relation → List String
  | .own => a.owned
  | .shared => a.shared

namespace Store

/-- The store without nodes and accounts. -/
def empty : Store := ⟨0, ∅, ∅, ∅⟩

/-- The uid with a number. -/
def uidOf (n : Nat) : String := String.ofList ('0' :: 'x' :: Text.hexText n)

/-- The uid that is assigned next. -/
def freshUid (s : Store) : String := uidOf (s.lastUid + 1)

/-- Whether there is a node with a uid. -/
def hasNode (s : Store) (uid : String) : Bool := s.nodes.contains uid

/-- Whether there is an account with a uid. -/
def hasAccount (s : Store) (uid : String) : Bool := s.accounts.contains uid

/-- Fails unless all the uids belong to nodes; the first that does not is the one reported. -/
def requireNodes (s : Store) : List String → Except StoreError Unit
  | [] => .ok ()
  | uid :: uids => if s.hasNode uid then s.requireNodes uids else .error (.noNode uid)

/-- The node with a uid, without its children. -/
def node? (s : Store) (uid : String) : Option Node := (s.nodes.find? uid).map (·.toNode uid)

/-- The node with a uid and its direct children, which have none. -/
def expand? (s : Store) (uid : String) : Option Node :=
  (s.nodes.find? uid).map fun r => { r.toNode uid with children := r.children.filterMap s.node? }

/-- The user with a uid. -/
def findUser (s : Store) (uid : String) : Option User := (s.accounts.find? uid).map (·.toUser uid)

/-- The uid and the account that a username belongs to. -/
def accountNamed? (s : Store) (name : String) : Option (String × Account) := do
  let uid ← s.usernames.find? name
  return (uid, ← s.accounts.find? uid)

/-- The user with a username. -/
def findUsername (s : Store) (name : String) : Option User :=
  (s.accountNamed? name).map fun (uid, a) => a.toUser uid

/-- Whether a username belongs to an account. -/
def isKnown (s : Store) (name : String) : Bool := s.usernames.contains name

/-- The user with a username and a password. -/
def authenticate (s : Store) (name password : String) : Option User := do
  let (uid, a) ← s.accountNamed? name
  if a.credential.accepts password then some (a.toUser uid) else none

end Store

end SealedGraph
