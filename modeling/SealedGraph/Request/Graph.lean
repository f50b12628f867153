import SealedGraph.Json.Shape
import SealedGraph.Node.Json
import SealedGraph.Request.Error

/-!
# Requests about nodes

What a body can ask for, and what is left of it once it is bound to a caller: uids in place of
tokens, and new nodes without anything that a client may not decide. A request is bound as a whole
or not at all. Its form is looked at before the caller and the references.
-/

namespace SealedGraph

open Json

/-- A list of strings that may be missing. -/
def stringsField {σ : Type} (name : String) (set : List String → σ → σ) : Shape.Field σ :=
  .free name (Shape.list Shape.string) set

/-- A list of nodes that may be missing. -/
def nodesField {σ : Type} (set : List Node → σ → σ) : Shape.Field σ :=
  .free "nodes" (Shape.list Node.shape) set

/-! ## Queries -/

/-- A request for nodes within reach of some roots. -/
structure QueryRequest where
  roots : List String
  rootQuery : Option Value
  depth : Nat
  deriving Repr

namespace QueryRequest

/-- The shape of the body. -/
def shape : Shape QueryRequest :=
  Shape.record
    [ stringsField "root_ids" fun x r => { r with roots := x },
      .free "root_query" (Shape.optional Shape.any) fun x r => { r with rootQuery := x },
      .free "depth" (Shape.word 32) fun x r => { r with depth := x } ]
    ⟨[], none, 0⟩

/-- The request with uids for roots, if the caller may read all of them; only an administrator may
ask in the store's own language. -/
def bind (r : QueryRequest) (c : Caller) : Except RequestError QueryRequest := do
  if r.rootQuery.isSome && !c.isAdmin then throw .adminOnly
  return { r with roots := ← resolved (c.nodeReferences "r" r.roots) }

end QueryRequest

/-! ## Links -/

/-- A request about links from the incoming nodes to the subjects and from those to the outgoing
nodes. -/
structure EdgesRequest where
  subjects : List String
  incoming : List String
  outgoing : List String
  deriving DecidableEq, Repr

namespace EdgesRequest

/-- The shape of the body. -/
def shape : Shape EdgesRequest :=
  Shape.record
    [ stringsField "subject_ids" fun x r => { r with subjects := x },
      stringsField "incoming_ids" fun x r => { r with incoming := x },
      stringsField "outgoing_ids" fun x r => { r with outgoing := x } ]
    ⟨[], [], []⟩

/-- The letters of what the subjects have to permit. -/
def subjectLetters (r : EdgesRequest) : String :=
  (if r.incoming.isEmpty then "" else "i") ++ (if r.outgoing.isEmpty then "" else "o")

/-- The request with uids, if both ends of every link permit it. -/
def bind (r : EdgesRequest) (c : Caller) : Except RequestError EdgesRequest := do
  demand (!r.subjects.isEmpty) .noSubjects
  demand (!(r.incoming.isEmpty && r.outgoing.isEmpty)) .noLinks
  let subjects ← resolved (c.nodeReferences r.subjectLetters r.subjects)
  let incoming ← resolved (c.nodeReferences "o" r.incoming)
  let outgoing ← resolved (c.nodeReferences "i" r.outgoing)
  return ⟨subjects, incoming, outgoing⟩

end EdgesRequest

/-! ## New contents -/

/-- A request to replace the contents of nodes. -/
structure UpdateRequest where
  nodes : List Node
  deriving DecidableEq, Repr

namespace UpdateRequest

/-- The shape of the body. -/
def shape : Shape UpdateRequest :=
  Shape.record [nodesField fun x r => { r with nodes := x }] ⟨[]⟩

/-- The nodes, if the caller may write all of them and they claim to be what their tokens say. -/
def bind (r : UpdateRequest) (c : Caller) : Except RequestError (List Node) := do
  demand (!r.nodes.isEmpty) .noNodes
  resolved (c.checkAllSubmitted "w" r.nodes)
  return r.nodes

end UpdateRequest

/-! ## Shares -/

/-- A request to share nodes with users, or to end that. -/
structure ShareRequest where
  nodes : List String
  users : List String
  deriving DecidableEq, Repr

namespace ShareRequest

/-- The shape of the body. -/
def shape : Shape ShareRequest :=
  Shape.record
    [ stringsField "nodes" fun x r => { r with nodes := x },
      stringsField "users" fun x r => { r with users := x } ]
    ⟨[], []⟩

/-- The uids of the recipients, none of whom may be an administrator. -/
def recipients (c : Caller) : List String → Except RequestError (List String)
  | [] => .ok []
  | token :: tokens => do
    let user ← resolved (c.userReference token)
    demand (user.role ≠ adminRole) .hiddenRecipient
    return user.uid :: (← recipients c tokens)

/-- The request with uids, if the caller may share all the nodes. -/
def bind (r : ShareRequest) (c : Caller) : Except RequestError ShareRequest := do
  demand (!(r.nodes.isEmpty || r.users.isEmpty)) .noNodesOrUsers
  let nodes ← resolved (c.nodeReferences "s" r.nodes)
  let users ← recipients c r.users
  return ⟨nodes, users⟩

end ShareRequest

/-! ## New nodes -/

/-- A node without anything that a client may not decide of a new one; of its children only the
uids are left. -/
def Node.asNew (n : Node) : Node :=
  ⟨n.uid, none, none, n.permissions, none, n.children.map fun c => Node.ofUid c.uid, n.content,
    none, none⟩

/-- A request to create nodes under a parent, which is named in the path. -/
structure CreateRequest where
  parent : String
  nodes : List Node
  deriving DecidableEq, Repr

namespace CreateRequest

/-- The shape of the body. -/
def shape : Shape CreateRequest :=
  Shape.record [nodesField fun x r => { r with nodes := x }] ⟨"", []⟩

/-- Fails at the first child of a new node that is no placeholder, or the node itself. -/
def checkChildren (uid : String) : List Node → Except RequestError Unit
  | [] => .ok ()
  | c :: cs => do
    demand (isPlaceholder c.uid) .linkUid
    demand (c.uid ≠ uid) .selfLink
    checkChildren uid cs

/-- Fails at the first new node that is no placeholder, or has a child that is none. -/
def checkNodes : List Node → Except RequestError Unit
  | [] => .ok ()
  | n :: ns => do
    demand (isPlaceholder n.uid) .nodeUid
    checkChildren n.uid n.children
    checkNodes ns

/-- The request with the parent's uid, if the caller may link from the parent. -/
def bind (r : CreateRequest) (c : Caller) : Except RequestError CreateRequest := do
  demand (!r.nodes.isEmpty) .noNodes
  checkNodes r.nodes
  let parent ← resolved (c.nodeReference "o" r.parent)
  return ⟨parent.uid, r.nodes.map Node.asNew⟩

end CreateRequest

/-- A request to create one node without a parent. -/
structure RootRequest where
  node : Option Node
  deriving DecidableEq, Repr

namespace RootRequest

/-- The shape of the body. -/
def shape : Shape RootRequest :=
  Shape.record
    [.free "node" (Shape.optional Node.shape) fun x r => { r with node := x }] ⟨none⟩

/-- The new node, which has no children. -/
def bind (r : RootRequest) (_ : Caller) : Except RequestError Node :=
  match r.node with
  | some n =>
    if isPlaceholder n.uid then .ok { n.asNew with children := [] }
    else .error (.invalid .rootUid)
  | none => .error (.invalid .rootUid)

end RootRequest

end SealedGraph
