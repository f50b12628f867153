import SealedGraph.Store.Create

/-!
# Changes to stored nodes

New contents, and links between nodes added and removed. Each operation first makes sure that all
the nodes are there and only then changes anything.
-/

namespace SealedGraph.Store

/-- The store with the contents of one node replaced. -/
def setContent (now : Timestamp) (uid : String) (content : Content) (s : Store) : Store :=
  { s with nodes := s.nodes.modify uid fun r => { r with content := content, modified := now } }

/-- The nodes as they are after each of them has been given its new contents, in turn. -/
def applyContents (now : Timestamp) : List Node → Store → List Node × Store
  | [], s => ([], s)
  | n :: ns, s =>
    let s := s.setContent now n.uid n.content
    let (updated, s') := applyContents now ns s
    ((s.node? n.uid).toList ++ updated, s')

/-- Replaces the contents of nodes. Gives the nodes without their children. -/
def update (s : Store) (now : Timestamp) (nodes : List Node) :
    Except StoreError (List Node) × Store :=
  match s.requireNodes (nodes.map Node.uid) with
  | .error e => (.error e, s)
  | .ok () =>
    let (updated, s) := applyContents now nodes s
    (.ok updated, s)

/-- The store without a link from one node to another; a node that loses a link counts as
modified. -/
def unlink (now : Timestamp) (source target : String) (s : Store) : Store :=
  { s with nodes := s.nodes.modify source fun r =>
      if r.children.contains target then
        { r with children := r.children.filter (· ≠ target), modified := now }
      else r }

/-- The links that an operation on edges is about, in the order in which it treats them: for each
subject those from the incoming nodes to it, then those from it to the outgoing ones. -/
def edges (subjects incoming outgoing : List String) : List (String × String) :=
  subjects.flatMap fun subject =>
    incoming.map (fun source => (source, subject)) ++
    outgoing.map (fun target => (subject, target))

/-- Links the incoming nodes to the subjects, and the subjects to the outgoing nodes. -/
def addEdges (s : Store) (now : Timestamp) (subjects incoming outgoing : List String) :
    Except StoreError Unit × Store :=
  match s.requireNodes (subjects ++ incoming ++ outgoing) with
  | .error e => (.error e, s)
  | .ok () =>
    match subjects.find? fun uid => incoming.contains uid || outgoing.contains uid with
    | some uid => (.error (.selfLink uid), s)
    | none => (.ok (), (edges subjects incoming outgoing).foldl (fun s e => s.link now e.1 e.2) s)

/-- Removes the links that `addEdges` would add. -/
def removeEdges (s : Store) (now : Timestamp) (subjects incoming outgoing : List String) :
    Except StoreError Unit × Store :=
  match s.requireNodes (subjects ++ incoming ++ outgoing) with
  | .error e => (.error e, s)
  | .ok () => (.ok (), (edges subjects incoming outgoing).foldl (fun s e => s.unlink now e.1 e.2) s)

end SealedGraph.Store
