import SealedGraph.Store.Basic

/-!
# New nodes

A batch of nodes that name each other by placeholders. The store gives each a uid of its own and all
of them one group, and hangs those that no other new node links to under a parent or, without a
parent, among the nodes that their owner owns.

A batch that is refused leaves the store as it is but for the uids that it used up.
-/

namespace SealedGraph.Store

/-- The uids for the placeholders of a batch in its order, and the number of the last uid; a bad
placeholder ends the work. -/
def assign : List Node → Index String → Nat → Except StoreError (Index String) × Nat
  | [], assigned, last => (.ok assigned, last)
  | n :: ns, assigned, last =>
    if !isPlaceholder n.uid || assigned.contains n.uid then (.error (.badPlaceholder n.uid), last)
    else assign ns (assigned.insert n.uid (uidOf (last + 1))) (last + 1)

/-- Fails at the first link of a new node that leads to itself or out of the batch. -/
def checkEdges (assigned : Index String) (uid : String) : List String → Except StoreError Unit
  | [] => .ok ()
  | target :: targets =>
    if target = uid then .error (.selfEdge uid)
    else if assigned.contains target then checkEdges assigned uid targets
    else .error (.unknownPlaceholder target)

/-- Fails at the first bad link of a batch. -/
def checkBatch (assigned : Index String) : List Node → Except StoreError Unit
  | [] => .ok ()
  | n :: ns => do
    checkEdges assigned n.uid (n.children.map Node.uid)
    checkBatch assigned ns

/-- The placeholders that the nodes of a batch link to. -/
def linked (batch : List Node) : List String := batch.flatMap fun n => n.children.map Node.uid

/-- The placeholders of a batch that no node of it links to. -/
def roots (batch : List Node) : List String :=
  (batch.map Node.uid).filter fun uid => !(linked batch).contains uid

/-- The record of a new node. -/
def newRecord (owner group : String) (now : Timestamp) (assigned : Index String) (n : Node) :
    Record :=
  ⟨owner, n.permissions, group, n.children.filterMap fun c => assigned.find? c.uid, n.content,
    now, now⟩

/-- The store with the record of each node of a batch. -/
def addRecords (owner group : String) (now : Timestamp) (assigned : Index String)
    (batch : List Node) (s : Store) : Store :=
  batch.foldl
    (fun s n =>
      match assigned.find? n.uid with
      | some uid => { s with nodes := s.nodes.insert uid (newRecord owner group now assigned n) }
      | none => s)
    s

/-- The new nodes, each with its placeholder. -/
def createdNodes (owner group : String) (now : Timestamp) (assigned : Index String)
    (batch : List Node) : List (String × Node) :=
  batch.filterMap fun n =>
    (assigned.find? n.uid).map fun uid =>
      (n.uid, (newRecord owner group now assigned n).toNode uid)

/-- The store with a link from one node to another; the node that links counts as modified. -/
def link (now : Timestamp) (source target : String) (s : Store) : Store :=
  { s with nodes := s.nodes.modify source fun r =>
      { r with
        children := if r.children.contains target then r.children else r.children ++ [target],
        modified := now } }

/-- The store with new nodes hung under a parent, or owned without one. -/
def attach (now : Timestamp) (owner : String) (parent : Option String) (uids : List String)
    (s : Store) : Store :=
  match parent with
  | some parent => uids.foldl (fun s uid => s.link now parent uid) s
  | none =>
    { s with accounts := s.accounts.modify owner fun a => { a with owned := a.owned ++ uids } }

/-- Fails unless there is something to create, and someone and something to create it for. -/
def checkCreate (s : Store) (owner : String) (parent : Option String) (batch : List Node) :
    Except StoreError Unit :=
  if batch.isEmpty then .error .nothingToCreate
  else if !s.hasAccount owner then .error (.noUser owner)
  else s.requireNodes parent.toList

/-- Creates a batch of nodes for an owner. Gives the new nodes with their placeholders. -/
def create (s : Store) (now : Timestamp) (group owner : String) (parent : Option String)
    (batch : List Node) : Except StoreError (List (String × Node)) × Store :=
  match s.checkCreate owner parent batch with
  | .error e => (.error e, s)
  | .ok () =>
    match assign batch ∅ s.lastUid with
    | (.error e, last) => (.error e, { s with lastUid := last })
    | (.ok assigned, last) =>
      let s := { s with lastUid := last }
      match checkBatch assigned batch with
      | .error e => (.error e, s)
      | .ok () =>
        if (roots batch).isEmpty then (.error .noRoot, s)
        else
          let uids := (roots batch).filterMap assigned.find?
          (.ok (createdNodes owner group now assigned batch),
            (s.addRecords owner group now assigned batch).attach now owner parent uids)

end SealedGraph.Store
