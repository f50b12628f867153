import SealedGraph.Store.Basic

/-!
# Shared nodes

Nodes put on and taken off the lists of what is shared with users. The nodes have to be there before
anything is changed; the users are treated one after the other, and one who is not there ends the
work with the lists of those before already changed.
-/

namespace SealedGraph

/-- What a request does to the lists of shared nodes. -/
inductive ShareChange
  | add
  | remove
  deriving DecidableEq, Repr

/-- A list of shared nodes after a change. -/
def ShareChange.apply : ShareChange → List String → List String → List String
  | .add, uids, shared => uids.foldl (fun l uid => if l.contains uid then l else l ++ [uid]) shared
  | .remove, uids, shared => shared.filter fun uid => !uids.contains uid

namespace Store

/-- Changes the lists of users in turn. -/
def shareWith (change : ShareChange) (nodes : List String) :
    List String → Store → Except StoreError Unit × Store
  | [], s => (.ok (), s)
  | user :: users, s =>
    match s.accounts.find? user with
    | some a =>
      let a := { a with shared := change.apply nodes a.shared }
      shareWith change nodes users { s with accounts := s.accounts.insert user a }
    | none => (.error (.noUser user), s)

/-- Each uid in the place where it comes first. -/
def distinct : List String → List String → List String
  | _, [] => []
  | seen, uid :: uids =>
    if seen.contains uid then distinct seen uids else uid :: distinct (uid :: seen) uids

/-- The uids of some nodes, each with those of its children behind it. -/
def withChildren (s : Store) (uids : List String) : List String :=
  uids.flatMap fun uid =>
    match s.nodes.find? uid with
    | some r => uid :: r.children
    | none => []

/-- Some nodes and their direct children, each once and without its children. -/
def members (s : Store) (uids : List String) : List Node :=
  (distinct [] (s.withChildren uids)).filterMap s.node?

/-- Changes what is shared with users. Gives the members: the nodes and their direct children. -/
def share (s : Store) (change : ShareChange) (nodes users : List String) :
    Except StoreError (List Node) × Store :=
  match s.requireNodes nodes with
  | .error e => (.error e, s)
  | .ok () =>
    match shareWith change nodes users s with
    | (.error e, s) => (.error e, s)
    | (.ok (), s) => (.ok (s.members nodes), s)

end Store

end SealedGraph
