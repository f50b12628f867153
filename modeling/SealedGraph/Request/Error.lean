import SealedGraph.Access.Error
import SealedGraph.Access.Reference

/-!
# Refused requests

What can be wrong with a request before the store has seen it: its form, the rank of the caller, or
the references in it.
-/

namespace SealedGraph

/-- What can be wrong with the form of a request. -/
inductive Flaw
  | badUsername
  | badRole
  | shortPassword
  | badUid
  | noSubjects
  | noLinks
  | noNodes
  | noNodesOrUsers
  | noUsers
  /-- a new node whose uid is no placeholder -/
  | nodeUid
  /-- a new node that links to something that is no placeholder -/
  | linkUid
  | selfLink
  /-- a new root node that is missing or whose uid is no placeholder -/
  | rootUid
  /-- a share with an administrator, whose accounts are not shown to others -/
  | hiddenRecipient
  /-- a query for roots in a language of the store's own -/
  | rootQuery
  deriving DecidableEq, Repr

/-- The text of a flaw. -/
def Flaw.message : Flaw → String
  | .badUsername => "invalid username"
  | .badRole => "invalid role"
  | .shortPassword => "password does not meet min length"
  | .badUid => "bad uid"
  | .noSubjects => "subject_ids is required"
  | .noLinks => "incoming_ids or outgoing_ids is required"
  | .noNodes => "nodes is required"
  | .noNodesOrUsers => "nodes and users are required"
  | .noUsers => "users is required"
  | .nodeUid => "new nodes must use placeholder uids"
  | .linkUid => "new edges must use placeholder uids"
  | .selfLink => "self link disallowed"
  | .rootUid => "node with a placeholder uid is required"
  | .hiddenRecipient => "user not found"
  | .rootQuery => "root queries are not supported by this store"

/-- Why a request is refused. -/
inductive RequestError
  /-- a reference is refused -/
  | denied (denial : Denial)
  /-- the request is for administrators -/
  | adminOnly
  | invalid (flaw : Flaw)
  deriving DecidableEq, Repr

namespace RequestError

/-- Whether the refusal counts as a denied reference. -/
def isDenial : RequestError → Bool
  | .denied _ => true
  | _ => false

end RequestError

/-- Fails with a flaw unless a condition holds. -/
def demand (condition : Bool) (flaw : Flaw) : Except RequestError Unit :=
  if condition then .ok () else .error (.invalid flaw)

/-- The outcome of looking at references, as part of a request. -/
def resolved {α : Type} : Except Denial α → Except RequestError α
  | .ok a => .ok a
  | .error d => .error (.denied d)

end SealedGraph
