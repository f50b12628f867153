import SealedGraph.Node.Basic
import SealedGraph.Registry.Table

/-!
# References

What a caller names by tokens. A token counts only if it was sealed with the caller's own key; the
descriptor in it is then believed, whatever the store says. A node may be used by its owner, by an
administrator, and by whoever the permissions in its descriptor allow it.
-/

namespace SealedGraph

/-- Why a reference is refused; the caller is not told. -/
inductive Denial
  | badNodeToken
  | badUserToken
  /-- a submitted node without a token -/
  | noToken
  /-- a submitted node that claims something else than its token says -/
  | otherClaims
  | notPermitted
  deriving DecidableEq, Repr

namespace Caller

/-- Whether the caller may do with a node what the required letters stand for. -/
def mayUse (c : Caller) (d : NodeDescriptor) (required : String) : Bool :=
  c.bypasses d.owner? || d.permissions.allows required

/-- The node that a token names, if the caller may use it. -/
def nodeReference (c : Caller) (required : String) (token : String) :
    Except Denial NodeDescriptor :=
  match NodeDescriptor.unpack c.key.bytes token with
  | .error _ => .error .badNodeToken
  | .ok d => if c.mayUse d required then .ok d else .error .notPermitted

/-- The uids that tokens name, if the caller may use all of them. -/
def nodeReferences (c : Caller) (required : String) (tokens : List String) :
    Except Denial (List String) :=
  tokens.mapM fun token => (c.nodeReference required token).map NodeDescriptor.uid

/-- The user that a token names. -/
def userReference (c : Caller) (token : String) : Except Denial UserDescriptor :=
  match UserDescriptor.unpack c.key.bytes token with
  | .error _ => .error .badUserToken
  | .ok d => .ok d

/-- Fails unless a submitted node is one that the caller may use, just as its token says. -/
def checkSubmitted (c : Caller) (required : String) (n : Node) : Except Denial Unit :=
  match n.token with
  | none => .error .noToken
  | some token =>
    match NodeDescriptor.unpack c.key.bytes token with
    | .error _ => .error .badNodeToken
    | .ok d =>
      if !n.hasDescriptor d then .error .otherClaims
      else if c.mayUse d required then .ok ()
      else .error .notPermitted

/-- Fails at the first submitted node that the caller may not use. -/
def checkAllSubmitted (c : Caller) (required : String) : List Node → Except Denial Unit
  | [] => .ok ()
  | n :: ns => do
    c.checkSubmitted required n
    c.checkAllSubmitted required ns

/-- Whether the caller may pass a node on to a recipient: it is readable, the recipient does not own
it anyway, and the caller owns it or it carries the permission to share. -/
def mayPassOn (c : Caller) (recipient : String) (n : Node) : Bool :=
  n.permissions.read && n.owner != some recipient && (c.bypasses n.owner || n.permissions.share)

/-- The groups of the nodes that the caller may pass on to a recipient, each once. -/
def groupsFor (c : Caller) (recipient : String) (members : List Node) : List String :=
  ((members.filter (c.mayPassOn recipient)).filterMap Node.group?).foldl
    (fun groups g => Registry.addTo g groups) []

end Caller

end SealedGraph
