import SealedGraph.Descriptor
import SealedGraph.Double.Basic
import SealedGraph.Identity
import SealedGraph.Time.Timestamp

/-!
# Nodes

A node as it travels: what authorizes access to it, its contents, and the nodes that it links to,
which may bring their own links in turn.

* `Node.hasDescriptor_iff`: a descriptor is a node's own when uid, owner and permissions agree.
-/

namespace SealedGraph

/-- The contents of a node, all of them chosen by its users. -/
structure Content where
  id : Option String
  type : Option String
  privateData : Option String
  s1 : Option String
  s2 : Option String
  s3 : Option String
  s4 : Option String
  blob : Option String
  n1 : Option Double
  n2 : Option Double
  deriving DecidableEq, Repr

/-- No contents. -/
def Content.empty : Content := ⟨none, none, none, none, none, none, none, none, none, none⟩

instance : Inhabited Content := ⟨.empty⟩

/-- A node. -/
structure Node where
  uid : String
  /-- the token of its descriptor under the key of whoever may use it -/
  token : Option String
  /-- the uid of its owner -/
  owner : Option String
  permissions : Permissions
  /-- the id of the group that it was created in and is shared with -/
  group : Option String
  children : List Node
  content : Content
  created : Option Timestamp
  modified : Option Timestamp
  deriving Repr

namespace Node

mutual

/-- Whether two nodes are the same. -/
def decEq : (a b : Node) → Decidable (a = b)
  | ⟨u, t, o, p, g, cs, x, c, m⟩, ⟨u', t', o', p', g', cs', x', c', m'⟩ =>
    match decEqList cs cs' with
    | isTrue h =>
      if h' : u = u' ∧ t = t' ∧ o = o' ∧ p = p' ∧ g = g' ∧ x = x' ∧ c = c' ∧ m = m' then
        isTrue (by obtain ⟨rfl, rfl, rfl, rfl, rfl, rfl, rfl, rfl⟩ := h'; rw [h])
      else isFalse (by rintro ⟨⟩; simp at h')
    | isFalse h => isFalse (by rintro ⟨⟩; exact h rfl)

/-- Whether two lists of nodes are the same. -/
def decEqList : (as bs : List Node) → Decidable (as = bs)
  | [], [] => isTrue rfl
  | [], _ :: _ => isFalse (by simp)
  | _ :: _, [] => isFalse (by simp)
  | a :: as, b :: bs =>
    match decEq a b, decEqList as bs with
    | isTrue h, isTrue h' => isTrue (by rw [h, h'])
    | isFalse h, _ => isFalse (by rintro ⟨⟩; exact h rfl)
    | _, isFalse h => isFalse (by rintro ⟨⟩; exact h rfl)

end

instance : DecidableEq Node := decEq

/-- The node with a uid and nothing else. -/
def ofUid (uid : String) : Node :=
  ⟨uid, none, none, .none, none, [], .empty, none, none⟩

instance : Inhabited Node := ⟨ofUid ""⟩

/-- What a node claims about its identity, owner and permissions. -/
def descriptor (n : Node) : NodeDescriptor := ⟨n.uid, n.owner.getD "", n.permissions⟩

/-- Whether the node claims an owner and nothing but what the descriptor says. -/
def hasDescriptor (n : Node) (d : NodeDescriptor) : Bool :=
  n.owner.isSome && n.descriptor = d

theorem hasDescriptor_iff {n : Node} {d : NodeDescriptor} :
    n.hasDescriptor d = true ↔
      n.uid = d.uid ∧ n.owner = some d.owner ∧ n.permissions = d.permissions := by
  obtain ⟨uid, owner, permissions⟩ := d
  cases h : n.owner <;> simp [hasDescriptor, descriptor, h]

/-- The id of the node's group, unless it is empty. -/
def group? (n : Node) : Option String := n.group.filter fun g => !g.isEmpty

/-- The node with the token of its descriptor under a key. -/
def sealWith (key : IdentityKey) (n : Node) : Node :=
  { n with token := some (n.descriptor.pack key.bytes) }

/-- The node and its direct children with the tokens of their descriptors under a key; children have
no children of their own then. -/
def stamp (key : IdentityKey) (n : Node) : Node :=
  { n.sealWith key with children := n.children.map fun c => { c.sealWith key with children := [] } }

end Node

end SealedGraph
