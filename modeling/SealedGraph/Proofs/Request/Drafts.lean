import Mathlib.Data.List.Forall2
import SealedGraph.Server.Call

/-!
# What clients decide of new nodes

Of a new node a client decides the placeholder, the permissions, the contents, and by their
placeholders the nodes that it links to. Whatever else is said of it is gone before anything is done:
a request that is stripped of all this beforehand is bound in the very same way, refusals included.

* `Node.DraftedAlike`: two new nodes of which clients decided the same.
* `CreateRequest.bind_stripped`, `RootRequest.bind_stripped`: binding sees nothing else.
* `drafts_decide_creation`: what is created, answered and stored depends on nothing else.
-/

namespace SealedGraph

namespace Node

/-- Two new nodes have all that a client may decide in common. -/
structure DraftedAlike (n n' : Node) : Prop where
  uid : n.uid = n'.uid
  permissions : n.permissions = n'.permissions
  content : n.content = n'.content
  links : n.children.map Node.uid = n'.children.map Node.uid

/-- Two new nodes have all that a client may decide of a root in common; roots link to nothing. -/
structure RootedAlike (n n' : Node) : Prop where
  uid : n.uid = n'.uid
  permissions : n.permissions = n'.permissions
  content : n.content = n'.content

variable {n n' : Node}

theorem map_ofUid (children : List Node) :
    (children.map fun k => ofUid k.uid) = (children.map uid).map ofUid := by
  rw [List.map_map]
  rfl

/-- **What is left of a new node** is what a client may decide. -/
theorem DraftedAlike.asNew_eq (h : DraftedAlike n n') : n.asNew = n'.asNew := by
  unfold asNew
  rw [map_ofUid, map_ofUid, h.uid, h.permissions, h.content, h.links]

theorem asNew_asNew (n : Node) : n.asNew.asNew = n.asNew := by
  unfold asNew
  simp only [map_ofUid, List.map_map]
  rfl

/-- A new root node without anything that a client may not decide of it. -/
def asRoot (n : Node) : Node := { n.asNew with children := [] }

theorem RootedAlike.asRoot_eq (h : RootedAlike n n') : n.asRoot = n'.asRoot := by
  unfold asRoot asNew
  rw [h.uid, h.permissions, h.content]

end Node

/-! ### Binding -/

namespace CreateRequest

/-- The request without anything that a client may not decide. -/
def stripped (r : CreateRequest) : CreateRequest := ⟨r.parent, r.nodes.map Node.asNew⟩

theorem checkChildren_stripped (uid : String) (children : List Node) :
    checkChildren uid (children.map fun k => Node.ofUid k.uid) = checkChildren uid children := by
  induction children with
  | nil => rfl
  | cons k ks ih =>
    rw [List.map_cons, checkChildren, checkChildren, ih]
    rfl

theorem checkNodes_stripped (nodes : List Node) :
    checkNodes (nodes.map Node.asNew) = checkNodes nodes := by
  induction nodes with
  | nil => rfl
  | cons n ns ih =>
    have hchildren := checkChildren_stripped n.uid n.children
    rw [List.map_cons, checkNodes, checkNodes, ih, ← hchildren]
    rfl

/-- **Binding sees nothing of what it strips off**: neither the checks before nor what is left
depend on it. -/
theorem bind_stripped (r : CreateRequest) (c : Caller) : r.stripped.bind c = r.bind c := by
  have hempty : (r.nodes.map Node.asNew).isEmpty = r.nodes.isEmpty := List.isEmpty_map
  have hnodes : (r.nodes.map Node.asNew).map Node.asNew = r.nodes.map Node.asNew := by
    rw [List.map_map]
    exact List.map_congr_left fun n _ => n.asNew_asNew
  unfold bind stripped
  simp only [hempty, hnodes, checkNodes_stripped]

end CreateRequest

namespace RootRequest

/-- The request without anything that a client may not decide. -/
def stripped (r : RootRequest) : RootRequest := ⟨r.node.map Node.asRoot⟩

theorem bind_stripped (r : RootRequest) (c : Caller) : r.stripped.bind c = r.bind c := by
  obtain ⟨node⟩ := r
  cases node with
  | none => rfl
  | some n => rfl

end RootRequest

/-! ### Creation -/

/-- **What is created depends on what clients may decide, and on nothing else they say.** Two requests
that name the same parent, and new nodes of which clients decided the same, one after the other, have
the same outcome and leave the same server behind, with the same store. So have two requests for a
root node, whatever the node is said to link to. -/
theorem drafts_decide_creation (m : Moment) (c : Caller) (s : Server) :
    (∀ r r' : CreateRequest, r.parent = r'.parent →
      List.Forall₂ Node.DraftedAlike r.nodes r'.nodes →
      ((Call.create r).perform m c).run s = ((Call.create r').perform m c).run s) ∧
    ∀ r r' : RootRequest, Option.Rel Node.RootedAlike r.node r'.node →
      ((Call.createRoot r).perform m c).run s = ((Call.createRoot r').perform m c).run s := by
  constructor
  · intro r r' hparent hnodes
    have hnew : r.nodes.map Node.asNew = r'.nodes.map Node.asNew := by
      rw [← List.forall₂_eq_eq_eq, List.forall₂_map_left_iff, List.forall₂_map_right_iff]
      exact hnodes.imp fun _ _ h => h.asNew_eq
    have hbind : r.bind c = r'.bind c := by
      rw [← r.bind_stripped, ← r'.bind_stripped, CreateRequest.stripped, CreateRequest.stripped,
        hparent, hnew]
    simp only [Call.perform, hbind]
  · intro r r' hnode
    have hroot : r.node.map Node.asRoot = r'.node.map Node.asRoot := by
      cases hr : r.node with
      | none =>
        cases hr' : r'.node with
        | none => rfl
        | some n' => rw [hr, hr'] at hnode; cases hnode
      | some n =>
        cases hr' : r'.node with
        | none => rw [hr, hr'] at hnode; cases hnode
        | some n' =>
          rw [hr, hr'] at hnode
          cases hnode with
          | some h => rw [Option.map_some, Option.map_some, h.asRoot_eq]
    have hbind : r.bind c = r'.bind c := by
      rw [← r.bind_stripped, ← r'.bind_stripped, RootRequest.stripped, RootRequest.stripped, hroot]
    simp only [Call.perform, hbind]

/-! ### A forger -/

namespace Forgery

theorem secret_ne_nil : ([7] : List UInt8) ≠ [] := List.cons_ne_nil 7 []

def master : MasterSecret := ⟨[7], secret_ne_nil⟩

/-- A user who is no administrator. -/
def forger : Caller := .of master "0x1" "user" "s"

/-- A server with this user, and a node of the user to hang others under. -/
def server : Server where
  gate := ⟨master, 3600⟩
  maxFailures := 0
  store :=
    ⟨2, ⟨[("0x2", ⟨"0x1", .all, "G", [], .empty, ⟨0, 0⟩, ⟨0, 0⟩⟩)]⟩,
      ⟨[("0x1", ⟨"ann", "user", none, ⟨"a"⟩, ["0x2"], []⟩)]⟩, ⟨[("ann", "0x1")]⟩⟩
  registry := .responsive ⟨∅, ∅, ∅, 0⟩
  metrics := .empty

def moment : Moment := ⟨⟨5, 0⟩, 0, "s", "H"⟩

/-- A new node that links to another one. -/
def honest : Node := { Node.ofUid "$a" with children := [.ofUid "$b"] }

/-- The same node with an owner, a group and times, and with more said of the node it links to. -/
def forged : Node :=
  { honest with
    token := some "t", owner := some "0x9", group := some "G", created := some ⟨0, 0⟩
    modified := some ⟨0, 0⟩
    children := [{ honest with uid := "$b", owner := some "0x9", permissions := .all }] }

/-- A request for the node and for the one it links to. -/
def request (n : Node) : CreateRequest :=
  ⟨NodeDescriptor.pack forger.key.bytes ⟨"0x2", "0x1", .none⟩, [n, .ofUid "$b"]⟩

theorem draftedAlike : honest.DraftedAlike forged := ⟨rfl, rfl, rfl, rfl⟩

end Forgery

/-- What is forged makes no difference: the nodes are created as the user's own. -/
theorem drafts_decide_creation_forged :
    ((Call.create (Forgery.request Forgery.honest)).perform Forgery.moment Forgery.forger).run
        Forgery.server =
      ((Call.create (Forgery.request Forgery.forged)).perform Forgery.moment Forgery.forger).run
        Forgery.server ∧
    ((Call.createRoot ⟨some Forgery.honest⟩).perform Forgery.moment Forgery.forger).run
        Forgery.server =
      ((Call.createRoot ⟨some Forgery.forged⟩).perform Forgery.moment Forgery.forger).run
        Forgery.server ∧
    (((Call.create (Forgery.request Forgery.forged)).perform Forgery.moment Forgery.forger).run
        Forgery.server).2.store.nodes.find? "0x3" =
      some ⟨"0x1", .none, "H", ["0x4"], .empty, ⟨5, 0⟩, ⟨5, 0⟩⟩ := by
  have h := drafts_decide_creation Forgery.moment Forgery.forger Forgery.server
  refine ⟨h.1 _ _ rfl (.cons Forgery.draftedAlike (.cons ⟨rfl, rfl, rfl, rfl⟩ .nil)),
    h.2 _ _ (.some ⟨rfl, rfl, rfl⟩), by decide +kernel⟩

end SealedGraph
