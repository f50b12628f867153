import SealedGraph.Proofs.Store.Action
import SealedGraph.Store.Query

/-!
# Nodes and users kept whole

A `Record` has no room for a uid, for a token or for links, and an `Account` none for a uid or a
token, so that there is nothing about them that could be wrong. Here nodes and users are kept as
they come, with all that they have, and it is up to each operation to write over what is not to be
kept and to leave alone what is not its to change.

* `WholeStore`, and the operations on it: each looks up, checks and writes whole nodes and users.
* `Store.whole`: a store with its nodes and users written out.
* `create_whole`, `addEdges_whole`, …: an operation answers the same on both and leaves stores that
  belong together. That could not be so if it kept a token, a link or a uid that came in.
* `agrees_after`: and so do any number of them on empty stores.
-/

namespace SealedGraph

/-- A node as it is kept: all of it, and beside it the uids of the nodes that it links to. -/
structure NodeRecord where
  node : Node
  children : List String

/-- A user as it is kept: all of it, and beside it what belongs to the account. -/
structure UserRecord where
  user : User
  credential : Credential
  owned : List String
  shared : List String

/-- A store of whole nodes and users. -/
structure WholeStore where
  lastUid : Nat
  nodes : Index NodeRecord
  users : Index UserRecord
  usernames : Index String

/-- A node that came in, as it is stored: clients choose its permissions and its content, and the
rest is written over. -/
def Node.stored (owner group : String) (now : Timestamp) (uid : String) (n : Node) : Node :=
  { n with
    uid := uid, token := none, owner := some owner, group := some group, children := []
    created := some now, modified := some now }

/-- The name that an update gives a user, if it is not the one that the user has. -/
def UserRecord.newName? (r : UserRecord) (u : AccountUpdate) : Option String :=
  u.username.filter fun name => r.user.username ≠ some name

/-- What is kept of a user after an update: what the update names is written over. -/
def UserRecord.updated (r : UserRecord) (u : AccountUpdate) : UserRecord :=
  { r with
    user := { r.user with
      username := (r.newName? u).or r.user.username
      role := u.role.or r.user.role
      data := u.data.or r.user.data }
    credential := match u.password.filter fun p => !p.isEmpty with
      | some password => ⟨password⟩
      | none => r.credential }

/-! ### The operations -/

namespace WholeStore

open Store (assign checkBatch checkUpdates checkAccount roots edges distinct uidOf)

/-- The store without nodes and users. -/
def empty : WholeStore := ⟨0, ∅, ∅, ∅⟩

section Reading

variable (w : WholeStore)

/-- The node with a uid and its direct children. Queries read nothing else. -/
def expand? (uid : String) : Option Node :=
  (w.nodes.find? uid).map fun r =>
    { r.node with children := r.children.filterMap fun c => (w.nodes.find? c).map NodeRecord.node }

/-- The nodes with a relation to a user, each with its direct children. -/
def nodesOf (uid : String) (relation : Relation) : Except StoreError (List Node) :=
  match w.users.find? uid, relation with
  | some r, .own => .ok (r.owned.filterMap w.expand?)
  | some r, .shared => .ok (r.shared.filterMap w.expand?)
  | none, _ => .error (.noUser uid)

/-- The user with a uid. -/
def findUser (uid : String) : Option User := (w.users.find? uid).map UserRecord.user

/-- What is kept of the user with a username. -/
def recordNamed? (name : String) : Option UserRecord :=
  (w.usernames.find? name).bind fun uid => w.users.find? uid

/-- The user with a username. -/
def findUsername (name : String) : Option User := (w.recordNamed? name).map UserRecord.user

/-- The user with a username and a password. -/
def authenticate (name password : String) : Option User :=
  ((w.recordNamed? name).filter fun r => r.credential.accepts password).map UserRecord.user

/-- Fails unless all the uids belong to nodes. -/
def requireNodes (w : WholeStore) : List String → Except StoreError Unit
  | [] => .ok ()
  | uid :: uids => if w.nodes.contains uid then w.requireNodes uids else .error (.noNode uid)

/-- A node that is there, and the uids of its children behind it. -/
def withChildren (uid : String) : List String :=
  match w.nodes.find? uid with
  | some r => uid :: r.children
  | none => []

/-- Some nodes and their direct children, each once. -/
def members (uids : List String) : List Node :=
  (distinct [] (uids.flatMap w.withChildren)).filterMap fun uid =>
    (w.nodes.find? uid).map NodeRecord.node

end Reading

section Nodes

variable (now : Timestamp)

/-- Links one node to another, which then is the last of its children, unless it is one already. -/
def link (source target : String) (w : WholeStore) : WholeStore :=
  { w with nodes := w.nodes.modify source fun r =>
      { node := { r.node with modified := some now }
        children := if r.children.contains target then r.children else r.children ++ [target] } }

/-- Cuts one node off from another. A node that has as many children as before is not modified. -/
def unlink (source target : String) (w : WholeStore) : WholeStore :=
  { w with nodes := w.nodes.modify source fun r =>
      let kept := r.children.filter (· ≠ target)
      { node := if kept.length = r.children.length then r.node
          else { r.node with modified := some now }
        children := kept } }

/-- Links the incoming nodes to the subjects, and the subjects to the outgoing nodes. -/
def addEdges (w : WholeStore) (subjects incoming outgoing : List String) :
    Except StoreError Unit × WholeStore :=
  match w.requireNodes (subjects ++ incoming ++ outgoing) with
  | .error e => (.error e, w)
  | .ok () =>
    match subjects.find? fun uid => incoming.contains uid || outgoing.contains uid with
    | some uid => (.error (.selfLink uid), w)
    | none => (.ok (), (edges subjects incoming outgoing).foldl (fun w e => w.link now e.1 e.2) w)

/-- Removes the links that `addEdges` would add. -/
def removeEdges (w : WholeStore) (subjects incoming outgoing : List String) :
    Except StoreError Unit × WholeStore :=
  match w.requireNodes (subjects ++ incoming ++ outgoing) with
  | .error e => (.error e, w)
  | .ok () =>
    (.ok (), (edges subjects incoming outgoing).foldl (fun w e => w.unlink now e.1 e.2) w)

/-- Takes the content of a node that a client sent, and nothing else of it. -/
def setContent (n : Node) (w : WholeStore) : WholeStore :=
  { w with nodes := w.nodes.modify n.uid fun r =>
      { r with node := { r.node with content := n.content, modified := some now } } }

/-- The nodes as they are after each of them has been given its new content, in turn. -/
def applyContents : List Node → WholeStore → List Node × WholeStore
  | [], w => ([], w)
  | n :: ns, w =>
    let w := w.setContent now n
    let (updated, w') := applyContents ns w
    (((w.nodes.find? n.uid).map NodeRecord.node).toList ++ updated, w')

/-- Replaces the contents of nodes. -/
def update (w : WholeStore) (nodes : List Node) : Except StoreError (List Node) × WholeStore :=
  match w.requireNodes (nodes.map Node.uid) with
  | .error e => (.error e, w)
  | .ok () =>
    let (updated, w) := w.applyContents now nodes
    (.ok updated, w)

variable (group owner : String)

/-- Stores each node of a batch under the uid for its placeholder, with the uids for those that it
links to. -/
def addRecords (assigned : Index String) (batch : List Node) (w : WholeStore) : WholeStore :=
  batch.foldl
    (fun w n =>
      match assigned.find? n.uid with
      | some uid =>
        let children := n.children.filterMap fun c => assigned.find? c.uid
        { w with nodes := w.nodes.insert uid ⟨n.stored owner group now uid, children⟩ }
      | none => w)
    w

/-- The new nodes, each with its placeholder. -/
def createdNodes (assigned : Index String) (batch : List Node) : List (String × Node) :=
  batch.filterMap fun n =>
    (assigned.find? n.uid).map fun uid => (n.uid, n.stored owner group now uid)

/-- Hangs new nodes under a parent, or has them owned without one. -/
def attach (parent : Option String) (uids : List String) (w : WholeStore) : WholeStore :=
  match parent with
  | some parent => uids.foldl (fun w uid => w.link now parent uid) w
  | none => { w with users := w.users.modify owner fun r => { r with owned := r.owned ++ uids } }

/-- Fails unless there is something to create, and someone and something to create it for. -/
def checkCreate (w : WholeStore) (parent : Option String) (batch : List Node) :
    Except StoreError Unit :=
  if batch.isEmpty then .error .nothingToCreate
  else if !w.users.contains owner then .error (.noUser owner)
  else w.requireNodes parent.toList

/-- Creates a batch of nodes for an owner. -/
def create (w : WholeStore) (parent : Option String) (batch : List Node) :
    Except StoreError (List (String × Node)) × WholeStore :=
  match w.checkCreate owner parent batch with
  | .error e => (.error e, w)
  | .ok () =>
    match assign batch ∅ w.lastUid with
    | (.error e, last) => (.error e, { w with lastUid := last })
    | (.ok assigned, last) =>
      let w := { w with lastUid := last }
      match checkBatch assigned batch with
      | .error e => (.error e, w)
      | .ok () =>
        if (roots batch).isEmpty then (.error .noRoot, w)
        else
          let uids := (roots batch).filterMap assigned.find?
          (.ok (createdNodes now group owner assigned batch),
            (w.addRecords now group owner assigned batch).attach now owner parent uids)

end Nodes

section Users

/-- Changes the lists of users in turn. -/
def shareWith (change : ShareChange) (nodes : List String) :
    List String → WholeStore → Except StoreError Unit × WholeStore
  | [], w => (.ok (), w)
  | user :: users, w =>
    match w.users.find? user with
    | some r =>
      let r := { r with shared := change.apply nodes r.shared }
      shareWith change nodes users { w with users := w.users.insert user r }
    | none => (.error (.noUser user), w)

/-- Changes what is shared with users. Gives the nodes and their direct children. -/
def share (w : WholeStore) (change : ShareChange) (nodes users : List String) :
    Except StoreError (List Node) × WholeStore :=
  match w.requireNodes nodes with
  | .error e => (.error e, w)
  | .ok () =>
    match shareWith change nodes users w with
    | (.error e, w) => (.error e, w)
    | (.ok (), w) => (.ok (w.members nodes), w)

/-- Makes an account. -/
def createAccount (w : WholeStore) (new : NewAccount) : Except StoreError User × WholeStore :=
  match checkAccount (some new.username) (some new.role) with
  | .error e => (.error e, w)
  | .ok () =>
    if w.usernames.contains new.username then (.error (.usernameTaken new.username), w)
    else
      let uid := uidOf (w.lastUid + 1)
      let user : User := ⟨uid, none, some new.username, some new.role, new.data⟩
      (.ok user,
        { lastUid := w.lastUid + 1
          nodes := w.nodes
          users := w.users.insert uid ⟨user, ⟨new.password⟩, [], []⟩
          usernames := w.usernames.insert new.username uid })

/-- Fails at the first update of an account that is not there, or whose name is taken or claimed. -/
def checkClaims (w : WholeStore) : List AccountUpdate → Index String → Except StoreError Unit
  | [], _ => .ok ()
  | u :: us, claimed =>
    if !w.users.contains u.uid then .error (.noUser u.uid)
    else
      match u.username with
      | none => w.checkClaims us claimed
      | some name =>
        let isOther (uid : Option String) := uid.any (· ≠ u.uid)
        if isOther (w.usernames.find? name) || isOther (claimed.find? name) then
          .error (.usernameTaken name)
        else w.checkClaims us (claimed.insert name u.uid)

/-- The store after one update, and the user then. A new name is entered with the uid that the
stored user has. -/
def updateAccount (w : WholeStore) (u : AccountUpdate) : Option User × WholeStore :=
  match w.users.find? u.uid with
  | none => (none, w)
  | some r =>
    let usernames :=
      match r.newName? u with
      | some name => (r.user.username.elim w.usernames w.usernames.erase).insert name r.user.uid
      | none => w.usernames
    (some (r.updated u).user,
      { w with users := w.users.insert u.uid (r.updated u), usernames := usernames })

/-- The store after some updates in turn, and the users then. -/
def applyUpdates : List AccountUpdate → WholeStore → List User × WholeStore
  | [], w => ([], w)
  | u :: us, w =>
    let (user, w) := w.updateAccount u
    let (users, w) := applyUpdates us w
    (user.toList ++ users, w)

/-- Changes accounts. -/
def updateAccounts (w : WholeStore) (updates : List AccountUpdate) :
    Except StoreError (List User) × WholeStore :=
  match checkUpdates updates with
  | .error e => (.error e, w)
  | .ok () =>
    match w.checkClaims updates ∅ with
    | .error e => (.error e, w)
    | .ok () =>
      let (users, w) := w.applyUpdates updates
      (.ok users, w)

end Users

/-- The store after an operation. -/
def perform : Store.Action → WholeStore → WholeStore
  | .create now millis random owner parent batch, w =>
    (w.create now (Fresh.groupId millis random) owner parent batch).2
  | .update now nodes, w => (w.update now nodes).2
  | .addEdges now subjects incoming outgoing, w => (w.addEdges now subjects incoming outgoing).2
  | .removeEdges now subjects incoming outgoing, w =>
    (w.removeEdges now subjects incoming outgoing).2
  | .share change nodes users, w => (w.share change nodes users).2
  | .createAccount new, w => (w.createAccount new).2
  | .updateAccounts updates, w => (w.updateAccounts updates).2

/-- The store after some operations on an empty one. -/
def after (actions : List Store.Action) : WholeStore :=
  actions.foldl (fun w action => perform action w) empty

end WholeStore

/-! ### Stores written out -/

/-- A record as a whole node. -/
def Record.whole (uid : String) (r : Record) : NodeRecord := ⟨r.toNode uid, r.children⟩

/-- An account as a whole user. -/
def Account.whole (uid : String) (a : Account) : UserRecord :=
  ⟨a.toUser uid, a.credential, a.owned, a.shared⟩

/-- The store with its nodes and its users written out. -/
def Store.whole (s : Store) : WholeStore :=
  ⟨s.lastUid, s.nodes.mapWithKey Record.whole, s.accounts.mapWithKey Account.whole, s.usernames⟩

/-- An answer, with the store written out. -/
def inWhole {α : Type} (x : α × Store) : α × WholeStore := (x.1, x.2.whole)

namespace WholeStore

open Store (assign checkBatch checkUpdates checkAccount roots edges)

variable {now : Timestamp} {group owner : String}

@[simp] theorem find?_whole_nodes (s : Store) (uid : String) :
    s.whole.nodes.find? uid = (s.nodes.find? uid).map (Record.whole uid) :=
  Index.find?_mapWithKey _ _

@[simp] theorem find?_whole_users (s : Store) (uid : String) :
    s.whole.users.find? uid = (s.accounts.find? uid).map (Account.whole uid) :=
  Index.find?_mapWithKey _ _

@[simp] theorem contains_whole_nodes (s : Store) (uid : String) :
    s.whole.nodes.contains uid = s.hasNode uid :=
  Index.contains_mapWithKey _ _

@[simp] theorem contains_whole_users (s : Store) (uid : String) :
    s.whole.users.contains uid = s.hasAccount uid :=
  Index.contains_mapWithKey _ _

/-! ### What is read -/

/-- A node that is looked up is the whole of what is kept. -/
theorem node_whole (s : Store) (uid : String) :
    (s.whole.nodes.find? uid).map NodeRecord.node = s.node? uid := by
  rw [find?_whole_nodes, Option.map_map]
  rfl

theorem expand?_whole (s : Store) (uid : String) : s.whole.expand? uid = s.expand? uid := by
  unfold expand? Store.expand?
  simp only [node_whole]
  rw [find?_whole_nodes, Option.map_map]
  rfl

theorem nodesOf_whole (s : Store) (uid : String) (relation : Relation) :
    s.whole.nodesOf uid relation = s.nodesOf uid relation := by
  have hexpand : s.whole.expand? = s.expand? := funext (expand?_whole s)
  unfold nodesOf Store.nodesOf
  rw [find?_whole_users, hexpand]
  cases s.accounts.find? uid with
  | none => rfl
  | some a =>
    cases relation with
    | own => rfl
    | shared => rfl

theorem findUser_whole (s : Store) (uid : String) : s.whole.findUser uid = s.findUser uid := by
  unfold findUser Store.findUser
  rw [find?_whole_users, Option.map_map]
  rfl

theorem recordNamed?_whole (s : Store) (name : String) :
    s.whole.recordNamed? name = (s.accountNamed? name).map fun (uid, a) => a.whole uid := by
  unfold recordNamed? Store.accountNamed?
  simp only [find?_whole_users]
  cases hname : s.usernames.find? name with
  | none => simp [Store.whole, hname]
  | some uid =>
    cases ha : s.accounts.find? uid with
    | none => simp [Store.whole, hname, ha]
    | some a => simp [Store.whole, hname, ha]

theorem findUsername_whole (s : Store) (name : String) :
    s.whole.findUsername name = s.findUsername name := by
  unfold findUsername Store.findUsername
  rw [recordNamed?_whole, Option.map_map]
  rfl

theorem authenticate_whole (s : Store) (name password : String) :
    s.whole.authenticate name password = s.authenticate name password := by
  unfold authenticate Store.authenticate
  rw [recordNamed?_whole]
  cases s.accountNamed? name with
  | none => rfl
  | some found =>
    obtain ⟨uid, a⟩ := found
    cases h : a.credential.accepts password with
    | true => simp [Account.whole, h]
    | false => simp [Account.whole, h]

theorem requireNodes_whole (s : Store) (uids : List String) :
    s.whole.requireNodes uids = s.requireNodes uids := by
  induction uids with
  | nil => rfl
  | cons uid uids ih => rw [requireNodes, Store.requireNodes, contains_whole_nodes, ih]

theorem flatMap_withChildren_whole (s : Store) (uids : List String) :
    uids.flatMap s.whole.withChildren = s.withChildren uids := by
  refine List.flatMap_congr fun uid _ => ?_
  rw [withChildren, find?_whole_nodes]
  cases s.nodes.find? uid with
  | none => rfl
  | some r => rfl

theorem members_whole (s : Store) (uids : List String) :
    s.whole.members uids = s.members uids := by
  have hnode : (fun uid => (s.whole.nodes.find? uid).map NodeRecord.node) = s.node? :=
    funext (node_whole s)
  rw [members, flatMap_withChildren_whole, hnode]
  rfl

/-! ### Changes of nodes -/

/-- **A node is changed** in the same way on both sides, if what is written to its record is what is
written to the whole of it. -/
theorem modify_whole {uid : String} {f : Record → Record} {g : NodeRecord → NodeRecord}
    (h : ∀ r, (f r).whole uid = g (r.whole uid)) (s : Store) :
    { s with nodes := s.nodes.modify uid f }.whole =
      { s.whole with nodes := s.whole.nodes.modify uid g } := by
  simp only [Store.whole, Index.mapWithKey_modify s.nodes uid h]

theorem link_whole (source target : String) (s : Store) :
    s.whole.link now source target = (s.link now source target).whole :=
  (modify_whole (fun _ => rfl) s).symm

theorem unlink_whole (source target : String) (s : Store) :
    s.whole.unlink now source target = (s.unlink now source target).whole := by
  refine (modify_whole (fun r => ?_) s).symm
  show _ = (⟨if (r.children.filter (· ≠ target)).length = r.children.length then r.toNode source
    else { r.toNode source with modified := some now }, r.children.filter (· ≠ target)⟩ :
      NodeRecord)
  by_cases h : r.children.contains target = true
  · have hlen : (r.children.filter (· ≠ target)).length ≠ r.children.length := by
      rw [Ne, List.length_filter_eq_length_iff]
      intro hall
      simpa using hall target (List.contains_iff_mem.1 h)
    rw [if_pos h, if_neg hlen]
    rfl
  · have hall : r.children.filter (· ≠ target) = r.children := by
      rw [List.filter_eq_self]
      intro c hc
      have : c ≠ target := fun e => h (List.contains_iff_mem.2 (e ▸ hc))
      simpa using this
    rw [if_neg h, hall, if_pos rfl]
    rfl

/-- **Changes in turn** leave stores that belong together if each of them does. -/
theorem foldl_whole {α : Type} {f : Store → α → Store} {g : WholeStore → α → WholeStore}
    (h : ∀ s x, g s.whole x = (f s x).whole) (xs : List α) (s : Store) :
    xs.foldl g s.whole = (xs.foldl f s).whole :=
  List.foldl_hom Store.whole h

theorem addEdges_whole (s : Store) (now : Timestamp) (subjects incoming outgoing : List String) :
    s.whole.addEdges now subjects incoming outgoing =
      inWhole (s.addEdges now subjects incoming outgoing) := by
  unfold addEdges Store.addEdges
  rw [requireNodes_whole, foldl_whole fun s e => link_whole e.1 e.2 s]
  cases s.requireNodes (subjects ++ incoming ++ outgoing) with
  | error e => rfl
  | ok _ =>
    simp only
    cases subjects.find? fun uid => incoming.contains uid || outgoing.contains uid with
    | some uid => rfl
    | none => rfl

theorem removeEdges_whole (s : Store) (now : Timestamp)
    (subjects incoming outgoing : List String) :
    s.whole.removeEdges now subjects incoming outgoing =
      inWhole (s.removeEdges now subjects incoming outgoing) := by
  unfold removeEdges Store.removeEdges
  rw [requireNodes_whole, foldl_whole fun s e => unlink_whole e.1 e.2 s]
  cases s.requireNodes (subjects ++ incoming ++ outgoing) with
  | error e => rfl
  | ok _ => rfl

theorem setContent_whole (n : Node) (s : Store) :
    s.whole.setContent now n = (s.setContent now n.uid n.content).whole :=
  (modify_whole (fun _ => rfl) s).symm

theorem applyContents_whole (nodes : List Node) (s : Store) :
    s.whole.applyContents now nodes = inWhole (Store.applyContents now nodes s) := by
  induction nodes generalizing s with
  | nil => rfl
  | cons n ns ih =>
    simp only [applyContents, Store.applyContents, setContent_whole, ih, node_whole]
    rfl

theorem update_whole (s : Store) (now : Timestamp) (nodes : List Node) :
    s.whole.update now nodes = inWhole (s.update now nodes) := by
  unfold update Store.update
  rw [requireNodes_whole, applyContents_whole]
  cases s.requireNodes (nodes.map Node.uid) with
  | error e => rfl
  | ok _ => rfl

/-! ### New nodes -/

/-- **What is written over** in a node that came in is all that a record has no room for. -/
theorem whole_newRecord (assigned : Index String) (uid : String) (n : Node) :
    (Store.newRecord owner group now assigned n).whole uid =
      ⟨n.stored owner group now uid, n.children.filterMap fun c => assigned.find? c.uid⟩ := rfl

theorem addRecords_whole (assigned : Index String) (batch : List Node) (s : Store) :
    s.whole.addRecords now group owner assigned batch =
      (s.addRecords owner group now assigned batch).whole := by
  refine foldl_whole (fun s n => ?_) batch s
  cases assigned.find? n.uid with
  | none => rfl
  | some uid =>
    simp only [Store.whole, Index.mapWithKey_insert, whole_newRecord]

theorem attach_whole (parent : Option String) (uids : List String) (s : Store) :
    s.whole.attach now owner parent uids = (s.attach now owner parent uids).whole := by
  cases parent with
  | some parent => exact foldl_whole (fun s uid => link_whole parent uid s) uids s
  | none =>
    have howned : (s.accounts.modify owner fun a => { a with owned := a.owned ++ uids }).mapWithKey
        Account.whole = s.whole.users.modify owner fun r => { r with owned := r.owned ++ uids } :=
      Index.mapWithKey_modify s.accounts owner fun _ => rfl
    unfold attach Store.attach
    simp only [Store.whole] at howned ⊢
    rw [howned]

theorem checkCreate_whole (s : Store) (owner : String) (parent : Option String)
    (batch : List Node) :
    s.whole.checkCreate owner parent batch = s.checkCreate owner parent batch := by
  unfold checkCreate Store.checkCreate
  rw [contains_whole_users, requireNodes_whole]

theorem create_whole (s : Store) (now : Timestamp) (group owner : String)
    (parent : Option String) (batch : List Node) :
    s.whole.create now group owner parent batch =
      inWhole (s.create now group owner parent batch) := by
  unfold create Store.create
  have hnumber : s.whole.lastUid = s.lastUid := rfl
  rw [checkCreate_whole, hnumber]
  cases s.checkCreate owner parent batch with
  | error e => rfl
  | ok _ =>
    simp only
    rcases assign batch ∅ s.lastUid with ⟨e | assigned, last⟩
    · rfl
    · simp only
      cases checkBatch assigned batch with
      | error e => rfl
      | ok _ =>
        simp only
        by_cases hroots : (roots batch).isEmpty = true
        · rw [if_pos hroots, if_pos hroots]
          rfl
        · have hlast : { s.whole with lastUid := last } = { s with lastUid := last }.whole := rfl
          rw [if_neg hroots, if_neg hroots, hlast, addRecords_whole, attach_whole]
          rfl

/-! ### Users -/

/-- An account is written, with the whole user. -/
theorem insert_whole (uid : String) (a : Account) (s : Store) :
    { s with accounts := s.accounts.insert uid a }.whole =
      { s.whole with users := s.whole.users.insert uid (a.whole uid) } := by
  simp only [Store.whole, Index.mapWithKey_insert]

theorem shareWith_whole (change : ShareChange) (nodes users : List String) (s : Store) :
    shareWith change nodes users s.whole = inWhole (Store.shareWith change nodes users s) := by
  induction users generalizing s with
  | nil => rfl
  | cons user users ih =>
    unfold shareWith Store.shareWith
    rw [find?_whole_users]
    cases ha : s.accounts.find? user with
    | none => rfl
    | some a =>
      have hwrite := insert_whole user { a with shared := change.apply nodes a.shared } s
      simp only [Option.map_some]
      rw [← ih, hwrite]
      rfl

theorem share_whole (s : Store) (change : ShareChange) (nodes users : List String) :
    s.whole.share change nodes users = inWhole (s.share change nodes users) := by
  unfold share Store.share
  rw [requireNodes_whole, shareWith_whole]
  cases s.requireNodes nodes with
  | error e => rfl
  | ok _ =>
    simp only
    rcases Store.shareWith change nodes users s with ⟨e | _, t⟩
    · rfl
    · simp only [inWhole, members_whole]

theorem createAccount_whole (s : Store) (new : NewAccount) :
    s.whole.createAccount new = inWhole (s.createAccount new) := by
  have hknown : s.whole.usernames.contains new.username = s.isKnown new.username := rfl
  unfold createAccount Store.createAccount
  rw [hknown]
  cases checkAccount (some new.username) (some new.role) with
  | error e => rfl
  | ok _ =>
    simp only
    by_cases h : s.isKnown new.username = true
    · rw [if_pos h, if_pos h]
      rfl
    · rw [if_neg h, if_neg h]
      simp only [inWhole, Store.whole, Index.mapWithKey_insert]
      rfl

theorem checkClaims_whole (s : Store) (updates : List AccountUpdate) (claimed : Index String) :
    s.whole.checkClaims updates claimed = s.checkClaims updates claimed := by
  induction updates generalizing claimed with
  | nil => rfl
  | cons u us ih =>
    unfold checkClaims Store.checkClaims
    rw [contains_whole_users]
    simp only [ih]
    rfl

theorem newName?_whole (uid : String) (a : Account) (u : AccountUpdate) :
    (a.whole uid).newName? u =
      if (a.updated u).username = a.username then none else some (a.updated u).username := by
  unfold UserRecord.newName? Account.updated Account.whole Account.toUser
  cases hname : u.username with
  | none => simp
  | some name =>
    by_cases h : name = a.username
    · simp [Option.filter, h]
    · simp [Option.filter, h, Ne.symm h]

/-- **An update writes the same** to an account and to the whole user. -/
theorem updated_whole (uid : String) (a : Account) (u : AccountUpdate) :
    (a.whole uid).updated u = (a.updated u).whole uid := by
  have hname : ((a.whole uid).newName? u).or (some a.username) =
      some (a.updated u).username := by
    rw [newName?_whole]
    split
    · rename_i h
      rw [h, Option.none_or]
    · rfl
  have hrole : u.role.or (some a.role) = some (a.updated u).role := Option.or_some
  unfold UserRecord.updated
  simp only [Account.whole, Account.toUser] at hname ⊢
  rw [hname, hrole]
  rfl

/-- **A user is changed** as the account is. The new name is entered for the uid that the stored user
has, which is the one that the user is stored under. -/
theorem updateAccount_whole (s : Store) (u : AccountUpdate) :
    s.whole.updateAccount u = inWhole (s.updateAccount u) := by
  unfold updateAccount Store.updateAccount
  rw [find?_whole_users]
  cases s.accounts.find? u.uid with
  | none => rfl
  | some a =>
    simp only [Option.map_some, updated_whole, newName?_whole, inWhole, Store.whole,
      Index.mapWithKey_insert]
    by_cases h : (a.updated u).username = a.username
    · simp only [if_pos h]
      rfl
    · simp only [if_neg h]
      rfl

theorem applyUpdates_whole (updates : List AccountUpdate) (s : Store) :
    s.whole.applyUpdates updates = inWhole (Store.applyUpdates updates s) := by
  induction updates generalizing s with
  | nil => rfl
  | cons u us ih =>
    simp only [applyUpdates, Store.applyUpdates, updateAccount_whole, inWhole]
    rw [ih]
    rfl

theorem updateAccounts_whole (s : Store) (updates : List AccountUpdate) :
    s.whole.updateAccounts updates = inWhole (s.updateAccounts updates) := by
  unfold updateAccounts Store.updateAccounts
  rw [checkClaims_whole, applyUpdates_whole]
  cases checkUpdates updates with
  | error e => rfl
  | ok _ =>
    simp only
    cases s.checkClaims updates ∅ with
    | error e => rfl
    | ok _ => rfl

/-! ### Any number of operations -/

/-- **An operation** leaves stores that belong together. -/
theorem perform_whole (action : Store.Action) (s : Store) :
    perform action s.whole = (action.perform s).whole := by
  cases action with
  | create now millis random owner parent batch =>
    exact congrArg Prod.snd (create_whole s now _ owner parent batch)
  | update now nodes => exact congrArg Prod.snd (update_whole s now nodes)
  | addEdges now subjects incoming outgoing =>
    exact congrArg Prod.snd (addEdges_whole s now subjects incoming outgoing)
  | removeEdges now subjects incoming outgoing =>
    exact congrArg Prod.snd (removeEdges_whole s now subjects incoming outgoing)
  | share change nodes users => exact congrArg Prod.snd (share_whole s change nodes users)
  | createAccount new => exact congrArg Prod.snd (createAccount_whole s new)
  | updateAccounts updates => exact congrArg Prod.snd (updateAccounts_whole s updates)

theorem after_whole (actions : List Store.Action) : after actions = (Store.after actions).whole :=
  foldl_whole (fun s action => perform_whole action s) actions Store.empty

/-- One store is the other written out, and nothing that is read or done tells them apart. -/
structure Agrees (w : WholeStore) (s : Store) : Prop where
  stored : w = s.whole
  expand? : ∀ uid, w.expand? uid = s.expand? uid
  nodesOf : ∀ uid relation, w.nodesOf uid relation = s.nodesOf uid relation
  findUser : ∀ uid, w.findUser uid = s.findUser uid
  findUsername : ∀ name, w.findUsername name = s.findUsername name
  authenticate : ∀ name password, w.authenticate name password = s.authenticate name password
  create : ∀ now group owner parent batch,
    w.create now group owner parent batch = inWhole (s.create now group owner parent batch)
  update : ∀ now nodes, w.update now nodes = inWhole (s.update now nodes)
  addEdges : ∀ now subjects incoming outgoing,
    w.addEdges now subjects incoming outgoing = inWhole (s.addEdges now subjects incoming outgoing)
  removeEdges : ∀ now subjects incoming outgoing,
    w.removeEdges now subjects incoming outgoing =
      inWhole (s.removeEdges now subjects incoming outgoing)
  share : ∀ change nodes users, w.share change nodes users = inWhole (s.share change nodes users)
  createAccount : ∀ new, w.createAccount new = inWhole (s.createAccount new)
  updateAccounts : ∀ updates, w.updateAccounts updates = inWhole (s.updateAccounts updates)

theorem agrees_whole (s : Store) : Agrees s.whole s where
  stored := rfl
  expand? := expand?_whole s
  nodesOf := nodesOf_whole s
  findUser := findUser_whole s
  findUsername := findUsername_whole s
  authenticate := authenticate_whole s
  create := create_whole s
  update := update_whole s
  addEdges := addEdges_whole s
  removeEdges := removeEdges_whole s
  share := share_whole s
  createAccount := createAccount_whole s
  updateAccounts := updateAccounts_whole s

/-- **Any operations on empty stores** leave two that agree. -/
theorem agrees_after (actions : List Store.Action) :
    Agrees (after actions) (Store.after actions) := by
  rw [after_whole]
  exact agrees_whole _

end WholeStore

end SealedGraph
