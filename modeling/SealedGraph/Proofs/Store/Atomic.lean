import SealedGraph.Proofs.Attempt
import SealedGraph.Proofs.Store.Batch
import SealedGraph.Proofs.Store.Usernames

/-!
# Operations are refused as a whole

An operation writes in many steps, and takes none of them back. What makes it atomic is that all
that can be refused is refused by the checks before the first step. Here the operations are said
once more, with steps that look again whether what they need is there and fail if it is not; such a
step could leave an operation half done, but none does.

* `linkInPlace`, `contentInPlace`, `recordInPlace`, …: steps that can fail.
* `run_addEdgesInPlace`, `run_createInPlace`, …: none of them does after the checks, so that the
  operations come to what they come to without looking again.
* `run_oneByOne`: a list of updates that is taken in is also taken in update by update.
* `mutations_atomic`: no operation that is refused leaves anything behind but used up uids.
-/

namespace SealedGraph.Store

open Attempt

/-- Work on a store. What it wrote before it fails stays written. -/
abbrev Writing (α : Type) : Type := Attempt Store StoreError α

/-- What is there, or an error. -/
def found {α : Type} (e : StoreError) : Option α → Except StoreError α
  | some a => .ok a
  | none => .error e

/-! ### The operations in steps -/

section InPlace

variable (now : Timestamp)

/-- Fails unless all the uids belong to nodes. -/
def nodesThere (uids : List String) : Writing Unit := of fun s => (s.requireNodes uids, s)

/-- Links a node to another one, both of which have to be there. -/
def linkInPlace (source target : String) : Writing Unit :=
  if source = target then fail (.selfLink source)
  else do
    nodesThere [target, source]
    change (link now source target)

/-- Cuts a node off from another one, both of which have to be there. -/
def unlinkInPlace (source target : String) : Writing Unit := do
  nodesThere [target, source]
  change (unlink now source target)

/-- `addEdges` in steps. -/
def addEdgesInPlace (subjects incoming outgoing : List String) : Writing Unit := do
  nodesThere (subjects ++ incoming ++ outgoing)
  match subjects.find? fun uid => incoming.contains uid || outgoing.contains uid with
  | some uid => fail (.selfLink uid)
  | none => (edges subjects incoming outgoing).forM fun e => linkInPlace now e.1 e.2

/-- `removeEdges` in steps. -/
def removeEdgesInPlace (subjects incoming outgoing : List String) : Writing Unit := do
  nodesThere (subjects ++ incoming ++ outgoing)
  (edges subjects incoming outgoing).forM fun e => unlinkInPlace now e.1 e.2

/-- Replaces the contents of a node, which has to be there. -/
def contentInPlace (n : Node) : Writing Node := do
  nodesThere [n.uid]
  change (setContent now n.uid n.content)
  known (found (.noNode n.uid) ((← state).node? n.uid))

/-- `update` in steps. -/
def updateInPlace (nodes : List Node) : Writing (List Node) := do
  nodesThere (nodes.map Node.uid)
  nodes.mapM (contentInPlace now)

variable (group owner : String)

/-- The uid for a placeholder, which has to have one. -/
def uidFor (assigned : Index String) (placeholder : String) : Except StoreError String :=
  found (.unknownPlaceholder placeholder) (assigned.find? placeholder)

/-- Stores a node of a batch. Its placeholder and those that it links to have to have uids. -/
def recordInPlace (assigned : Index String) (n : Node) : Writing (String × Node) := do
  let uid ← known (uidFor assigned n.uid)
  let children ← known (n.children.mapM fun k => uidFor assigned k.uid)
  let r : Record := ⟨owner, n.permissions, group, children, n.content, now, now⟩
  change fun s => { s with nodes := s.nodes.insert uid r }
  return (n.uid, r.toNode uid)

/-- Hangs new nodes up, under a parent or on the list of an owner who has to have an account. -/
def attachInPlace : Option String → List String → Writing Unit
  | some parent, uids => uids.forM fun uid => linkInPlace now parent uid
  | none, uids => do
    let a ← known (found (.noUser owner) ((← state).accounts.find? owner))
    change fun s =>
      { s with accounts := s.accounts.insert owner { a with owned := a.owned ++ uids } }

/-- Assigns uids, which stay used up if that fails. -/
def assignInPlace (batch : List Node) : Writing (Index String) :=
  of fun s => ((assign batch ∅ s.lastUid).1, { s with lastUid := (assign batch ∅ s.lastUid).2 })

/-- Stores a batch and hangs it up. -/
def embedInPlace (parent : Option String) (batch : List Node) (assigned : Index String) :
    Writing (List (String × Node)) := do
  let uids ← known ((roots batch).mapM (uidFor assigned))
  let created ← batch.mapM (recordInPlace now group owner assigned)
  attachInPlace now owner parent uids
  return created

/-- `create` in steps. -/
def createInPlace (parent : Option String) (batch : List Node) :
    Writing (List (String × Node)) := do
  known ((← state).checkCreate owner parent batch)
  let assigned ← assignInPlace batch
  known (checkBatch assigned batch)
  if (roots batch).isEmpty then fail .noRoot
  else embedInPlace now group owner parent batch assigned

/-- `createAccount` in steps. -/
def createAccountInPlace (new : NewAccount) : Writing User := do
  known (checkAccount (some new.username) (some new.role))
  let s ← state
  if s.isKnown new.username then fail (.usernameTaken new.username)
  else do
    let uid := s.freshUid
    let a : Account := ⟨new.username, new.role, new.data, ⟨new.password⟩, [], []⟩
    change fun s => { s with lastUid := s.lastUid + 1 }
    change fun s => { s with usernames := s.usernames.insert new.username uid }
    change fun s => { s with accounts := s.accounts.insert uid a }
    return a.toUser uid

/-- Changes an account, which has to be there. -/
def accountInPlace (u : AccountUpdate) : Writing User :=
  of fun s => (found (.noUser u.uid) (s.updateAccount u).1, (s.updateAccount u).2)

/-- `updateAccounts` in steps. -/
def updateAccountsInPlace (updates : List AccountUpdate) : Writing (List User) := do
  known (checkUpdates updates)
  known ((← state).checkClaims updates ∅)
  updates.mapM accountInPlace

/-- Takes in updates one by one, each for itself. -/
def oneByOne : List AccountUpdate → Writing (List User)
  | [] => return []
  | u :: us => do
    let users ← of fun s => s.updateAccounts [u]
    return users ++ (← oneByOne us)

end InPlace

/-! ### Edges and contents -/

section Edges

variable {now : Timestamp} {s : Store} {source target : String}
  (subjects incoming outgoing : List String)

theorem run_nodesThere {uids : List String} (h : ∀ uid ∈ uids, s.hasNode uid = true) :
    (nodesThere uids).run s = (.ok (), s) := by
  rw [nodesThere, run_of, requireNodes_eq_ok_iff.2 h]

/-- What comes after the check is done if all the nodes are there. -/
theorem run_nodesThere_bind {α : Type} {uids : List String} {f : Unit → Writing α}
    {outcome : Except StoreError α × Store}
    (h : (∀ uid ∈ uids, s.hasNode uid = true) → (f ()).run s = outcome) :
    (nodesThere uids >>= f).run s =
      match s.requireNodes uids with
      | .error e => (.error e, s)
      | .ok () => outcome := by
  cases hreq : s.requireNodes uids with
  | error e => exact run_bind_error (by rw [nodesThere, run_of, hreq])
  | ok _ =>
    have there := requireNodes_eq_ok_iff.1 hreq
    rw [run_bind_ok (run_nodesThere there)]
    exact h there

/-- **Writes that leave the nodes there** are all made, if each can be made while they are. -/
theorem run_forM_of_there {α : Type} {xs : List α} {write : α → Writing Unit}
    {put : α → Store → Store} (kept : ∀ x t uid, (put x t).hasNode uid = t.hasNode uid)
    (step : ∀ x ∈ xs, ∀ t, (∀ uid, t.hasNode uid = s.hasNode uid) →
      (write x).run t = (.ok (), put x t)) :
    (xs.forM write).run s = (.ok (), xs.foldl (fun s x => put x s) s) := by
  refine run_forM (P := fun t => ∀ uid, t.hasNode uid = s.hasNode uid) ?_ fun _ => rfl
  intro x hx t ht
  exact ⟨step x hx t ht, fun uid => (kept x t uid).trans (ht uid)⟩

/-- **A step makes a link** between two nodes that are there. -/
theorem run_linkInPlace (hne : source ≠ target) (hs : s.hasNode source = true)
    (ht : s.hasNode target = true) :
    (linkInPlace now source target).run s = (.ok (), s.link now source target) := by
  rw [linkInPlace, if_neg hne, run_bind_ok (run_nodesThere (by simp [hs, ht]))]
  rfl

theorem run_unlinkInPlace (hs : s.hasNode source = true) (ht : s.hasNode target = true) :
    (unlinkInPlace now source target).run s = (.ok (), s.unlink now source target) := by
  rw [unlinkInPlace, run_bind_ok (run_nodesThere (by simp [hs, ht]))]
  rfl

theorem hasNode_edges (h : ∀ n ∈ subjects ++ incoming ++ outgoing, s.hasNode n = true) :
    ∀ e ∈ edges subjects incoming outgoing, s.hasNode e.1 = true ∧ s.hasNode e.2 = true := by
  rintro ⟨x, y⟩ he
  have hb : Between subjects incoming outgoing x y := mem_edges.1 he
  exact ⟨h x hb.mem.1, h y hb.mem.2⟩

/-- **No link is refused** after the checks. -/
theorem run_addEdgesInPlace (now : Timestamp) (s : Store) :
    (addEdgesInPlace now subjects incoming outgoing).run s =
      s.addEdges now subjects incoming outgoing := by
  refine run_nodesThere_bind fun there => ?_
  cases hself : subjects.find? fun uid => incoming.contains uid || outgoing.contains uid with
  | some uid => rfl
  | none =>
    have hapart : ∀ x ∈ subjects, x ∉ incoming ∧ x ∉ outgoing := by
      simpa [List.find?_eq_none] using hself
    have hne : ∀ e ∈ edges subjects incoming outgoing, e.1 ≠ e.2 := by
      rintro ⟨x, y⟩ he (rfl : x = y)
      rcases mem_edges.1 he with ⟨hi, hx⟩ | ⟨hx, ho⟩
      · exact (hapart x hx).1 hi
      · exact (hapart x hx).2 ho
    refine run_forM_of_there (fun _ _ _ => hasNode_link) fun e he t ht => ?_
    obtain ⟨hx, hy⟩ := hasNode_edges subjects incoming outgoing there e he
    exact run_linkInPlace (hne e he) ((ht _).trans hx) ((ht _).trans hy)

theorem run_removeEdgesInPlace (now : Timestamp) (s : Store) :
    (removeEdgesInPlace now subjects incoming outgoing).run s =
      s.removeEdges now subjects incoming outgoing := by
  have kept : ∀ (e : String × String) (t : Store) uid,
      (t.unlink now e.1 e.2).hasNode uid = t.hasNode uid := fun e t uid =>
    (alters_unlink (W := fun _ => False) now e.1 e.2 t).sameElsewhere.hasNode uid
  refine run_nodesThere_bind fun there => run_forM_of_there kept fun e he t ht => ?_
  obtain ⟨hx, hy⟩ := hasNode_edges subjects incoming outgoing there e he
  exact run_unlinkInPlace ((ht _).trans hx) ((ht _).trans hy)

/-- **A step gives a node its new content**, and the node then. -/
theorem run_contentInPlace (now : Timestamp) {n : Node} (hn : s.hasNode n.uid = true) :
    ∃ k, (s.setContent now n.uid n.content).node? n.uid = some k ∧
      (contentInPlace now n).run s = (.ok k, s.setContent now n.uid n.content) := by
  have frame :=
    (alters_setContent (E := fun _ _ => False) now n.uid n.content s).sameElsewhere
  obtain ⟨r, hr⟩ := Index.contains_iff.1 ((frame.hasNode n.uid).trans hn)
  have hk : (s.setContent now n.uid n.content).node? n.uid = some (r.toNode n.uid) := by
    rw [node?, hr]
    rfl
  refine ⟨_, hk, ?_⟩
  rw [contentInPlace, run_bind_ok (run_nodesThere (by simpa using hn)),
    run_bind_ok (run_change _ s), run_bind_state, hk, run_known]
  rfl

/-- **No new content is passed over** after the checks. -/
theorem run_updateInPlace (now : Timestamp) (s : Store) (nodes : List Node) :
    (updateInPlace now nodes).run s = s.update now nodes := by
  have hall : ∀ t : Store, (∀ uid ∈ nodes.map Node.uid, t.hasNode uid = true) →
      (nodes.mapM (contentInPlace now)).run t =
        (.ok (applyContents now nodes t).1, (applyContents now nodes t).2) := by
    induction nodes with
    | nil => exact fun _ _ => rfl
    | cons n ns ih =>
      intro t ht
      rw [List.map_cons, List.forall_mem_cons] at ht
      have frame :=
        (alters_setContent (E := fun _ _ => False) now n.uid n.content t).sameElsewhere
      obtain ⟨k, hk, hrun⟩ := run_contentInPlace now ht.1
      rw [List.mapM_cons, run_bind_ok hrun,
        run_bind_ok (ih _ fun uid hu => (frame.hasNode uid).trans (ht.2 uid hu))]
      simp [applyContents, hk]
  exact run_nodesThere_bind (hall s)

end Edges

/-! ### New nodes -/

section Create

variable {now : Timestamp} {group owner : String} {parent : Option String} {batch : List Node}
  {assigned : Index String} {last : Nat} {s : Store}

theorem mapM_uidFor {α : Type} {f : α → String} {xs : List α}
    (h : assign batch ∅ s.lastUid = (.ok assigned, last))
    (hx : ∀ x ∈ xs, f x ∈ batch.map Node.uid) :
    xs.mapM (fun x => uidFor assigned (f x)) = .ok (xs.map fun x => uidIn assigned (f x)) := by
  induction xs with
  | nil => rfl
  | cons x xs ih =>
    rw [List.mapM_cons, uidFor, find?_eq_uidIn h (hx x (by simp)),
      ih fun y hy => hx y (List.mem_cons_of_mem _ hy)]
    rfl

/-- **No node of a batch is passed over**, and none of its links. -/
theorem run_mapM_recordInPlace (ha : assign batch ∅ s.lastUid = (.ok assigned, last))
    (hedge : ∀ n ∈ batch, ∀ k ∈ n.children, k.uid ∈ batch.map Node.uid) (t : Store) :
    (batch.mapM (recordInPlace now group owner assigned)).run t =
      (.ok (createdNodes owner group now assigned batch),
        t.addRecords owner group now assigned batch) := by
  rw [createdNodes_eq ha hedge]
  refine run_mapM fun n hn t => ?_
  have huid : uidFor assigned n.uid = .ok (uidIn assigned n.uid) := by
    rw [uidFor, find?_eq_uidIn ha (List.mem_map_of_mem hn)]
    rfl
  have hchildren := mapM_uidFor ha (hedge n hn)
  rw [recordInPlace, huid, run_bind_ok (run_known _ t), hchildren, run_bind_ok (run_known _ t),
    find?_eq_uidIn ha (List.mem_map_of_mem hn), newRecord_eq_embed ha (hedge n hn)]
  rfl

/-- **New nodes are hung up**, wherever that is to be, if it is there. -/
theorem run_attachInPlace {uids : List String}
    (hparent : ∀ p, parent = some p → s.hasNode p = true ∧ ∀ u ∈ uids, p ≠ u)
    (hnew : ∀ u ∈ uids, s.hasNode u = true) (howner : s.hasAccount owner = true) :
    (attachInPlace now owner parent uids).run s = (.ok (), s.attach now owner parent uids) := by
  cases parent with
  | some p =>
    obtain ⟨hp, hne⟩ := hparent p rfl
    refine run_forM_of_there (fun _ _ _ => hasNode_link) fun u hu t ht => ?_
    exact run_linkInPlace (hne u hu) ((ht p).trans hp) ((ht u).trans (hnew u hu))
  | none =>
    obtain ⟨a, ha⟩ := Index.contains_iff.1 howner
    have hfound : (known (found (.noUser owner) (s.accounts.find? owner)) :
        Writing Account).run s = (.ok a, s) := by
      rw [ha, run_known]
      rfl
    rw [attachInPlace, run_bind_state, run_bind_ok hfound, run_change, attach, Index.modify, ha]

/-- **A batch is stored and hung up** if the checks let it pass. -/
theorem run_embedInPlace (hs : Sound s) (hc : s.checkCreate owner parent batch = .ok ())
    (ha : assign batch ∅ s.lastUid = (.ok assigned, last))
    (hb : checkBatch assigned batch = .ok ()) :
    (embedInPlace now group owner parent batch assigned).run { s with lastUid := last } =
      (.ok (createdNodes owner group now assigned batch),
        ({ s with lastUid := last }.addRecords owner group now assigned batch).attach now owner
          parent ((roots batch).filterMap assigned.find?)) := by
  have hedge : ∀ n ∈ batch, ∀ k ∈ n.children, k.uid ∈ batch.map Node.uid :=
    fun n hn k hk => (contains_of_assign ha).1 (checkBatch_eq_ok_iff.1 hb n hn k hk).2
  have recorded : Recorded now group owner batch (uidIn assigned) s
      ({ s with lastUid := last }.addRecords owner group now assigned batch) :=
    recorded_addRecords hs ha hb
  obtain ⟨-, howner, hparent⟩ := checkCreate_eq_ok_iff.1 hc
  have hroots : ∀ p ∈ roots batch, p ∈ batch.map Node.uid := fun p hp => (mem_roots.1 hp).1
  have huids : (roots batch).mapM (uidFor assigned) = .ok ((roots batch).map (uidIn assigned)) :=
    mapM_uidFor (f := id) ha hroots
  have huids' : (roots batch).filterMap assigned.find? = (roots batch).map (uidIn assigned) :=
    filterMap_eq_map_uidIn (f := id) ha hroots
  rw [embedInPlace, huids, run_bind_ok (run_known _ _),
    run_bind_ok (run_mapM_recordInPlace ha hedge _), huids']
  refine run_bind_ok (run_attachInPlace ?_ ?_ ?_)
  · intro p hp
    have hne := recorded.ne_uid (hparent p hp)
    refine ⟨?_, fun u hu e => ?_⟩
    · unfold hasNode Index.contains
      rw [recorded.other p hne]
      exact hparent p hp
    · obtain ⟨q, hq, rfl⟩ := List.mem_map.1 hu
      exact hne q (hroots q hq) e
  · intro u hu
    obtain ⟨q, hq, rfl⟩ := List.mem_map.1 hu
    obtain ⟨n, hn, rfl⟩ := List.mem_map.1 (hroots q hq)
    exact Index.contains_iff.2 ⟨_, recorded.record n hn⟩
  · rw [hasAccount, recorded.accounts]
    exact howner

/-- **No step of a creation fails** after the checks. -/
theorem run_createInPlace (hs : Sound s) :
    (createInPlace now group owner parent batch).run s = s.create now group owner parent batch := by
  unfold createInPlace create
  rw [run_bind_state]
  cases hc : s.checkCreate owner parent batch with
  | error e => rfl
  | ok _ =>
    rw [run_bind_ok (run_known _ s)]
    rcases ha : assign batch ∅ s.lastUid with ⟨e | assigned, last⟩
    · refine run_bind_error ?_
      rw [assignInPlace, run_of, ha]
    · have hassign : (assignInPlace batch).run s = (.ok assigned, { s with lastUid := last }) := by
        rw [assignInPlace, run_of, ha]
      rw [run_bind_ok hassign]
      simp only
      cases hb : checkBatch assigned batch with
      | error e => rfl
      | ok _ =>
        rw [run_bind_ok (run_known _ _)]
        simp only
        split
        · rfl
        · exact run_embedInPlace hs hc ha hb

end Create

/-! ### Accounts -/

section Accounts

variable {s t : Store} {u : AccountUpdate} {updates : List AccountUpdate} {users : List User}

theorem run_createAccountInPlace (s : Store) (new : NewAccount) :
    (createAccountInPlace new).run s = s.createAccount new := by
  unfold createAccountInPlace createAccount
  cases checkAccount (some new.username) (some new.role) with
  | error e => rfl
  | ok _ =>
    rw [run_bind_ok (run_known _ s), run_bind_state]
    simp only
    split
    · rfl
    · rfl

/-- **No update is passed over** after the checks. -/
theorem run_mapM_accountInPlace (hall : ∀ u ∈ updates, s.hasAccount u.uid = true) :
    (updates.mapM accountInPlace).run s =
      (.ok (applyUpdates updates s).1, (applyUpdates updates s).2) := by
  induction updates generalizing s with
  | nil => rfl
  | cons u us ih =>
    rw [List.forall_mem_cons] at hall
    obtain ⟨user, huser, -⟩ := updateAccount_fst hall.1
    have hrun : (accountInPlace u).run s = (.ok user, (s.updateAccount u).2) := by
      rw [accountInPlace, run_of, huser]
      rfl
    rw [List.mapM_cons, run_bind_ok hrun,
      run_bind_ok (ih fun v hv => hasAccount_updateAccount u (hall.2 v hv))]
    simp [applyUpdates, huser]

theorem run_updateAccountsInPlace (s : Store) (updates : List AccountUpdate) :
    (updateAccountsInPlace updates).run s = s.updateAccounts updates := by
  unfold updateAccountsInPlace updateAccounts
  cases checkUpdates updates with
  | error e => rfl
  | ok _ =>
    rw [run_bind_ok (run_known _ s), run_bind_state]
    cases hclaims : s.checkClaims updates ∅ with
    | error e => rfl
    | ok _ =>
      rw [run_bind_ok (run_known _ s)]
      exact run_mapM_accountInPlace (checkClaims_ok hclaims)

/-- **One update** is taken in if it is valid, its account is there, and its name is nobody's or its
account's own. -/
theorem updateAccounts_singleton (hv : checkAccount u.username u.role = .ok ())
    (hu : s.hasAccount u.uid = true)
    (hfree : ∀ name, u.username = some name →
      ∀ uid, s.usernames.find? name = some uid → uid = u.uid) :
    s.updateAccounts [u] = (.ok (s.updateAccount u).1.toList, (s.updateAccount u).2) := by
  have hcheck : checkUpdates [u] = .ok () := by
    rw [checkUpdates, hv]
    rfl
  have hclaims : s.checkClaims [u] ∅ = .ok () := by
    unfold checkClaims
    cases hname : u.username with
    | none => simp [hu, checkClaims]
    | some name =>
      have hmine := any_ne_eq_false_iff.2 (hfree name hname)
      simp only [ne_eq, decide_not] at hmine
      have hnone : (∅ : Index String).find? name = none := rfl
      simp [hu, hmine, hnone, checkClaims]
  simp [updateAccounts, hcheck, hclaims, applyUpdates]

/-- **A list of updates that is taken in** could as well be taken in update by update: an update
that goes first leaves the rest as well claimed as it was. -/
theorem run_oneByOne
    (hchecked : ∀ u ∈ updates, checkAccount u.username u.role = .ok () ∧ s.hasAccount u.uid = true)
    (hc : Claims s updates) :
    (oneByOne updates).run s = (.ok (applyUpdates updates s).1, (applyUpdates updates s).2) := by
  induction updates generalizing s with
  | nil => rfl
  | cons u us ih =>
    rw [List.forall_mem_cons] at hchecked
    obtain ⟨⟨hv, hu⟩, hus⟩ := hchecked
    have hfirst := updateAccounts_singleton hv hu (hc.free u (by simp))
    have hrest := ih (fun v hv => (hus v hv).imp_right (hasAccount_updateAccount u))
      hc.updateAccount
    rw [oneByOne, run_bind_ok (by rw [run_of, hfirst]), run_bind_ok hrest]
    rfl

theorem run_oneByOne_of_ok (h : s.updateAccounts updates = (.ok users, t)) :
    (oneByOne updates).run s = (.ok users, t) := by
  rcases updateAccounts_cases s updates with ⟨e, he⟩ | ⟨⟨hchecked, hc⟩, he⟩
  · rw [he] at h
    cases h
  · rw [← h, he]
    exact run_oneByOne hchecked hc

end Accounts

/-! ### Refusals -/

/-- All of a store is as it was, but that uids may have been used up. -/
structure Spares (s t : Store) : Prop where
  nodes : t.nodes = s.nodes
  accounts : t.accounts = s.accounts
  usernames : t.usernames = s.usernames
  lastUid : s.lastUid ≤ t.lastUid

/-- An operation comes to the same in steps that look again, and spares the store if it is
refused. -/
structure Atomic {α : Type} (s : Store) (inPlace : Writing α)
    (outcome : Except StoreError α × Store) : Prop where
  steps : inPlace.run s = outcome
  refused : ∀ e, outcome.1 = .error e → Spares s outcome.2

section Refusals

variable {s : Store}

theorem Spares.refl (s : Store) : Spares s s := ⟨rfl, rfl, rfl, Nat.le_refl _⟩

theorem atomic_create (hs : Sound s) (now : Timestamp) (group owner : String)
    (parent : Option String) (batch : List Node) :
    Atomic s (createInPlace now group owner parent batch)
      (s.create now group owner parent batch) where
  steps := run_createInPlace hs
  refused e he := by
    rcases create_cases s now group owner parent batch with ⟨e', last, hle, h⟩ |
      ⟨assigned, last, -, -, -, h⟩
    · rw [h]
      exact ⟨rfl, rfl, rfl, hle⟩
    · rw [h] at he
      cases he

theorem atomic_update (s : Store) (now : Timestamp) (nodes : List Node) :
    Atomic s (updateInPlace now nodes) (s.update now nodes) where
  steps := run_updateInPlace now s nodes
  refused e he := by
    unfold update at he ⊢
    split at he
    · exact .refl s
    · cases he

theorem atomic_addEdges (s : Store) (now : Timestamp) (subjects incoming outgoing : List String) :
    Atomic s (addEdgesInPlace now subjects incoming outgoing)
      (s.addEdges now subjects incoming outgoing) where
  steps := run_addEdgesInPlace subjects incoming outgoing now s
  refused e he := by
    rw [addEdges_of_ne_ok (by rw [he]; exact nofun)]
    exact .refl s

theorem atomic_removeEdges (s : Store) (now : Timestamp)
    (subjects incoming outgoing : List String) :
    Atomic s (removeEdgesInPlace now subjects incoming outgoing)
      (s.removeEdges now subjects incoming outgoing) where
  steps := run_removeEdgesInPlace subjects incoming outgoing now s
  refused e he := by
    rw [removeEdges_of_ne_ok (by rw [he]; exact nofun)]
    exact .refl s

theorem atomic_createAccount (s : Store) (new : NewAccount) :
    Atomic s (createAccountInPlace new) (s.createAccount new) where
  steps := run_createAccountInPlace s new
  refused e he := by
    rcases createAccount_cases s new with ⟨e', h⟩ | ⟨-, h⟩
    · rw [h]
      exact .refl s
    · rw [h] at he
      cases he

theorem atomic_updateAccounts (s : Store) (updates : List AccountUpdate) :
    Atomic s (updateAccountsInPlace updates) (s.updateAccounts updates) where
  steps := run_updateAccountsInPlace s updates
  refused e he := by
    rcases updateAccounts_cases s updates with ⟨e', h⟩ | ⟨-, h⟩
    · rw [h]
      exact .refl s
    · rw [h] at he
      cases he

end Refusals

/-- **Operations are atomic.** On every store that came out of an empty one, an operation that is
refused leaves nodes, accounts and usernames exactly as they were, and only the number of the last
uid may have grown. No step of one that passes its checks fails or passes anything over. And updates
of accounts that are taken in together come to the same as one by one from the first to the last. -/
theorem mutations_atomic (actions : List Action) :
    (∀ now group owner parent batch,
      Atomic (after actions) (createInPlace now group owner parent batch)
        ((after actions).create now group owner parent batch)) ∧
    (∀ now nodes,
      Atomic (after actions) (updateInPlace now nodes) ((after actions).update now nodes)) ∧
    (∀ now subjects incoming outgoing,
      Atomic (after actions) (addEdgesInPlace now subjects incoming outgoing)
        ((after actions).addEdges now subjects incoming outgoing)) ∧
    (∀ now subjects incoming outgoing,
      Atomic (after actions) (removeEdgesInPlace now subjects incoming outgoing)
        ((after actions).removeEdges now subjects incoming outgoing)) ∧
    (∀ new, Atomic (after actions) (createAccountInPlace new)
      ((after actions).createAccount new)) ∧
    (∀ updates, Atomic (after actions) (updateAccountsInPlace updates)
      ((after actions).updateAccounts updates)) ∧
    ∀ updates users t, (after actions).updateAccounts updates = (.ok users, t) →
      (oneByOne updates).run (after actions) = (.ok users, t) :=
  ⟨atomic_create (sound_after actions), atomic_update _, atomic_addEdges _, atomic_removeEdges _,
    atomic_createAccount _, atomic_updateAccounts _, fun _ _ _ => run_oneByOne_of_ok⟩

namespace Rename

/-- Ann and Bob, and two nodes of Ann. -/
def history : List Action :=
  [.createAccount ⟨"ann", "", "user", none⟩, .createAccount ⟨"bob", "", "user", none⟩,
    .create default 0 [] "0x1" none [draft "$a" [], draft "$b" []]]

/-- A new name for an account. -/
def rename (uid name : String) : AccountUpdate := ⟨uid, some name, none, none, none⟩

/-- Two accounts ask for one name. -/
def clash : List AccountUpdate := [rename "0x1" "cal", rename "0x2" "cal"]

/-- One account asks for two names. -/
def twice : List AccountUpdate := [rename "0x1" "cal", rename "0x2" "bob", rename "0x1" "dan"]

end Rename

open Rename in
/-- A clash and a self link that are found late, and a list with one account in it twice. -/
theorem mutations_atomic_rename :
    Spares (after history) ((after history).updateAccounts clash).2 ∧
    Spares (after history) ((after history).addEdges default ["0x4", "0x3"] [] ["0x3"]).2 ∧
    (oneByOne twice).run (after history) = (after history).updateAccounts twice := by
  obtain ⟨-, -, hadd, -, -, hupdates, heach⟩ := mutations_atomic history
  refine ⟨(hupdates clash).refused (.usernameTaken "cal") ?_,
    (hadd default ["0x4", "0x3"] [] ["0x3"]).refused (.selfLink "0x3") ?_, ?_⟩
  · decide +kernel
  · decide +kernel
  · have isOk : ((after history).updateAccounts twice).1.toOption.isSome = true := by
      decide +kernel
    rcases h : (after history).updateAccounts twice with ⟨e | users, t⟩
    · rw [h] at isOk
      cases isOk
    · exact heach twice users t h

end SealedGraph.Store
