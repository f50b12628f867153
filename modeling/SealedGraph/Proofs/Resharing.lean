import SealedGraph.Proofs.Http.Sharing

/-!
# What is passed on with a node

A caller who is no administrator passes on only what is the caller's own or may be shared. This is
looked at node by node, but what is opened to a recipient is a group, and nodes that were created by
one request have one group between them. So a recipient may come to see nodes that the caller could
not have passed on: those that have a group together with one that the caller could.

* `shows_of_shares`: what a recipient is shown after nodes were shared.
* `resharing_exact`: that, after any requests, and when it is no more than what the caller could
  have passed on node by node.
* `resharing_leak`: a run in which it is more.
-/

namespace SealedGraph

instance (s : Server) (c : Caller) (uid : String) : Decidable (s.Shows c uid) :=
  decidable_of_iff (∃ q ∈ s.store.nodes.find? uid, c.CanView s.registry.table (q.toNode uid))
    Iff.rfl

namespace Http

open Attempt

/-- Every user can come as a caller who is no administrator. -/
theorem exists_caller (uid : String) : ∃ w : Caller, w.uid = uid ∧ w.role ≠ adminRole :=
  ⟨.of ⟨[0], List.cons_ne_nil 0 []⟩ uid "" "", rfl, by show "" ≠ adminRole; decide⟩

section Step

variable {s : Server} {v : Visit} {c : Caller} {r : ShareRequest}

/-- **What a caller is shown after nodes were shared**: what was shown before, and for a recipient
also what is readable and of a group that was reached. -/
theorem shows_of_shares (hs : s.store.Sound) (hg : s.store.Grouped)
    (h : (exchange s v).Shares .add c r) (w : Caller) (n : String) :
    (serve v.moment v.request s).2.Shows w n ↔ s.Shows w n ∨
      (w.uid ∈ r.users ∧ ∃ q, s.store.nodes.find? n = some q ∧ q.permissions.read = true ∧
        c.Reaches s.store r.nodes w.uid q.group) := by
  have hnodes : (serve v.moment v.request s).2.store.nodes = s.store.nodes := by
    rw [store_of_sharing? h.2, Store.nodes_share]
  rw [shows_iff, shows_iff, hnodes]
  constructor
  · rintro ⟨q, hq, hrole | hown | ⟨hread, hopen⟩⟩
    · exact .inl ⟨q, hq, .inl hrole⟩
    · exact .inl ⟨q, hq, .inr (.inl hown)⟩
    · rcases (open_of_shares hs hg h w.uid q.group).1 hopen with hopen | ⟨hu, hreach⟩
      · exact .inl ⟨q, hq, .inr (.inr ⟨hread, hopen⟩)⟩
      · exact .inr ⟨hu, q, hq, hread, hreach⟩
  · rintro (⟨q, hq, hv⟩ | ⟨hu, q, hq, hread, hreach⟩)
    · refine ⟨q, hq, hv.imp_right (Or.imp_right fun ⟨hread, hopen⟩ => ⟨hread, ?_⟩)⟩
      exact (open_of_shares hs hg h w.uid q.group).2 (.inl hopen)
    · refine ⟨q, hq, .inr (.inr ⟨hread, ?_⟩)⟩
      exact (open_of_shares hs hg h w.uid q.group).2 (.inr ⟨hu, hreach⟩)

/-- **Nothing is passed on that may not be**, to a recipient, if and only if all nodes of the groups
that are opened by it may be passed on, as far as they are readable and not the recipient's own. -/
theorem passes_iff_of_shares (hs : s.store.Sound) (hg : s.store.Grouped)
    (h : (exchange s v).Shares .add c r) {uid : String} (hu : uid ∈ r.users) (P : Record → Prop) :
    (∀ w n q, w.uid = uid → s.store.nodes.find? n = some q → ¬ s.Shows w n →
        (serve v.moment v.request s).2.Shows w n → P q) ↔
      ∀ g, c.Reaches s.store r.nodes uid g → ¬ s.Open uid g → ∀ n q,
        s.store.nodes.find? n = some q → q.group = g → q.permissions.read = true →
        q.owner ≠ uid → P q := by
  constructor
  · rintro hpass g hreach hclosed n q hq rfl hread hown
    obtain ⟨w, rfl, hrole⟩ := exists_caller uid
    refine hpass w n q rfl hq (fun hshown => ?_) ?_
    · obtain ⟨q', hq', hv⟩ := shows_iff.1 hshown
      rw [hq] at hq'
      cases hq'
      rcases hv with hv | hv | hv
      · exact hrole hv
      · exact hown hv
      · exact hclosed hv.2
    · exact (shows_of_shares hs hg h w n).2 (.inr ⟨hu, q, hq, hread, hreach⟩)
  · rintro hgroups w n q rfl hq hhidden hshown
    rcases (shows_of_shares hs hg h w n).1 hshown with hshown | ⟨-, q', hq', hread, hreach⟩
    · exact absurd hshown hhidden
    · rw [hq] at hq'
      cases hq'
      -- Had the group been open, or the node been the recipient's own, it would have been shown.
      refine hgroups q.group hreach (fun hopen => hhidden ?_) n q hq rfl hread fun hown => hhidden ?_
      · exact shows_iff.2 ⟨q, hq, .inr (.inr ⟨hread, hopen⟩)⟩
      · exact shows_iff.2 ⟨q, hq, .inr (.inl hown)⟩

end Step

/-- **What is passed on with nodes.** Start with any accounts and no nodes, let any requests be
served, and then one that shares nodes. What is shown to anybody after it is what was shown before,
and to each recipient also the readable nodes of each group that one of the nodes or of their direct
children has, if the caller may pass on this one. So a recipient comes to see only what is the
caller's own or may be shared if and only if this is so of all the nodes of these groups, as far as
they are readable, not open to the recipient already and not the recipient's own. -/
theorem resharing_exact {s₀ : Server} {history : List Visit} {accounts : List NewAccount}
    {v : Visit} {c : Caller} {r : ShareRequest} (hstore : s₀.store = .withAccounts accounts)
    (hfresh : FreshGroups history) (h : (exchange (run s₀ history) v).Shares .add c r) :
    (∀ w n, (run s₀ (history ++ [v])).Shows w n ↔ (run s₀ history).Shows w n ∨
      (w.uid ∈ r.users ∧ ∃ q, (run s₀ history).store.nodes.find? n = some q ∧
        q.permissions.read = true ∧
        c.Reaches (run s₀ history).store r.nodes w.uid q.group)) ∧
    ∀ uid ∈ r.users,
      (∀ w n q, w.uid = uid → (run s₀ history).store.nodes.find? n = some q →
          ¬ (run s₀ history).Shows w n → (run s₀ (history ++ [v])).Shows w n →
          q.owner = c.uid ∨ q.permissions.share = true) ↔
        ∀ g, c.Reaches (run s₀ history).store r.nodes uid g → ¬ (run s₀ history).Open uid g →
          ∀ n q, (run s₀ history).store.nodes.find? n = some q → q.group = g →
            q.permissions.read = true → q.owner ≠ uid →
            q.owner = c.uid ∨ q.permissions.share = true := by
  obtain ⟨hs, hg⟩ := sound_and_grouped_run hstore hfresh
  rw [run_concat]
  exact ⟨shows_of_shares hs hg h, fun uid hu => passes_iff_of_shares hs hg h hu _⟩

/-! ### Three users

The first user creates a node, looks up the second user, creates two more nodes by one request, and
shares the first node with the second user. This user lists what is shared, looks up the third user,
and shares the second node with the third user. The first node links to the second and the second to
the third; all three may be read, and the first two may be shared.
-/

namespace Circle

theorem secret_ne_nil : ([7] : List UInt8) ≠ [] := List.cons_ne_nil 7 []

def master : MasterSecret := ⟨[7], secret_ne_nil⟩

def accounts : List NewAccount :=
  [⟨"ann", "a", "user", none⟩, ⟨"bob", "b", "user", none⟩, ⟨"cal", "c", "user", none⟩]

/-- A user as a caller. -/
def caller (uid : String) : Caller := .of master uid "user" "s"

/-- A server with these users, and nodes of the first: which uid was the last, which nodes there
are, which of them are the first user's own and which were shared with the other two, and which
groups are open. -/
def server (last : Nat) (nodes : List (String × Record)) (ann bob cal : List String)
    (groups : List (String × List String)) : Server where
  gate := ⟨master, 3600⟩
  maxFailures := 0
  store :=
    ⟨last, ⟨nodes⟩,
      ⟨[("0x1", ⟨"ann", "user", none, ⟨"a"⟩, ann, []⟩),
        ("0x2", ⟨"bob", "user", none, ⟨"b"⟩, [], bob⟩),
        ("0x3", ⟨"cal", "user", none, ⟨"c"⟩, [], cal⟩)]⟩,
      ⟨[("ann", "0x1"), ("bob", "0x2"), ("cal", "0x3")]⟩⟩
  registry := .responsive ⟨⟨[("0x1", ["s"]), ("0x2", ["s"])]⟩, ⟨groups⟩, ∅, 0⟩
  metrics := .empty

/-- A node of the first user. -/
def node (permissions group : String) (children : List String) : Record :=
  ⟨"0x1", .ofLetters permissions, group, children, .empty, ⟨0, 0⟩, ⟨0, 0⟩⟩

/-- The tokens of the sessions of two of the users. -/
def bearerAnn : String := "MHgxLnVzZXIucy4w.8azlWTuwjR7TZ9siSlXAhwmSy9AJqddyMG4o9thvxnI"
def bearerBob : String := "MHgyLnVzZXIucy4w.TI8tXVrBzqP-p-VtDKjpO93bz835Mf0ij5F1bfmCSaU"

/-- A request, with an id from which its moment makes groups. -/
def visit (bearer : String) (id : UInt8) (method : Method) (target body : String) : Visit where
  moment := ⟨⟨0, 0⟩, 0, "", Fresh.groupId 0 [id]⟩
  request := ⟨method, target, some ("Bearer " ++ bearer), some "application/json", body⟩

/-- A request to share a node with a user. -/
def sharing (bearer : String) (method : Method) (node : String) (users : List String) : Visit :=
  visit bearer 3 method "/user/share"
    ("\x7b\"nodes\":[\"" ++ node ++ "\"],\"users\":[\"" ++ "\",\"".intercalate users ++ "\"]\x7d")

-- Tokens are the same whenever they are handed out, but for whom.
def folderForAnn : String := "MHg0LjB4MS5ycw.g0fDdOxAP5l1WuFHwO6ATpTcjfAEIMfyaGay9pTLFsw"
def bobForAnn : String := "MHgyLnVzZXIu.GphxO6xKPh4Hfb9YWRBIlMotvxTCWYfqgZgENhx5s5M"

def pageForBob : String := "MHg1LjB4MS5ycw.Pq9GD3QLe4i_lt9Je9jQUrGBT2veEJsvei1GQfYqRhY"
def calForBob : String := "MHgzLnVzZXIu.rqxL2sEYbNe-mirCmnYOeFG8-89KlIfX1RjYK68XlVM"

def makeFolder : Visit :=
  visit bearerAnn 1 .put "/user/node"
    "\x7b\"node\":\x7b\"uid\":\"$p\",\"r\":true,\"s\":true\x7d\x7d"

def findBob : Visit := visit bearerAnn 3 .get "/user/name/bob" ""

def makePages : Visit :=
  visit bearerAnn 2 .put ("/graph/nodes/" ++ folderForAnn)
    ("\x7b\"nodes\":[\x7b\"uid\":\"$a\",\"r\":true,\"s\":true,\"e\":[\x7b\"uid\":\"$b\"\x7d]\x7d," ++
      "\x7b\"uid\":\"$b\",\"r\":true\x7d]\x7d")

def shareFolder : Visit := sharing bearerAnn .put folderForAnn [bobForAnn]

def listShared : Visit := visit bearerBob 3 .post "/user/nodes/shared" ""

def findCal : Visit := visit bearerBob 3 .get "/user/name/cal" ""

def passPage : Visit := sharing bearerBob .put pageForBob [calForBob]

/-- The requests before the first user shares anything. -/
def drafts : List Visit := [makeFolder, findBob, makePages]

/-- The requests before the second user does. -/
def handout : List Visit := drafts ++ [shareFolder, listShared, findCal]

def start : Server := server 3 [] [] [] [] []

def withFolder : Server :=
  server 4 [("0x4", node "rs" "AAAAAAAAAQ" [])] ["0x4"] [] [] []

def nodes : List (String × Record) :=
  [("0x4", node "rs" "AAAAAAAAAQ" ["0x5"]), ("0x5", node "rs" "AAAAAAAAAg" ["0x6"]),
    ("0x6", node "r" "AAAAAAAAAg" [])]

def withPages : Server := server 6 nodes ["0x4"] [] [] []

def folderShared : Server :=
  server 6 nodes ["0x4"] ["0x4"] [] [("0x2", ["AAAAAAAAAQ", "AAAAAAAAAg"])]

def pagePassed : Server :=
  server 6 nodes ["0x4"] ["0x4"] ["0x5"]
    [("0x2", ["AAAAAAAAAQ", "AAAAAAAAAg"]), ("0x3", ["AAAAAAAAAg"])]

/-- A request is answered with success: what it asks of what is shared, and the server after it. -/
def Serves (s : Server) (v : Visit) (asked : Option (ShareChange × Caller × ShareRequest))
    (t : Server) : Prop :=
  (serve v.moment v.request s).2 = t ∧ (exchange s v).outcome.response.status = 200 ∧
    (exchange s v).sharing? = asked

instance (s : Server) (v : Visit) (asked : Option (ShareChange × Caller × ShareRequest))
    (t : Server) : Decidable (Serves s v asked t) := inferInstanceAs (Decidable (_ ∧ _ ∧ _))

/-- Requests are all answered with success. -/
structure Goes (s : Server) (visits : List Visit)
    (asked : List (Option (ShareChange × Caller × ShareRequest))) (t : Server) : Prop where
  run : run s visits = t
  status : ∀ x ∈ transcript s visits, x.outcome.response.status = 200
  asked : (transcript s visits).map Exchange.sharing? = asked

section Goes

variable {s t u : Server} {v : Visit} {visits visits' : List Visit}
  {ask : Option (ShareChange × Caller × ShareRequest)}
  {asks asks' : List (Option (ShareChange × Caller × ShareRequest))}

theorem Goes.nil (s : Server) : Goes s [] [] s := ⟨rfl, by simp [transcript], rfl⟩

theorem Goes.cons (h : Serves s v ask t) (h' : Goes t visits asks u) :
    Goes s (v :: visits) (ask :: asks) u := by
  obtain ⟨ht, hstatus, hask⟩ := h
  have e : (handle v.moment v.request s).2 = t := (handle_snd _ _ _).trans ht
  refine ⟨?_, ?_, ?_⟩
  · rw [run_cons, e, h'.run]
  · rw [transcript_cons, e]
    exact List.forall_mem_cons.2 ⟨hstatus, h'.status⟩
  · rw [transcript_cons, e, List.map_cons, hask, h'.asked]

theorem Goes.append (h : Goes s visits asks t) (h' : Goes t visits' asks' u) :
    Goes s (visits ++ visits') (asks ++ asks') u := by
  refine ⟨?_, ?_, ?_⟩
  · rw [run_append, h.run, h'.run]
  · rw [transcript_append, h.run]
    exact List.forall_mem_append.2 ⟨h.status, h'.status⟩
  · rw [transcript_append, h.run, List.map_append, h.asked, h'.asked]

theorem Serves.shares {change : ShareChange} {c : Caller} {r : ShareRequest}
    (h : Serves s v (some (change, c, r)) t) : (exchange s v).Shares change c r :=
  ⟨Exchange.succeeds_of_status h.2.1 h.2.2, h.2.2⟩

end Goes

/-- What the first user does before anything is shared, and the tokens that come of it. -/
theorem serves_drafts :
    (Serves start makeFolder none withFolder ∧
        folderForAnn ∈ (exchange start makeFolder).tokens) ∧
      (Serves withFolder findBob none withFolder ∧
        bobForAnn ∈ (exchange withFolder findBob).tokens) ∧
      Serves withFolder makePages none withPages :=
  ⟨by decide +kernel, by decide +kernel, by decide +kernel⟩

/-- The first user shares the first node, and the second user passes on the second. -/
theorem serves_shares :
    Serves withPages shareFolder (some (.add, caller "0x1", ⟨["0x4"], ["0x2"]⟩)) folderShared ∧
      Serves folderShared listShared none folderShared ∧
      Serves folderShared findCal none folderShared ∧
      Serves folderShared passPage (some (.add, caller "0x2", ⟨["0x5"], ["0x3"]⟩)) pagePassed :=
  ⟨by decide +kernel, by decide +kernel, by decide +kernel, by decide +kernel⟩

theorem start_store : start.store = .withAccounts accounts := by decide +kernel

theorem goes_drafts : Goes start drafts [none, none, none] withPages := by
  obtain ⟨⟨hfolder, -⟩, ⟨hbob, -⟩, hpages⟩ := serves_drafts
  exact .cons hfolder (.cons hbob (.cons hpages (.nil _)))

theorem goes_handout : Goes start handout
    ([none, none, none] ++ [some (.add, caller "0x1", ⟨["0x4"], ["0x2"]⟩), none, none])
    folderShared := by
  obtain ⟨hshare, hlist, hcal, -⟩ := serves_shares
  exact goes_drafts.append (.cons hshare (.cons hlist (.cons hcal (.nil _))))

theorem freshGroups_handout : FreshGroups handout := by
  intro v hv
  simp only [handout, drafts, List.cons_append, List.nil_append, List.mem_cons, List.not_mem_nil,
    or_false] at hv
  rcases hv with rfl | rfl | rfl | rfl | rfl | rfl
  all_goals exact ⟨_, _, rfl⟩

/-- All the nodes are the first user's own. -/
theorem owner_eq_of_find? {n : String} {q : Record} (h : withPages.store.nodes.find? n = some q) :
    q.owner = "0x1" := by
  have hall : ∀ e ∈ nodes, e.2.owner = "0x1" := by decide
  exact hall _ (Index.mem_of_find? h)

end Circle

/-- The first user passes on nothing but the user's own. -/
theorem resharing_exact_own_folder :
    (exchange (run Circle.start Circle.drafts) Circle.shareFolder).Shares .add
      (Circle.caller "0x1") ⟨["0x4"], ["0x2"]⟩ ∧
    ∀ w n q, w.uid = "0x2" → (run Circle.start Circle.drafts).store.nodes.find? n = some q →
      ¬ (run Circle.start Circle.drafts).Shows w n →
      (run Circle.start (Circle.drafts ++ [Circle.shareFolder])).Shows w n →
      q.owner = "0x1" ∨ q.permissions.share = true := by
  have hshares : (exchange (run Circle.start Circle.drafts) Circle.shareFolder).Shares .add
      (Circle.caller "0x1") ⟨["0x4"], ["0x2"]⟩ := by
    rw [Circle.goes_drafts.run]
    exact Circle.serves_shares.1.shares
  have h := resharing_exact Circle.start_store Circle.freshGroups_handout.of_append.1 hshares
  refine ⟨hshares, (h.2 "0x2" (by simp)).2 fun g _ _ n q hq _ _ _ => .inl ?_⟩
  rw [Circle.goes_drafts.run] at hq
  exact Circle.owner_eq_of_find? hq

/-- **The second user passes on a node that may not be**: the node that was made together with one
that may be shared is shown to the third user from then on. -/
theorem resharing_leak :
    Circle.start.store = .withAccounts Circle.accounts ∧
    (exchange (run Circle.start Circle.handout) Circle.passPage).Shares .add
      (Circle.caller "0x2") ⟨["0x5"], ["0x3"]⟩ ∧
    (Circle.caller "0x2").role ≠ adminRole ∧
    ¬ (run Circle.start Circle.handout).Shows (Circle.caller "0x3") "0x6" ∧
    (run Circle.start (Circle.handout ++ [Circle.passPage])).Shows (Circle.caller "0x3") "0x6" ∧
    ∃ q, (run Circle.start Circle.handout).store.nodes.find? "0x6" = some q ∧ q.owner = "0x1" ∧
      q.permissions.share = false := by
  obtain ⟨-, -, -, hpass⟩ := Circle.serves_shares
  have hafter := Circle.goes_handout.append (.cons hpass (.nil _))
  rw [hafter.run, Circle.goes_handout.run]
  exact ⟨Circle.start_store, hpass.shares, by decide, by decide +kernel, by decide +kernel, _, rfl,
    rfl, rfl⟩

end Http

end SealedGraph
