import SealedGraph.Proofs.Resharing

/-!
# What sharing does to its recipients

Nodes that are shared come with their direct children, and what of these is readable and may be
passed on is shown to every recipient then. What is no longer shared is not shown any more, but to
administrators and to recipients whose own it is. Nobody else is touched by either.

* `Server.allowlist`: the groups that are open to a user. `allowlist_changeShare`: those of whoever is
  no recipient stay as they are, also if the work fails in the middle.
* `changeShare_succeeds_iff`: what has to be there for nodes to be shared.
* `ShareChange.Done`: what is different after a share; `done_of_changeShare`: that it is.
* `Done.shows`, `Done.not_shows`: what recipients are shown, member by member.
* `share_unshare_exact`: all of this, after any requests.
-/

namespace SealedGraph

open Attempt
open Registry (Link Operation)

/-! ### Whoever is no recipient -/

namespace Registry.Table

/-- The groups that are open to a user, in the order in which they were opened. -/
def allowlist (t : Table) (uid : String) : List String := (t.groups.find? uid).getD []

variable {uid uid' : String}

theorem allowlist_allow (t : Table) (h : uid' ≠ uid) (list : String) :
    (t.allow uid list).allowlist uid' = t.allowlist uid' := by
  unfold allow allowlist
  simp only
  split
  · rfl
  · rw [Index.find?_insert, if_neg h]

theorem allowlist_revoke (t : Table) (h : uid' ≠ uid) (list : String) :
    (t.revoke uid list).allowlist uid' = t.allowlist uid' := by
  unfold revoke allowlist
  simp only
  rw [find?_shrink, if_neg h]

end Registry.Table

/-- The groups that are open to a user. -/
def Server.allowlist (s : Server) (uid : String) : List String := s.registry.table.allowlist uid

/-- **Asking the registry** changes no more of it than the inquiry does. -/
theorem Service.keeps_registry_inquire {α γ : Type} {π : Link → γ} {x : Inquiry α}
    (hx : Keeps π x) : Keeps (fun s : Server => π s.registry) (inquire x) := by
  intro s
  have h := hx s.registry
  unfold inquire
  rw [run_within]
  rcases hr : x.run s.registry with ⟨e | a, l⟩
  · rw [hr] at h
    exact h
  · rw [hr] at h
    exact h

theorem keeps_allowlist_ask {k : Registry.Kind} {op : Operation k} {now : Nat} {uid : String}
    (h : ∀ t, (op.apply now t).2.allowlist uid = t.allowlist uid) :
    Keeps (fun l : Link => l.table.allowlist uid) (ask now op) := by
  intro l
  show (l.call now op).2.table.allowlist uid = l.table.allowlist uid
  rcases l.table_call now op with ht | ht
  · rw [ht]
  · rw [ht, h]

/-- **The work for one recipient** leaves the groups of all others alone. -/
theorem ShareChange.keeps_allowlist_tell (change : ShareChange) (c : Caller) (now : Nat)
    (members : List Node) {recipient uid : String} (h : uid ≠ recipient) :
    Keeps (fun l : Link => l.table.allowlist uid) (change.tell c now members recipient) := by
  cases change with
  | add =>
    unfold tell Caller.grant
    simp only
    split
    · exact keeps_pure _
    · refine (keeps_allowlist_ask fun t => ?_).bind fun _ => keeps_pure _
      exact t.allowlist_allow h _
  | remove =>
    unfold tell Caller.withdraw
    simp only
    split
    · exact keeps_pure _
    · refine (keeps_allowlist_ask fun t => ?_).bind fun _ => keeps_pure _
      exact t.allowlist_revoke h _

namespace Call

theorem keeps_allowlist_forEach {work : String → Inquiry Nat} {recipients : List String}
    {uid : String}
    (hwork : ∀ u ∈ recipients, Keeps (fun l : Link => l.table.allowlist uid) (work u)) :
    Keeps (fun s => Server.allowlist s uid) (forEach work recipients) := by
  induction recipients with
  | nil => exact keeps_pure _
  | cons u us ih =>
    exact (Service.keeps_registry_inquire (hwork u (by simp))).bind fun _ =>
      ih fun u' hu' => hwork u' (List.mem_cons_of_mem _ hu')

section ChangeShare

variable (m : Moment) (change : ShareChange) {c : Caller} {request r : ShareRequest} {s : Server}

/-- **Whoever is no recipient** has the same groups open as before, whatever becomes of the share. -/
theorem allowlist_changeShare (s : Server) (hb : request.bind c = .ok r) {uid : String}
    (hu : uid ∉ r.users) :
    ((changeShare m c change request).run s).2.allowlist uid = s.allowlist uid := by
  rcases changeShare_cases m c change request s with
    ⟨e, he, -⟩ | ⟨r', hr', ⟨e, -, hrun⟩ | ⟨members, -, hrun⟩⟩
  · rw [hb] at he
    cases he
  · rw [hrun]
    rfl
  · rw [hb] at hr'
    cases hr'
    have hwork : ∀ u ∈ r.users, Keeps (fun l : Link => l.table.allowlist uid)
        (change.tell c m.instant members u) :=
      fun u hmem => change.keeps_allowlist_tell c m.instant members fun e => hu (e ▸ hmem)
    rw [hrun]
    exact ((keeps_allowlist_forEach hwork).bind fun _ => keeps_pure _) _

/-- **As long as the registry answers**, nodes are shared, or no longer are, if the request can be
bound and all its nodes and users are there, and only then. -/
theorem changeShare_succeeds_iff (hr : s.registry.isResponsive = true) :
    (∃ a t, (changeShare m c change request).run s = (.ok a, t)) ↔
      ∃ r, request.bind c = .ok r ∧ (∀ n ∈ r.nodes, s.store.hasNode n = true) ∧
        ∀ u ∈ r.users, s.store.hasAccount u = true := by
  constructor
  · rintro ⟨a, t, h⟩
    rcases changeShare_cases m c change request s with
      ⟨e, -, hrun⟩ | ⟨r, hb, ⟨e, -, hrun⟩ | ⟨members, hm, -⟩⟩
    · rw [hrun] at h
      cases h
    · rw [hrun] at h
      cases h
    · obtain ⟨-, hn, hu, -⟩ := Store.of_share_eq_ok hm
      exact ⟨r, hb, hn, hu⟩
  · rintro ⟨r, hb, hn, hu⟩
    obtain ⟨members, hm⟩ := Store.share_of_there change hn hu
    rcases changeShare_cases m c change request s with
      ⟨e, he, -⟩ | ⟨r', hr', ⟨e, he, -⟩ | ⟨members', -, hrun⟩⟩
    · rw [hb] at he
      cases he
    · rw [hb] at hr'
      cases hr'
      rw [hm] at he
      cases he
    · have hdone : ∃ u, (forEach (change.tell c m.instant members') r'.users).run
          { s with store := (s.store.share change r'.nodes r'.users).2 } = (.ok (), u) :=
        forEach_of_isResponsive (fun _ _ hl => change.tell_of_isResponsive hl) hr
      obtain ⟨u, hdone⟩ := hdone
      exact ⟨doneAt m, u, by rw [hrun, run_bind_ok hdone]; rfl⟩

end ChangeShare

end Call

/-! ### Recipients -/

/-- What is different on a server after a caller has shared nodes with users, or has ended that: the
lists of these users, in the named nodes, and which groups are open to them, in those that the caller
could pass on. -/
structure ShareChange.Done (change : ShareChange) (c : Caller) (r : ShareRequest) (s t : Server) :
    Prop where
  nodes : t.store.nodes = s.store.nodes
  lists : ∀ uid ∈ r.users, ∀ n, n ∈ t.store.sharedWith uid ↔
    change.After (n ∈ s.store.sharedWith uid) (n ∈ r.nodes)
  groups : ∀ uid ∈ r.users, ∀ g, t.Open uid g ↔
    change.After (s.Open uid g) (c.Reaches s.store r.nodes uid g)
  otherLists : ∀ uid ∉ r.users, t.store.sharedWith uid = s.store.sharedWith uid
  otherGroups : ∀ uid ∉ r.users, t.allowlist uid = s.allowlist uid

/-- **A share that succeeds has done what it is to do**, and nothing else. -/
theorem Call.done_of_changeShare {m : Moment} {c : Caller} (change : ShareChange)
    {request : ShareRequest} {s t : Server} {a : Answer} (hs : s.store.Sound) (hg : s.store.Grouped)
    (h : (changeShare m c change request).run s = (.ok a, t)) :
    ∃ r, request.bind c = .ok r ∧ change.Done c r s t := by
  obtain ⟨r, hb, ⟨members, hm⟩, hopen⟩ := open_changeShare hs hg h
  have hreached : s.store.reached r.nodes r.users = r.users := (Store.of_share_eq_ok hm).2.2.2
  have hstore := store_changeShare m c change request s
  rw [h, hb] at hstore
  simp only at hstore
  have hlist : ∀ uid, t.store.sharedWith uid =
      if uid ∈ r.users then change.apply r.nodes (s.store.sharedWith uid)
      else s.store.sharedWith uid := by
    intro uid
    rw [hstore, Store.sharedWith_share, hreached]
  refine ⟨r, hb, ⟨?_, fun uid hu n => ?_, fun uid hu g => ?_, fun uid hu => ?_, fun uid hu => ?_⟩⟩
  · rw [hstore, Store.nodes_share]
  · rw [hlist, if_pos hu, ShareChange.mem_apply]
  · rw [hopen, and_iff_right hu]
  · rw [hlist, if_neg hu]
  · have hkept := allowlist_changeShare m change s hb hu
    rwa [h] at hkept

/-- A stored node is one of some nodes or a direct child of one. -/
def Store.Member (s : Store) (nodes : List String) (k : String) (q : Record) : Prop :=
  s.nodes.find? k = some q ∧ ∃ p ∈ nodes, k = p ∨ s.Links p k

/-- The caller may pass a stored node on: it is readable, and it is the caller's own or may be shared;
an administrator may share every node. -/
def Caller.Passes (c : Caller) (q : Record) : Prop :=
  q.permissions.read = true ∧ (c.role = adminRole ∨ q.owner = c.uid ∨ q.permissions.share = true)

/-- **The group of a member that may be passed on is reached**, for whoever does not own it. -/
theorem Caller.reaches_of_member {c : Caller} {s : Store} {nodes : List String} {k uid : String}
    {q : Record} (hk : s.Member nodes k q) (hp : c.Passes q) (hown : q.owner ≠ uid) :
    c.Reaches s nodes uid q.group :=
  ⟨k, q, hk.1, rfl, ⟨hp.1, hown, hp.2⟩, hk.2⟩

namespace ShareChange

variable {c w : Caller} {r : ShareRequest} {s t : Server} {k : String} {q : Record}

/-- **What was shared is shown** to every recipient: all members that may be passed on. -/
theorem Done.shows (h : ShareChange.add.Done c r s t) (hw : w.uid ∈ r.users)
    (hk : s.store.Member r.nodes k q) (hp : c.Passes q) : t.Shows w k := by
  rw [shows_iff, h.nodes]
  refine ⟨q, hk.1, .inr ?_⟩
  by_cases hown : q.owner = w.uid
  · exact .inl hown
  · exact .inr ⟨hp.1, (h.groups _ hw _).2 (.inr (Caller.reaches_of_member hk hp hown))⟩

/-- **What is no longer shared is not shown** to any recipient but its owner and administrators. -/
theorem Done.not_shows (h : ShareChange.remove.Done c r s t) (hw : w.uid ∈ r.users)
    (hk : s.store.Member r.nodes k q) (hp : c.Passes q) (hown : q.owner ≠ w.uid)
    (hrole : w.role ≠ adminRole) : ¬ t.Shows w k := by
  rw [shows_iff, h.nodes]
  rintro ⟨q', hq', hv⟩
  rw [hk.1] at hq'
  cases hq'
  rcases hv with hv | hv | ⟨-, hopen⟩
  · exact hrole hv
  · exact hown hv
  · exact ((h.groups _ hw _).1 hopen).2 (Caller.reaches_of_member hk hp hown)

end ShareChange

namespace Http

/-- **Nodes are shared and no longer shared as the caller asks.** Start with any accounts and no
nodes, and let any requests be served. If a caller then shares nodes with users, all of them are on
the list of every recipient, and all the members among them and their direct children that are
readable and that the caller may pass on are shown to every recipient. If a caller ends that nodes are
shared with users, none of them is on the list of a recipient any more, and no such member is shown to
a recipient, unless the recipient owns it or is an administrator. Whoever is no recipient keeps list
and groups, and which groups are open to a recipient changes by those of such members alone. As long
as the registry answers, both are done whenever the request can be bound and its nodes and users are
there. -/
theorem share_unshare_exact {s₀ : Server} {history : List Visit} {accounts : List NewAccount}
    (hstore : s₀.store = .withAccounts accounts) (hfresh : FreshGroups history) (m : Moment)
    (c : Caller) (request : ShareRequest) :
    (∀ a t, ((Call.share request).perform m c).run (run s₀ history) = (.ok a, t) →
      ∃ r, request.bind c = .ok r ∧
        (∀ uid ∈ r.users, ∀ n ∈ r.nodes, n ∈ t.store.sharedWith uid) ∧
        (∀ w : Caller, w.uid ∈ r.users → ∀ k q, (run s₀ history).store.Member r.nodes k q →
          c.Passes q → t.Shows w k) ∧
        ShareChange.add.Done c r (run s₀ history) t) ∧
    (∀ a t, ((Call.unshare request).perform m c).run (run s₀ history) = (.ok a, t) →
      ∃ r, request.bind c = .ok r ∧
        (∀ uid ∈ r.users, ∀ n ∈ r.nodes, n ∉ t.store.sharedWith uid) ∧
        (∀ w : Caller, w.uid ∈ r.users → ∀ k q, (run s₀ history).store.Member r.nodes k q →
          c.Passes q → q.owner ≠ w.uid → w.role ≠ adminRole → ¬ t.Shows w k) ∧
        ShareChange.remove.Done c r (run s₀ history) t) ∧
    ((run s₀ history).registry.isResponsive = true → ∀ r, request.bind c = .ok r →
      (∀ n ∈ r.nodes, (run s₀ history).store.hasNode n = true) →
      (∀ uid ∈ r.users, (run s₀ history).store.hasAccount uid = true) →
      (∃ a t, ((Call.share request).perform m c).run (run s₀ history) = (.ok a, t)) ∧
      ∃ a t, ((Call.unshare request).perform m c).run (run s₀ history) = (.ok a, t)) := by
  obtain ⟨hs, hg⟩ := sound_and_grouped_run hstore hfresh
  refine ⟨fun a t h => ?_, fun a t h => ?_, fun hr r hb hn hu => ?_⟩
  · obtain ⟨r, hb, hdone⟩ := Call.done_of_changeShare .add hs hg h
    refine ⟨r, hb, fun uid hu n hn => ?_, fun w hw k q hk hp => ?_, hdone⟩
    · exact (hdone.lists uid hu n).2 (.inr hn)
    · exact hdone.shows hw hk hp
  · obtain ⟨r, hb, hdone⟩ := Call.done_of_changeShare .remove hs hg h
    refine ⟨r, hb, fun uid hu n hn hmem => ?_, fun w hw k q hk hp hown hrole => ?_, hdone⟩
    · exact ((hdone.lists uid hu n).1 hmem).2 hn
    · exact hdone.not_shows hw hk hp hown hrole
  · have hboth := fun change => (Call.changeShare_succeeds_iff m change hr).2 ⟨r, hb, hn, hu⟩
    exact ⟨hboth .add, hboth .remove⟩

namespace Circle

def moment : Moment := ⟨⟨0, 0⟩, 0, "", "G"⟩

/-- What the first user asks with the tokens of the folder and of the second user. -/
def folderWithBob : ShareRequest := ⟨[folderForAnn], [bobForAnn]⟩

theorem bind_folderWithBob : folderWithBob.bind (caller "0x1") = .ok ⟨["0x4"], ["0x2"]⟩ := by
  decide +kernel

/-- The first page is a member of what is shared with the folder, and the first user's own. -/
theorem member_page {s : Server} (h : s.store.nodes = ⟨nodes⟩) :
    ∃ q, s.store.Member ["0x4"] "0x5" q ∧ (caller "0x1").Passes q ∧ q.owner = "0x1" := by
  have hlink : s.store.Links "0x4" "0x5" :=
    ⟨node "rs" "AAAAAAAAAQ" ["0x5"], by rw [h]; rfl, by decide⟩
  exact ⟨node "rs" "AAAAAAAAAg" ["0x6"], ⟨by rw [h]; rfl, "0x4", by simp, .inr hlink⟩,
    ⟨rfl, .inr (.inl rfl)⟩, rfl⟩

end Circle

/-- The folder of the first user brings its first page along, and takes it away again. -/
theorem share_unshare_exact_folder :
    (∃ a t, ((Call.share Circle.folderWithBob).perform Circle.moment (Circle.caller "0x1")).run
        (run Circle.start Circle.drafts) = (.ok a, t) ∧ t.Shows (Circle.caller "0x2") "0x5") ∧
    ∃ a t, ((Call.unshare Circle.folderWithBob).perform Circle.moment (Circle.caller "0x1")).run
        (run Circle.start Circle.handout) = (.ok a, t) ∧ ¬ t.Shows (Circle.caller "0x2") "0x5" := by
  have hdrafts := share_unshare_exact Circle.start_store Circle.freshGroups_handout.of_append.1
    Circle.moment (Circle.caller "0x1") Circle.folderWithBob
  have hhandout := share_unshare_exact Circle.start_store Circle.freshGroups_handout
    Circle.moment (Circle.caller "0x1") Circle.folderWithBob
  rw [Circle.goes_drafts.run] at hdrafts ⊢
  rw [Circle.goes_handout.run] at hhandout ⊢
  constructor
  · obtain ⟨a, t, h⟩ := (hdrafts.2.2 rfl _ Circle.bind_folderWithBob (by decide) (by decide)).1
    obtain ⟨r, hb, -, hshown, -⟩ := hdrafts.1 a t h
    obtain rfl := Except.ok.inj (Circle.bind_folderWithBob.symm.trans hb)
    obtain ⟨q, hk, hp, -⟩ := Circle.member_page (s := Circle.withPages) rfl
    exact ⟨a, t, h, hshown _ (by decide) _ q hk hp⟩
  · obtain ⟨a, t, h⟩ := (hhandout.2.2 rfl _ Circle.bind_folderWithBob (by decide) (by decide)).2
    obtain ⟨r, hb, -, hhidden, -⟩ := hhandout.2.1 a t h
    obtain rfl := Except.ok.inj (Circle.bind_folderWithBob.symm.trans hb)
    obtain ⟨q, hk, hp, hown⟩ := Circle.member_page (s := Circle.folderShared) rfl
    refine ⟨a, t, h, hhidden _ (by decide) _ q hk hp ?_ (by decide)⟩
    rw [hown]
    decide

end Http

end SealedGraph
