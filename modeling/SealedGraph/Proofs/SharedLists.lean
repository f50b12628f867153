import SealedGraph.Proofs.Authority
import SealedGraph.Proofs.Revocation

/-!
# Lists of shared nodes and open groups

What was shared with a user is kept twice: as a list of nodes in the store, and as a list of groups
in the registry. A share adds to both and its end takes from both, but nodes are named while groups
are reached: through any node that has them, and through links as they are at that time. So the two
lists drift apart when nodes of one group are shared apart, when links are made or cut in between, and
when a node is taken back by someone who could not have passed on all that is below it.

* `Faultless`: what is assumed of the requests: fresh ids for groups, no forged tokens, and no share
  that fails.
* `Faultless.reaches_of_names`: whoever shares a node reaches its group.
* `shared_in_step`: how far the two lists agree.
* `shared_out_of_step`: a run in which they do not.
-/

namespace SealedGraph

theorem Call.references_of_sharing {call : Call} {change : ShareChange} {request : ShareRequest}
    (h : call.sharing? = some (change, request)) :
    call.references = request.nodes ++ request.users := by
  cases call with
  | share r =>
    cases h
    rfl
  | unshare r =>
    cases h
    rfl
  | _ => cases h

/-- A node on the list of a user, or a direct child of one, has a group. -/
def Server.Carries (s : Server) (uid g : String) : Prop :=
  ∃ p ∈ s.store.sharedWith uid, ∃ k q, s.store.nodes.find? k = some q ∧ q.group = g ∧
    (k = p ∨ s.store.Links p k)

namespace Http

open Attempt

/-- What is assumed of the requests to a server. -/
structure Faultless (s₀ : Server) (history : List Visit) : Prop where
  fresh : FreshGroups history
  /-- tokens of nodes and users that a caller can use were handed out before -/
  genuine : ∀ {before w after c token p}, history = before ++ w :: after →
    ((Service.authenticate w.moment w.request.credentials).run (run s₀ before)).1 = .ok c →
    token ∈ w.request.references → Envelope.verify c.key.bytes token = .ok p →
    ∃ x ∈ transcript s₀ before, token ∈ x.tokens
  /-- whoever is let in and asks for nodes to be shared, or for that to end, succeeds -/
  shares : ∀ x ∈ transcript s₀ history, ¬ x.FailsToShare

/-- What has become of a node that was shared with a user, and of a child that it had then: the node
is still on the list but no longer links to the child; or it was taken off the list when it did not
link to it, or by someone who may not pass on the child. -/
def Adrift (t : Server) (since : List Exchange) (uid p k : String) : Prop :=
  (p ∈ t.store.sharedWith uid ∧ ¬ t.store.Links p k) ∨
  ∃ y ∈ since, ∃ c r, y.Shares .remove c r ∧ uid ∈ r.users ∧ p ∈ r.nodes ∧
    (¬ y.before.store.Links p k ∨
      ∃ q, y.before.store.nodes.find? k = some q ∧ c.role ≠ adminRole ∧ q.owner ≠ c.uid ∧
        q.permissions.share = false)

namespace Faultless

variable {s₀ : Server} {history before after : List Visit} {w : Visit} {change : ShareChange}
  {c : Caller} {r : ShareRequest} {uid n : String} {q : Record}

/-- **Whoever names a node may pass it on**, to users whose own it is not. -/
theorem mayPass_of_shares (h : Faultless s₀ history) (hs : s₀.store.Sound)
    (e : history = before ++ w :: after) (hx : (exchange (run s₀ before) w).Shares change c r)
    (hn : n ∈ r.nodes) (hq : (run s₀ before).store.nodes.find? n = some q)
    (hread : q.permissions.read = true) (hown : q.owner ≠ uid) : c.MayPass uid q := by
  refine ⟨hread, hown, ?_⟩
  by_cases hrole : c.role = adminRole
  · exact .inl hrole
  · obtain ⟨call, request, a, ho, hc, hb⟩ := hx.outcome
    obtain ⟨s', ha, hcall, -⟩ := of_exchange_call ho
    have href : w.request.references = request.nodes ++ request.users := by
      unfold Request.references
      rw [hcall]
      exact Call.references_of_sharing hc
    have ht : c.Truthful (run s₀ before).store (request.nodes ++ request.users) := by
      refine truthful_of_handed_out hs fun token ht p hp => ?_
      exact h.genuine e (by rw [ha]) (by rwa [href]) hp
    obtain ⟨q', hq', hmay⟩ := ShareRequest.of_bind_eq_ok hrole hb ht n hn .share q (by decide) hq
    rw [hq] at hq'
    cases hq'
    exact .inr hmay

section Run

variable (h : Faultless s₀ history) (hs : s₀.store.Sound) (hg : s₀.store.Grouped)

include h hs

theorem switches_sharedWith (uid n : String) :
    Switches (fun t => n ∈ t.store.sharedWith uid) (·.Names .add uid n) (·.Names .remove uid n) s₀
      history :=
  Http.switches_sharedWith hs h.shares uid n

/-- **Whoever names a node reaches its group**, for users whose own it is not. The node is looked
at after all requests, but that makes no difference. -/
theorem reaches_of_names (e : history = before ++ w :: after)
    (hx : (exchange (run s₀ before) w).Names change uid n)
    (hq : (run s₀ history).store.nodes.find? n = some q) (hread : q.permissions.read = true)
    (hown : q.owner ≠ uid) : (exchange (run s₀ before) w).Reaches change uid q.group := by
  obtain ⟨c, r, hx, hu, hn⟩ := hx
  obtain ⟨members, hm⟩ := share_of_shares hx
  obtain ⟨q₀, hq₀⟩ := Index.contains_iff.1 ((Store.of_share_eq_ok hm).2.1 n hn)
  obtain ⟨q₁, hq₁, hown₁, hperm₁, hgroup₁⟩ := find?_run_append (sound_run hs before) hq₀
  rw [← e, hq] at hq₁
  cases hq₁
  have hmay := h.mayPass_of_shares hs e hx hn hq₀ (by rwa [← hperm₁]) (by rwa [← hown₁])
  exact ⟨c, r, hx, hu, n, q₀, hq₀, hgroup₁.symm, hmay, n, hn, .inl rfl⟩

/-- **A node that was put on a list and is not on it any more** was taken off by a later request. -/
theorem exists_names_remove (e : history = before ++ w :: after)
    (hx : (exchange (run s₀ before) w).Names .add uid n)
    (hn : n ∉ (run s₀ history).store.sharedWith uid) :
    ∃ b w' a, after = b ++ w' :: a ∧
      (exchange (run s₀ (before ++ w :: b)) w').Names .remove uid n := by
  have hswitches := h.switches_sharedWith hs uid n
  have hon := (hswitches before w after e).2 (.inl hx)
  have e' : history = before ++ [w] ++ after := by simp [e]
  by_contra hno
  rw [e'] at hswitches
  have hlast := hswitches.of_append_right.lasts hon fun y hy hoff => by
    obtain ⟨pre, post, et⟩ := List.append_of_mem hy
    obtain ⟨b, w', a, ea, -, rfl, -⟩ := eq_append_of_transcript et
    rw [← run_append, List.append_assoc] at hoff
    exact hno ⟨b, w', a, ea, hoff⟩
  rw [← run_append, ← e'] at hlast
  exact hn hlast

include hg

theorem switches_open (uid g : String) :
    Switches (fun t => t.Open uid g) (·.Reaches .add uid g) (·.Reaches .remove uid g) s₀ history :=
  Http.switches_open hs hg h.fresh (fun x hx hcut => h.shares x hx hcut.failsToShare) uid g

/-- **A node on a list that is hidden** was put there before its group was closed to the user. -/
theorem closed_since_shared {u : Caller}
    (hlist : n ∉ s₀.store.sharedWith u.uid)
    (hn : n ∈ (run s₀ history).store.sharedWith u.uid)
    (hq : (run s₀ history).store.nodes.find? n = some q) (hread : q.permissions.read = true)
    (hhidden : ¬ (run s₀ history).Shows u n) :
    ∃ pre x post, transcript s₀ history = pre ++ x :: post ∧ x.Names .add u.uid n ∧
      (∀ y ∈ post, ¬ y.Names .add u.uid n ∧ ¬ y.Names .remove u.uid n) ∧
      ∃ y ∈ post, y.Reaches .remove u.uid q.group := by
  rw [shows_iff] at hhidden
  obtain ⟨pre, x, post, et, hx, hpost⟩ :=
    ((h.switches_sharedWith hs u.uid n).since hn).resolve_left hlist
  refine ⟨pre, x, post, et, hx, hpost, ?_⟩
  obtain ⟨before, w, after, e, rfl, rfl, rfl⟩ := eq_append_of_transcript et
  by_contra hno
  have hown : q.owner ≠ u.uid := fun hown => hhidden ⟨q, hq, .inr (.inl hown)⟩
  have hreach := h.reaches_of_names hs e hx hq hread hown
  have hswitches := h.switches_open hs hg u.uid q.group
  have hopen := (hswitches before w after e).2 (.inl hreach)
  have e' : history = before ++ [w] ++ after := by simp [e]
  rw [e'] at hswitches
  have hlast := hswitches.of_append_right.lasts hopen fun y hy hoff => hno ⟨y, hy, hoff⟩
  rw [← run_append, ← e'] at hlast
  exact hhidden ⟨q, hq, .inr (.inr ⟨hread, hlast⟩)⟩

omit hg in
/-- **Whoever takes a node off a list and leaves open the group of one below it** does so when the
node does not link to this one, or may not pass it on. -/
theorem parted_of_names {k p : String} (e : history = before ++ w :: after)
    (hoff : (exchange (run s₀ before) w).Names .remove uid p)
    (hq : (run s₀ before).store.nodes.find? k = some q) (hread : q.permissions.read = true)
    (hown : q.owner ≠ uid) (hleft : ¬ (exchange (run s₀ before) w).Reaches .remove uid q.group) :
    k ≠ p ∧ ∃ c r, (exchange (run s₀ before) w).Shares .remove c r ∧ uid ∈ r.users ∧ p ∈ r.nodes ∧
      (¬ (run s₀ before).store.Links p k ∨
        ∃ q, (run s₀ before).store.nodes.find? k = some q ∧ c.role ≠ adminRole ∧
          q.owner ≠ c.uid ∧ q.permissions.share = false) := by
  constructor
  · rintro rfl
    obtain ⟨q₁, hq₁, hown₁, hperm₁, hgroup₁⟩ := find?_run_append (sound_run hs before) hq
    rw [← e] at hq₁
    have hreach := h.reaches_of_names hs e hoff hq₁ (by rwa [hperm₁]) (by rwa [hown₁])
    rw [hgroup₁] at hreach
    exact hleft hreach
  · obtain ⟨c, r, hshares, hu, hp⟩ := hoff
    refine ⟨c, r, hshares, hu, hp, ?_⟩
    by_cases hlink : (run s₀ before).store.Links p k
    · have hmay : ¬ (c.role = adminRole ∨ q.owner = c.uid ∨ q.permissions.share = true) := fun hmay =>
        hleft ⟨c, r, hshares, hu, k, q, hq, rfl, ⟨hread, hown, hmay⟩, p, hp, .inr hlink⟩
      rw [not_or, not_or, Bool.not_eq_true] at hmay
      exact .inr ⟨q, hq, hmay⟩
    · exact .inl hlink

/-- **A group that is open but not carried** was reached through a node and its child, which have
been parted since. -/
theorem adrift_of_open {g : String} (hclosed : ¬ s₀.Open uid g) (hopen : (run s₀ history).Open uid g)
    (hnot : ¬ (run s₀ history).Carries uid g) :
    ∃ pre x post p k, transcript s₀ history = pre ++ x :: post ∧ x.Names .add uid p ∧
      x.before.store.Links p k ∧
      (∃ q, x.before.store.nodes.find? k = some q ∧ q.group = g) ∧
      (∀ y ∈ post, ¬ y.Reaches .add uid g ∧ ¬ y.Reaches .remove uid g) ∧
      Adrift (run s₀ history) post uid p k := by
  obtain ⟨pre, x, post, et, hx, hpost⟩ :=
    ((h.switches_open hs hg uid g).since hopen).resolve_left hclosed
  obtain ⟨before, w, after, e, rfl, rfl, rfl⟩ := eq_append_of_transcript et
  obtain ⟨c, r, hx, hu, k, q, hq, rfl, ⟨hread, hown, -⟩, p, hp, hk⟩ := hx
  have hq : (run s₀ before).store.nodes.find? k = some q := hq
  have hk : k = p ∨ (run s₀ before).store.Links p k := hk
  have hnames : (exchange (run s₀ before) w).Names .add uid p := ⟨c, r, hx, hu, hp⟩
  suffices hparted : k ≠ p ∧ Adrift (run s₀ history)
      (transcript (run s₀ (before ++ [w])) after) uid p k from
    ⟨_, _, _, p, k, et, hnames, hk.resolve_left hparted.1, ⟨q, hq, rfl⟩, hpost, hparted.2⟩
  by_cases hlist : p ∈ (run s₀ history).store.sharedWith uid
  · -- The node is still on the list, so it cannot have the group, nor link to the child.
    obtain ⟨q₁, hq₁, -, -, hgroup₁⟩ := find?_run_append (sound_run hs before) hq
    rw [← e] at hq₁
    refine ⟨fun hkp => hnot ⟨p, hlist, k, q₁, hq₁, hgroup₁, .inl hkp⟩, .inl ⟨hlist, fun hlink => ?_⟩⟩
    exact hnot ⟨p, hlist, k, q₁, hq₁, hgroup₁, .inr hlink⟩
  · -- Some request took the node off, and did not reach the group.
    obtain ⟨b, w', a, rfl, hoff⟩ := h.exists_names_remove hs e hnames hlist
    have hy : exchange (run s₀ (before ++ w :: b)) w' ∈
        transcript (run s₀ (before ++ [w])) (b ++ w' :: a) := by
      have hmem := mem_transcript_of_append (s := run s₀ (before ++ [w])) (rfl : b ++ w' :: a = _)
      rwa [← run_append, List.append_assoc] at hmem
    obtain ⟨q₂, hq₂, hown₂, hperm₂, hgroup₂⟩ := find?_run_append (sound_run hs before) hq
    have e' : history = (before ++ w :: b) ++ w' :: a := by simp [e]
    obtain ⟨hne, hparted⟩ := h.parted_of_names hs e' hoff hq₂ (by rwa [hperm₂]) (by rwa [hown₂])
      (by rw [hgroup₂]; exact (hpost _ hy).2)
    exact ⟨hne, .inr ⟨_, hy, hparted⟩⟩

end Run

theorem nil (s₀ : Server) : Faultless s₀ [] where
  fresh v hv := by cases hv
  genuine {before w after c token p} e := by simp at e
  shares x hx := by cases hx

/-- One more request. -/
theorem concat (h : Faultless s₀ history)
    (hfresh : ∃ millis random, w.moment.group = Fresh.groupId millis random)
    (hgenuine : ∀ token ∈ w.request.references, ∃ x ∈ transcript s₀ history, token ∈ x.tokens)
    (hstatus : (exchange (run s₀ history) w).outcome.response.status = 200) :
    Faultless s₀ (history ++ [w]) where
  fresh v hv := by
    rcases List.mem_append.1 hv with hv | hv
    · exact h.fresh v hv
    · rw [List.mem_singleton.1 hv]
      exact hfresh
  genuine {before w' after c token p} e ha ht hp := by
    rcases List.eq_nil_or_concat after with rfl | ⟨after', w'', rfl⟩
    · obtain ⟨hb, hw⟩ := List.append_inj' e rfl
      rw [← hb]
      rw [← List.singleton_inj.1 hw] at ht
      exact hgenuine token ht
    · rw [List.concat_eq_append, ← List.cons_append, ← List.append_assoc] at e
      exact h.genuine (List.append_inj' e rfl).1 ha ht hp
  shares x hx := by
    rw [transcript_concat] at hx
    rcases List.mem_append.1 hx with hx | hx
    · exact h.shares x hx
    · rw [List.mem_singleton.1 hx]
      exact Exchange.not_failsToShare_of_status hstatus

end Faultless

/-- **Lists of shared nodes and open groups agree but for groups that were taken back with other
nodes, and for nodes that were parted.** Start with any accounts, no nodes and no open groups, and
let any requests be served of which no share fails. A readable node on the list of a user is shown
to the user, unless since it was put there a share with the user was ended that reached its group.
A group that is open to a user is the group of a node on the user's list or of a direct child of
one, unless it was reached last as the group of a child of a node, and since then the child is no
longer linked from the node, or the node was taken off the list when it did not link to the child or
by someone who may not pass on the child. -/
theorem shared_in_step {s₀ : Server} {history : List Visit} {accounts : List NewAccount}
    (hstore : s₀.store = .withAccounts accounts) (hgroups : s₀.groups = ∅)
    (h : Faultless s₀ history) :
    (∀ u n q, n ∈ (run s₀ history).store.sharedWith u.uid →
      (run s₀ history).store.nodes.find? n = some q → q.permissions.read = true →
      ¬ (run s₀ history).Shows u n →
      ∃ pre x post, transcript s₀ history = pre ++ x :: post ∧ x.Names .add u.uid n ∧
        (∀ y ∈ post, ¬ y.Names .add u.uid n ∧ ¬ y.Names .remove u.uid n) ∧
        ∃ y ∈ post, y.Reaches .remove u.uid q.group) ∧
    ∀ uid g, (run s₀ history).Open uid g → (run s₀ history).Carries uid g ∨
      ∃ pre x post p k, transcript s₀ history = pre ++ x :: post ∧ x.Names .add uid p ∧
        x.before.store.Links p k ∧
        (∃ q, x.before.store.nodes.find? k = some q ∧ q.group = g) ∧
        (∀ y ∈ post, ¬ y.Reaches .add uid g ∧ ¬ y.Reaches .remove uid g) ∧
        Adrift (run s₀ history) post uid p k := by
  have hnone : FreshGroups [] := fun v hv => by cases hv
  obtain ⟨hs, hg⟩ := sound_and_grouped_run hstore hnone
  refine ⟨fun u n q hn hq hread hhidden => ?_, fun uid g hopen => ?_⟩
  · refine h.closed_since_shared hs hg ?_ hn hq hread hhidden
    rw [hstore, Store.sharedWith_withAccounts]
    exact List.not_mem_nil
  · by_cases hcarries : (run s₀ history).Carries uid g
    · exact .inl hcarries
    · have hclosed := not_open_of_groups_eq_empty hgroups uid g
      exact .inr (h.adrift_of_open hs hg hclosed hopen hcarries)

/-! ### Two lists that drift apart -/

namespace Circle

def pageForAnn : String := "MHg1LjB4MS5ycw.5DU87kWyBgOBmuuSjc8_U2weroEdHuOjyZCb_rMod3w"

/-- The first user cuts the link from the first node to the second. -/
def unlink : Visit :=
  visit bearerAnn 3 .delete "/graph/edges"
    ("\x7b\"subject_ids\":[\"" ++ folderForAnn ++ "\"],\"outgoing_ids\":[\"" ++ pageForAnn ++
      "\"]\x7d")

def unlinked : Server :=
  server 6
    [("0x4", node "rs" "AAAAAAAAAQ" []), ("0x5", node "rs" "AAAAAAAAAg" ["0x6"]),
      ("0x6", node "r" "AAAAAAAAAg" [])]
    ["0x4"] ["0x4"] ["0x5"] [("0x2", ["AAAAAAAAAQ", "AAAAAAAAAg"])]

theorem serves_unlink : Serves regranted unlink none unlinked := by decide +kernel

theorem references_drafts :
    makeFolder.request.references = [] ∧ findBob.request.references = [] ∧
      makePages.request.references = [folderForAnn] ∧
      shareFolder.request.references = [folderForAnn, bobForAnn] := by
  decide +kernel

theorem goes_shareFolder : Goes start (drafts ++ [shareFolder])
    ([none, none, none] ++ [some (.add, caller "0x1", ⟨["0x4"], ["0x2"]⟩)]) folderShared :=
  goes_drafts.append (.cons serves_shares.1 (.nil _))

theorem goes_unlink : Goes start (passed ++ withdraw :: [findSelf, regrant, unlink])
    ((([none, none, none] ++ [some (.add, caller "0x1", ⟨["0x4"], ["0x2"]⟩), none, none]) ++
      [some (.add, caller "0x2", ⟨["0x5"], ["0x3"]⟩), none]) ++
      ([some (.remove, caller "0x1", ⟨["0x4"], ["0x2", "0x3"]⟩)] ++
        ([none, some (.add, caller "0x2", ⟨["0x4"], ["0x2"]⟩)] ++ [none]))) unlinked :=
  goes_passed.append (goes_withdraw.append (goes_regrant.append (.cons serves_unlink (.nil _))))

/-- The token of the first node was handed out when it was created. -/
theorem folderForAnn_handed_out {visits : List Visit} :
    ∃ x ∈ transcript start (makeFolder :: visits), folderForAnn ∈ x.tokens :=
  ⟨exchange start makeFolder, List.mem_cons_self, serves_drafts.1.2⟩

theorem run_makeFolder : run start [makeFolder] = withFolder :=
  (Goes.cons serves_drafts.1.1 (.nil _)).run

theorem run_findBob : run start [makeFolder, findBob] = withFolder :=
  (Goes.cons serves_drafts.1.1 (.cons serves_drafts.2.1.1 (.nil _))).run

theorem bobForAnn_handed_out : ∃ x ∈ transcript start drafts, bobForAnn ∈ x.tokens := by
  have e : drafts = [makeFolder] ++ findBob :: [makePages] := rfl
  have hmem := mem_transcript_of_append (s := start) e
  rw [run_makeFolder] at hmem
  exact ⟨_, hmem, serves_drafts.2.1.2⟩

theorem faultless_drafts : Faultless start drafts := by
  obtain ⟨⟨⟨-, hfolder200, -⟩, -⟩, ⟨⟨-, hbob200, -⟩, -⟩, -, hpages200, -⟩ := serves_drafts
  obtain ⟨hfolderRefs, hbobRefs, hpagesRefs, -⟩ := references_drafts
  have hfolder : Faultless start [makeFolder] := by
    refine (Faultless.nil start).concat ⟨_, _, rfl⟩ ?_ hfolder200
    rw [hfolderRefs]
    simp
  have hbob : Faultless start [makeFolder, findBob] := by
    refine hfolder.concat (w := findBob) ⟨_, _, rfl⟩ ?_ ?_
    · rw [hbobRefs]
      simp
    · rw [run_makeFolder]
      exact hbob200
  refine hbob.concat (w := makePages) ⟨_, _, rfl⟩ ?_ ?_
  · rw [hpagesRefs]
    simpa using folderForAnn_handed_out
  · rw [run_findBob]
    exact hpages200

theorem faultless_shareFolder : Faultless start (drafts ++ [shareFolder]) := by
  refine faultless_drafts.concat ⟨_, _, rfl⟩ ?_ ?_
  · rw [references_drafts.2.2.2]
    simp only [List.forall_mem_cons, List.not_mem_nil, false_implies, implies_true, and_true]
    exact ⟨folderForAnn_handed_out, bobForAnn_handed_out⟩
  · rw [goes_drafts.run]
    exact serves_shares.1.2.1

/-- The first node has no children any more, and is of another group. -/
theorem not_carries_unlinked : ¬ unlinked.Carries "0x2" "AAAAAAAAAg" := by
  rintro ⟨p, hp, k, q, hq, hgroup, hk⟩
  have hp : p ∈ ["0x4"] := hp
  rw [List.mem_singleton] at hp
  subst hp
  have hk : k = "0x4" := by
    refine hk.resolve_right ?_
    rintro ⟨r, hr, hm⟩
    cases hr
    cases hm
  subst hk
  cases hq
  exact absurd hgroup (by decide)

end Circle

/-- The first node is on the list of the second user and is shown, since nothing was taken back. -/
theorem shared_in_step_folder :
    (run Circle.start (Circle.drafts ++ [Circle.shareFolder])).Shows (Circle.caller "0x2") "0x4" := by
  by_contra hhidden
  have hrun := Circle.goes_shareFolder.run
  have hn : "0x4" ∈ (run Circle.start
      (Circle.drafts ++ [Circle.shareFolder])).store.sharedWith (Circle.caller "0x2").uid := by
    rw [hrun]
    decide
  have hq : (run Circle.start (Circle.drafts ++ [Circle.shareFolder])).store.nodes.find? "0x4" =
      some (Circle.node "rs" "AAAAAAAAAQ" ["0x5"]) := by
    rw [hrun]
    rfl
  obtain ⟨pre, x, post, et, -, -, y, hy, c, r, hshares, -⟩ :=
    (shared_in_step Circle.start_store rfl Circle.faultless_shareFolder).1 _ _ _ hn hq rfl hhidden
  have hmem : y ∈ transcript Circle.start (Circle.drafts ++ [Circle.shareFolder]) := by
    rw [et]
    exact List.mem_append_right _ (List.mem_cons_of_mem _ hy)
  have hask := List.mem_map_of_mem (f := Exchange.sharing?) hmem
  rw [Circle.goes_shareFolder.asked, hshares.2] at hask
  simp at hask

/-- **The lists drift apart.** Once the first node is no longer shared with the third user the second
one is hidden, though it is on the list. And once the first node no longer links to the second, the
group of the second is still open to the second user, who has nothing of it. -/
theorem shared_out_of_step :
    Circle.start.store = .withAccounts Circle.accounts ∧ Circle.start.groups = ∅ ∧
    Circle.start.registry.isResponsive = true ∧
    (∀ x ∈ transcript Circle.start
        (Circle.passed ++ Circle.withdraw :: [Circle.findSelf, Circle.regrant, Circle.unlink]),
      x.outcome.response.status = 200) ∧
    ("0x5" ∈ (run Circle.start (Circle.passed ++ [Circle.withdraw])).store.sharedWith "0x3" ∧
      (∃ q, (run Circle.start (Circle.passed ++ [Circle.withdraw])).store.nodes.find? "0x5" =
        some q ∧ q.permissions.read = true) ∧
      ¬ (run Circle.start (Circle.passed ++ [Circle.withdraw])).Shows (Circle.caller "0x3") "0x5") ∧
    (run Circle.start (Circle.passed ++ Circle.withdraw ::
      [Circle.findSelf, Circle.regrant, Circle.unlink])).Open "0x2" "AAAAAAAAAg" ∧
    ¬ (run Circle.start (Circle.passed ++ Circle.withdraw ::
      [Circle.findSelf, Circle.regrant, Circle.unlink])).Carries "0x2" "AAAAAAAAAg" := by
  rw [Circle.goes_unlink.run, Circle.run_withdraw]
  refine ⟨Circle.start_store, rfl, rfl, Circle.goes_unlink.status,
    ⟨by decide, ⟨_, rfl, rfl⟩, by decide +kernel⟩, ?_, Circle.not_carries_unlinked⟩
  unfold Server.Open
  decide

end Http

end SealedGraph
