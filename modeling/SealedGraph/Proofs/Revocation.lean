import SealedGraph.Proofs.Resharing

/-!
# What is left after nodes are no longer shared

Once a node is no longer shared with a user its group is closed to the user, and only another share
opens it again. Who may make this share is not bound to who ended the last one: tokens that were
handed out are good for ever, and users may name themselves. So what keeps a user out for good is
that no node of the group may be shared by others than its owner.

* `Exchange.Regrants`: a request that opens a group to a user again.
* `revocation_lasts`: without such a request the node is not shown to the user again.
* `revocation_undone`: a run in which the user makes this request.
-/

namespace SealedGraph.Http

open Attempt

/-- Someone shares with a user a node that has a group or links to one that has it. This one is
readable, and unless it may be shared it is not the user who shares it, or does so as an
administrator. -/
def Exchange.Regrants (x : Exchange) (uid g : String) : Prop :=
  ∃ c r, x.Shares .add c r ∧ uid ∈ r.users ∧
    ∃ k q, x.before.store.nodes.find? k = some q ∧ q.group = g ∧
      (∃ p ∈ r.nodes, k = p ∨ x.before.store.Links p k) ∧ q.permissions.read = true ∧
      (c.uid = uid → c.role = adminRole ∨ q.permissions.share = true)

theorem Exchange.Reaches.regrants {x : Exchange} {uid g : String} (h : x.Reaches .add uid g) :
    x.Regrants uid g := by
  obtain ⟨c, r, hx, hu, k, q, hq, hgroup, ⟨hread, hown, hmay⟩, hp⟩ := h
  refine ⟨c, r, hx, hu, k, q, hq, hgroup, hp, hread, ?_⟩
  rintro rfl
  exact hmay.imp_right fun hmay => hmay.resolve_left hown

section Step

variable {s : Server} {v : Visit} {c : Caller} {r : ShareRequest} {n : String} {q : Record}

/-- **A node is hidden from a user** as soon as its owner, or an administrator, has ended that it is
shared with the user. -/
theorem not_open_of_shares (hs : s.store.Sound) (hg : s.store.Grouped)
    (h : (exchange s v).Shares .remove c r) {uid : String} (hu : uid ∈ r.users) (hn : n ∈ r.nodes)
    (hq : s.store.nodes.find? n = some q) (hread : q.permissions.read = true)
    (hc : c.uid = q.owner ∨ c.role = adminRole) (hown : uid ≠ q.owner) :
    ¬ (serve v.moment v.request s).2.Open uid q.group := by
  have hmay : c.MayPass uid q := ⟨hread, hown.symm, hc.symm.imp_right fun h => .inl h.symm⟩
  rw [open_of_shares hs hg h]
  exact fun hopen => hopen.2 ⟨hu, n, q, hq, rfl, hmay, n, hn, .inl rfl⟩

end Step

/-- **A node that is no longer shared with a user is not shown to the user again**, unless someone
shares it or another node of its group with the user again. Start with any accounts and no nodes, let
any requests be served, then one by which the owner of a readable node or an administrator ends that
the node is shared with a user who is not the owner, and then any others. If the node is shown to
this user after all, who is no administrator at that time, then one of these others opened the group
of the node to the user. -/
theorem revocation_lasts {s₀ : Server} {before after : List Visit} {accounts : List NewAccount}
    {w : Visit} {c u : Caller} {r : ShareRequest} {n : String} {q : Record}
    (hstore : s₀.store = .withAccounts accounts) (hr : s₀.registry.isResponsive = true)
    (hfresh : FreshGroups (before ++ w :: after))
    (hends : (exchange (run s₀ before) w).Shares .remove c r) (hn : n ∈ r.nodes)
    (hu : u.uid ∈ r.users) (hq : (run s₀ before).store.nodes.find? n = some q)
    (hread : q.permissions.read = true) (hc : c.uid = q.owner ∨ c.role = adminRole)
    (hown : u.uid ≠ q.owner) (hrole : u.role ≠ adminRole)
    (hshown : (run s₀ (before ++ w :: after)).Shows u n) :
    ∃ x ∈ transcript (run s₀ (before ++ [w])) after, x.Regrants u.uid q.group := by
  have e : before ++ w :: after = before ++ [w] ++ after := by simp
  rw [e] at hfresh
  obtain ⟨hs, hg⟩ := sound_and_grouped_run hstore hfresh.of_append.1.of_append.1
  obtain ⟨hs₁, hg₁⟩ := sound_and_grouped_run hstore hfresh.of_append.1
  have hclosed : ¬ (run s₀ (before ++ [w])).Open u.uid q.group := by
    rw [run_concat]
    exact not_open_of_shares hs hg hends hu hn hq hread hc hown
  have hopen : (run (run s₀ (before ++ [w])) after).Open u.uid q.group := by
    rw [← run_append, ← e]
    -- The node has kept its owner and its group.
    obtain ⟨q₁, hq₁, hown₁, -, hgroup₁⟩ := find?_run_append hs hq
    obtain ⟨q₂, hq₂, hv⟩ := shows_iff.1 hshown
    rw [hq₁] at hq₂
    cases hq₂
    rw [← hgroup₁]
    rcases hv with hv | hv | hv
    · exact absurd hv hrole
    · exact absurd (hv.symm.trans hown₁) hown
    · exact hv.2
  have hswitches := switches_open hs₁ hg₁ hfresh.of_append.2
    (fun x hx => not_cutShort_of_mem_transcript (responsive_run hr _) hx) u.uid q.group
  rcases hswitches.since hopen with hopen | ⟨pre, x, post, e, hx, -⟩
  · exact absurd hopen hclosed
  · exact ⟨x, by rw [e]; simp, hx.regrants⟩

/-! ### A user who takes back what was ended

The first user looks up the third and ends that the first node is shared with the other two. The
second user looks up the second user, and shares the first node with the second user.
-/

namespace Circle

def calForAnn : String := "MHgzLnVzZXIu.Ds2vHjsdJoQ1i3JzJc1BljQugMoHSFv7isoldngsJXM"
def folderForBob : String := "MHg0LjB4MS5ycw.7Ay3VkOTHShJ1dYeotI9ddScOpchX7qjHyWjWfbTa0Q"
def bobForBob : String := "MHgyLnVzZXIu.YZx508nqztjzbYZMSPnQBfAtmb8db3kDz5GBDRBvkTg"

def annFindsCal : Visit := visit bearerAnn 3 .get "/user/name/cal" ""

def withdraw : Visit := sharing bearerAnn .delete folderForAnn [bobForAnn, calForAnn]

def findSelf : Visit := visit bearerBob 3 .get "/user/name/bob" ""

def regrant : Visit := sharing bearerBob .put folderForBob [bobForBob]

/-- The requests before the first user ends anything. -/
def passed : List Visit := handout ++ [passPage, annFindsCal]

def withdrawn : Server := server 6 nodes ["0x4"] [] ["0x5"] []

def regranted : Server :=
  server 6 nodes ["0x4"] ["0x4"] ["0x5"] [("0x2", ["AAAAAAAAAQ", "AAAAAAAAAg"])]

theorem serves_withdraw :
    Serves pagePassed annFindsCal none pagePassed ∧
      Serves pagePassed withdraw (some (.remove, caller "0x1", ⟨["0x4"], ["0x2", "0x3"]⟩))
        withdrawn :=
  ⟨by decide +kernel, by decide +kernel⟩

-- The second user's own requests are all it takes for the first node to be shown again.
theorem serves_regrant :
    (Serves withdrawn findSelf none withdrawn ∧
      Serves withdrawn regrant (some (.add, caller "0x2", ⟨["0x4"], ["0x2"]⟩)) regranted) ∧
      ¬ withdrawn.Shows (caller "0x2") "0x4" ∧ regranted.Shows (caller "0x2") "0x4" :=
  ⟨⟨by decide +kernel, by decide +kernel⟩, by decide +kernel⟩

theorem goes_passed : Goes start passed
    (([none, none, none] ++ [some (.add, caller "0x1", ⟨["0x4"], ["0x2"]⟩), none, none]) ++
      [some (.add, caller "0x2", ⟨["0x5"], ["0x3"]⟩), none]) pagePassed :=
  goes_handout.append (.cons serves_shares.2.2.2 (.cons serves_withdraw.1 (.nil _)))

theorem goes_withdraw : Goes pagePassed [withdraw]
    [some (.remove, caller "0x1", ⟨["0x4"], ["0x2", "0x3"]⟩)] withdrawn :=
  .cons serves_withdraw.2 (.nil _)

theorem goes_regrant : Goes withdrawn [findSelf, regrant]
    [none, some (.add, caller "0x2", ⟨["0x4"], ["0x2"]⟩)] regranted :=
  .cons serves_regrant.1.1 (.cons serves_regrant.1.2 (.nil _))

theorem run_withdraw : run start (passed ++ [withdraw]) = withdrawn :=
  (goes_passed.append goes_withdraw).run

theorem run_regrant : run start (passed ++ withdraw :: [findSelf, regrant]) = regranted :=
  (goes_passed.append (goes_withdraw.append goes_regrant)).run

theorem freshGroups_regrant : FreshGroups (passed ++ withdraw :: [findSelf, regrant]) := by
  intro v hv
  simp only [passed, List.mem_append, List.mem_cons, List.not_mem_nil, or_false] at hv
  rcases hv with (hv | rfl | rfl) | rfl | rfl | rfl
  · exact freshGroups_handout v hv
  all_goals exact ⟨_, _, rfl⟩

/-- Nobody but the second user shares anything. -/
theorem uid_of_shares {x : Exchange} (hx : x ∈ transcript withdrawn [findSelf, regrant])
    {c : Caller} {r : ShareRequest} (h : x.Shares .add c r) : c.uid = "0x2" := by
  have hask := List.mem_map_of_mem (f := Exchange.sharing?) hx
  rw [goes_regrant.asked, h.2] at hask
  simp only [List.mem_cons, reduceCtorEq, List.not_mem_nil, or_false, false_or,
    Option.some.injEq, Prod.mk.injEq] at hask
  rw [hask.2.1]
  rfl

end Circle

/-- The second user, to whom the first node is shown again, is among those who shared it. -/
theorem revocation_lasts_regrant :
    ∃ x ∈ transcript (run Circle.start (Circle.passed ++ [Circle.withdraw]))
      [Circle.findSelf, Circle.regrant], x.Regrants "0x2" "AAAAAAAAAQ" := by
  have hends : (exchange (run Circle.start Circle.passed) Circle.withdraw).Shares .remove
      (Circle.caller "0x1") ⟨["0x4"], ["0x2", "0x3"]⟩ := by
    rw [Circle.goes_passed.run]
    exact Circle.serves_withdraw.2.shares
  have hq : (run Circle.start Circle.passed).store.nodes.find? "0x4" =
      some (Circle.node "rs" "AAAAAAAAAQ" ["0x5"]) := by
    rw [Circle.goes_passed.run]
    rfl
  have hshown : (run Circle.start
      (Circle.passed ++ Circle.withdraw :: [Circle.findSelf, Circle.regrant])).Shows
      (Circle.caller "0x2") "0x4" := by
    rw [Circle.run_regrant]
    exact Circle.serves_regrant.2.2
  exact revocation_lasts Circle.start_store rfl Circle.freshGroups_regrant hends (by simp)
    (by decide) hq rfl (.inl rfl) (by decide) (by decide) hshown

/-- **The second user takes back what the first user ended**: nobody else shares anything, and the
first node is shown again. -/
theorem revocation_undone :
    Circle.start.store = .withAccounts Circle.accounts ∧
    Circle.start.registry.isResponsive = true ∧
    (exchange (run Circle.start Circle.passed) Circle.withdraw).Shares .remove
      (Circle.caller "0x1") ⟨["0x4"], ["0x2", "0x3"]⟩ ∧
    (∃ q, (run Circle.start Circle.passed).store.nodes.find? "0x4" = some q ∧ q.owner = "0x1" ∧
      q.permissions.read = true) ∧
    (Circle.caller "0x2").role ≠ adminRole ∧
    ¬ (run Circle.start (Circle.passed ++ [Circle.withdraw])).Shows (Circle.caller "0x2") "0x4" ∧
    (∀ x ∈ transcript (run Circle.start (Circle.passed ++ [Circle.withdraw]))
        [Circle.findSelf, Circle.regrant],
      ∀ c r, x.Shares .add c r → c.uid = "0x2") ∧
    (run Circle.start
      (Circle.passed ++ Circle.withdraw :: [Circle.findSelf, Circle.regrant])).Shows
      (Circle.caller "0x2") "0x4" := by
  rw [Circle.run_regrant, Circle.run_withdraw, Circle.goes_passed.run]
  obtain ⟨hhidden, hshown⟩ := Circle.serves_regrant.2
  exact ⟨Circle.start_store, rfl, Circle.serves_withdraw.2.shares, ⟨_, rfl, rfl, rfl⟩, by decide,
    hhidden, fun _ hx _ _ h => Circle.uid_of_shares hx h, hshown⟩

end SealedGraph.Http
