import SealedGraph.Proofs.Server.Calm
import SealedGraph.Proofs.Store.Share

/-!
# Which work opens and closes groups

Whoever shares a node opens to its recipient not the node but groups: those of the node and of its
direct children, as far as the caller may pass these on. Nothing else opens or closes a group, and a
share that is refused before its work with the registry begins does not either.

* `groups_perform`, `groups_login`, `groups_authenticate`: what leaves the groups alone.
* `Caller.Reaches`: the groups that a share of some nodes is about.
* `changeShare_cases`: a share is refused by the request, refused by the store, or told to the
  registry.
* `open_changeShare`: which groups are open after a share that succeeds.
-/

namespace SealedGraph

open Attempt
open Registry (Link Operation IsGroup)

/-- The groups that are open, to each user. -/
def Server.groups (s : Server) : Index (List String) := s.registry.table.groups

/-- A group is open to a user. -/
def Server.Open (s : Server) (uid g : String) : Prop := s.registry.table.hasGroup uid g = true

theorem open_iff_of_groups {s t : Server} (h : t.groups = s.groups) (uid g : String) :
    t.Open uid g ↔ s.Open uid g := by
  have h : t.registry.table.groups = s.registry.table.groups := h
  unfold Server.Open Registry.Table.hasGroup
  rw [h]

theorem not_open_of_groups_eq_empty {s : Server} (h : s.groups = ∅) (uid g : String) :
    ¬ s.Open uid g := by
  have h : s.registry.table.groups = ∅ := h
  unfold Server.Open Registry.Table.hasGroup
  rw [h]
  simp [show (∅ : Index (List String)) = Index.empty from rfl]

/-! ### Work that leaves the groups alone -/

/-- **Whoever is looked at**, no group is opened or closed by it. -/
theorem groups_authenticate (m : Moment) (header : Option String) :
    Keeps Server.groups (Service.authenticate m header) :=
  fun s => (Service.asks_authenticate m header s).same (p := .groups) (by simp)

theorem groups_login (m : Moment) (r : LoginRequest) : Keeps Server.groups (login m r) :=
  fun s => (asks_login m r s).same (p := .groups) (by simp)

/-- **A call that shares nothing** opens and closes no group. -/
theorem Call.groups_perform {call : Call} (h : call.sharing? = none) (m : Moment) (c : Caller) :
    Keeps Server.groups (call.perform m c) := by
  have hw : Registry.Part.groups ∉ call.writes := by
    cases call with
    | share request => cases h
    | unshare request => cases h
    | _ => simp [writes]
  exact fun s => (asks_perform m c call s).same hw

/-! ### What a share is about -/

/-- The group of every node can be told to the registry. -/
def Store.Grouped (s : Store) : Prop := ∀ {k q}, s.nodes.find? k = some q → IsGroup q.group

namespace Caller

/-- The caller may pass a stored node on to a user: it is readable, it is not the user's own, and it
is the caller's own or may be shared; an administrator may share every node. -/
def MayPass (c : Caller) (uid : String) (q : Record) : Prop :=
  q.permissions.read = true ∧ q.owner ≠ uid ∧
    (c.role = adminRole ∨ q.owner = c.uid ∨ q.permissions.share = true)

/-- A group is that of one of some nodes or of a direct child of one, which the caller may pass on
to a user. -/
def Reaches (c : Caller) (s : Store) (nodes : List String) (uid g : String) : Prop :=
  ∃ k q, s.nodes.find? k = some q ∧ q.group = g ∧ c.MayPass uid q ∧
    ∃ p ∈ nodes, k = p ∨ s.Links p k

variable {c : Caller} {s : Store} {nodes : List String} {uid g : String}

theorem mayPassOn_toNode_iff {k : String} {q : Record} :
    c.mayPassOn uid (q.toNode k) = true ↔ c.MayPass uid q := by
  unfold mayPassOn MayPass
  rw [Bool.and_eq_true, Bool.and_eq_true, Bool.or_eq_true, bypasses_iff, and_assoc, or_assoc]
  simp [Record.toNode]

theorem mem_groupsFor {members : List Node} :
    g ∈ c.groupsFor uid members ↔
      ∃ n ∈ members, c.mayPassOn uid n = true ∧ n.group? = some g := by
  unfold groupsFor
  rw [Registry.mem_foldl_addTo]
  simp only [List.not_mem_nil, false_or, List.mem_filterMap, List.mem_filter, and_assoc]

/-- **The groups of a share.** -/
theorem mem_groupsFor_members (hg : s.Grouped) :
    g ∈ c.groupsFor uid (s.members nodes) ↔ c.Reaches s nodes uid g := by
  rw [mem_groupsFor]
  constructor
  · rintro ⟨n, hn, hpass, hgroup⟩
    obtain ⟨k, q, hq, rfl, hp⟩ := Store.mem_members.1 hn
    have hgroup : some q.group = some g := (group?_eq_some_iff.1 hgroup).1
    exact ⟨k, q, hq, Option.some.inj hgroup, mayPassOn_toNode_iff.1 hpass, hp⟩
  · rintro ⟨k, q, hq, rfl, hpass, hp⟩
    refine ⟨q.toNode k, Store.mem_members.2 ⟨k, q, hq, rfl, hp⟩, mayPassOn_toNode_iff.2 hpass, ?_⟩
    exact group?_eq_some_iff.2 ⟨rfl, (hg hq).1⟩

theorem isGroup_of_mem_groupsFor (hg : s.Grouped)
    (h : g ∈ c.groupsFor uid (s.members nodes)) : IsGroup g := by
  obtain ⟨k, q, hq, rfl, -⟩ := (mem_groupsFor_members hg).1 h
  exact hg hq

end Caller

/-! ### One recipient -/

namespace ShareChange

/-- The registry's part of a share, for one recipient. -/
def tell (change : ShareChange) (c : Caller) (now : Nat) (members : List Node)
    (recipient : String) : Inquiry Nat :=
  match change with
  | .add => c.grant now recipient members
  | .remove => c.withdraw now recipient members

variable {change : ShareChange} {c : Caller} {now : Nat} {members : List Node} {recipient : String}

theorem of_ask_eq_ok {k : Registry.Kind} {op : Operation k} {l l' : Link} {v : k.Value}
    (h : (ask now op).run l = (.ok v, l')) : l'.table = (op.apply now l.table).2 :=
  (Link.of_call_eq_ok h).2

/-- **Which groups are open after a recipient was told of.** -/
theorem of_tell_eq_ok {l l' : Link} {n : Nat} (hne : recipient ≠ "")
    (hg : ∀ g ∈ c.groupsFor recipient members, IsGroup g)
    (h : (change.tell c now members recipient).run l = (.ok n, l')) (uid g : String) :
    l'.table.hasGroup uid g = true ↔
      change.After (l.table.hasGroup uid g = true)
        (uid = recipient ∧ g ∈ c.groupsFor recipient members) := by
  have hlist := Registry.listEntries_listOf hg
  by_cases hnil : (c.groupsFor recipient members).isEmpty = true
  · -- There is nothing to tell.
    have hl : l' = l := by
      cases change with
      | add =>
        unfold tell Caller.grant at h
        simp only [hnil, if_true] at h
        exact (run_pure_eq_ok h).2
      | remove =>
        unfold tell Caller.withdraw at h
        simp only [hnil, if_true] at h
        exact (run_pure_eq_ok h).2
    rw [hl, after_iff_of_not]
    rw [List.isEmpty_iff.1 hnil]
    simp
  · cases change with
    | add =>
      unfold tell Caller.grant at h
      simp only [hnil] at h
      obtain ⟨_, u, hask, h⟩ := run_bind_eq_ok h
      obtain ⟨-, rfl⟩ := run_pure_eq_ok h
      have ht : l'.table = l.table.allow recipient _ := of_ask_eq_ok hask
      rw [ht, Registry.Table.hasGroup_allow, hlist]
      simp [After, hne]
    | remove =>
      unfold tell Caller.withdraw at h
      simp only [hnil] at h
      obtain ⟨_, u, hask, h⟩ := run_bind_eq_ok h
      obtain ⟨-, rfl⟩ := run_pure_eq_ok h
      have ht : l'.table = l.table.revoke recipient _ := of_ask_eq_ok hask
      rw [ht, Registry.Table.hasGroup_revoke, hlist]
      rfl

theorem tell_of_isResponsive {l : Link} (hr : l.isResponsive = true) :
    ∃ n l', (change.tell c now members recipient).run l = (.ok n, l') ∧ l'.isResponsive = true := by
  cases change with
  | add =>
    unfold tell Caller.grant
    simp only
    split
    · exact ⟨0, l, rfl, hr⟩
    · obtain ⟨l', hl, -, hr'⟩ := Link.call_of_isResponsive hr now
        (.allow recipient (Registry.listOf (c.groupsFor recipient members)))
      exact ⟨_, l', run_bind_ok hl, hr'⟩
  | remove =>
    unfold tell Caller.withdraw
    simp only
    split
    · exact ⟨0, l, rfl, hr⟩
    · obtain ⟨l', hl, -, hr'⟩ := Link.call_of_isResponsive hr now
        (.revoke recipient (Registry.listOf (c.groupsFor recipient members)))
      exact ⟨_, l', run_bind_ok hl, hr'⟩

end ShareChange

/-! ### One recipient after the other -/

namespace Call

section ForEach

variable {work : String → Inquiry Nat} {s t : Server} {recipients : List String}

theorem of_inquire_eq_ok {α : Type} {x : Inquiry α} {a : α}
    (h : (Service.inquire x).run s = (.ok a, t)) :
    x.run s.registry = (.ok a, t.registry) ∧ t.store = s.store := by
  unfold Service.inquire at h
  rw [run_within] at h
  rcases hx : x.run s.registry with ⟨e | b, l⟩
  · rw [hx] at h
    cases h
  · rw [hx] at h
    cases h
    exact ⟨rfl, rfl⟩

/-- **Which groups are open after all recipients were told of.** -/
theorem of_forEach_eq_ok {change : ShareChange} {R : String → String → Prop}
    (hwork : ∀ u ∈ recipients, ∀ l l' n, (work u).run l = (.ok n, l') → ∀ uid g,
      l'.table.hasGroup uid g = true ↔
        change.After (l.table.hasGroup uid g = true) (uid = u ∧ R u g))
    (h : (forEach work recipients).run s = (.ok (), t)) (uid g : String) :
    t.Open uid g ↔ change.After (s.Open uid g) (uid ∈ recipients ∧ R uid g) := by
  induction recipients generalizing s with
  | nil =>
    obtain ⟨-, rfl⟩ := run_pure_eq_ok h
    rw [ShareChange.after_iff_of_not (by simp)]
  | cons u us ih =>
    obtain ⟨n, v, hu, h⟩ := run_bind_eq_ok h
    have hone := hwork u (by simp) _ _ n (of_inquire_eq_ok hu).1 uid g
    have hrest := ih (fun u' hu' => hwork u' (List.mem_cons_of_mem _ hu')) h
    have hnamed : (uid = u ∧ R u g) ∨ (uid ∈ us ∧ R uid g) ↔ uid ∈ u :: us ∧ R uid g := by
      rw [List.mem_cons, or_and_right]
      refine or_congr_left (and_congr_right ?_)
      rintro rfl
      exact Iff.rfl
    rw [hrest, ← hnamed, ← ShareChange.after_after_iff]
    unfold Server.Open
    rw [hone]

theorem of_forEach_eq_error {e : ServiceError} (h : (forEach work recipients).run s = (.error e, t)) :
    ∃ e', e = .access (.unavailable e') := by
  induction recipients generalizing s with
  | nil => cases h
  | cons u us ih =>
    unfold forEach at h
    rw [run_bind] at h
    unfold Service.inquire at h
    rw [run_within] at h
    rcases hx : (work u).run s.registry with ⟨e' | n, l⟩
    · rw [hx] at h
      cases h
      exact ⟨e', rfl⟩
    · rw [hx] at h
      exact ih h

theorem forEach_of_isResponsive
    (hwork : ∀ u l, l.isResponsive = true →
      ∃ n l', (work u).run l = (.ok n, l') ∧ l'.isResponsive = true)
    (hr : s.registry.isResponsive = true) :
    ∃ t, (forEach work recipients).run s = (.ok (), t) := by
  induction recipients generalizing s with
  | nil => exact ⟨s, rfl⟩
  | cons u us ih =>
    obtain ⟨n, l', hu, hr'⟩ := hwork u s.registry hr
    have hrun : (Service.inquire (work u)).run s = (.ok n, { s with registry := l' }) := by
      unfold Service.inquire
      rw [run_within, hu]
    obtain ⟨t, ht⟩ := ih (s := { s with registry := l' }) hr'
    exact ⟨t, by unfold forEach; rw [run_bind_ok hrun]; exact ht⟩

end ForEach

/-! ### The whole share -/

section ChangeShare

variable {m : Moment} {c : Caller} {change : ShareChange} {request : ShareRequest} {s t : Server}

/-- **The ways of a share.** The request is refused; or the store refuses it; or all the recipients
are told of. -/
theorem changeShare_cases (m : Moment) (c : Caller) (change : ShareChange) (request : ShareRequest)
    (s : Server) :
    (∃ e, request.bind c = .error e ∧ (changeShare m c change request).run s =
      (.error (.request e), ((Service.bound (.error e : Except RequestError ShareRequest)).run s).2)) ∨
    ∃ r, request.bind c = .ok r ∧
      ((∃ e, (s.store.share change r.nodes r.users).1 = .error e ∧
        (changeShare m c change request).run s =
          (.error (.store e), { s with store := (s.store.share change r.nodes r.users).2 })) ∨
      ∃ members, (s.store.share change r.nodes r.users).1 = .ok members ∧
        (changeShare m c change request).run s =
          (forEach (change.tell c m.instant members) r.users >>= fun _ => pure (doneAt m)).run
            { s with store := (s.store.share change r.nodes r.users).2 }) := by
  unfold changeShare
  rw [Service.run_bound_bind]
  cases hb : request.bind c with
  | error e => exact .inl ⟨e, rfl, rfl⟩
  | ok r =>
    have hstore := Service.run_onStore (fun t => t.share change r.nodes r.users) s
    refine .inr ⟨r, rfl, ?_⟩
    rcases hs : s.store.share change r.nodes r.users with ⟨e | members, t⟩
    · rw [hs] at hstore
      exact .inl ⟨e, rfl, run_bind_error hstore⟩
    · rw [hs] at hstore
      refine .inr ⟨members, rfl, ?_⟩
      simp only
      rw [run_bind_ok hstore]
      cases change with
      | add => rfl
      | remove => rfl

/-- **A share that is refused**, and not for the registry, opens and closes no group. -/
theorem groups_changeShare_of_refused {e : ServiceError}
    (h : (changeShare m c change request).run s = (.error e, t))
    (he : ∀ e', e ≠ .access (.unavailable e')) : t.groups = s.groups := by
  rcases changeShare_cases m c change request s with
    ⟨e', -, hrun⟩ | ⟨r, -, ⟨e', -, hrun⟩ | ⟨members, -, hrun⟩⟩
  · rw [hrun] at h
    cases h
    exact (Service.told_bound _ s).same (p := .groups) List.not_mem_nil
  · rw [hrun] at h
    cases h
    rfl
  · rw [hrun, run_bind] at h
    rcases hf : (forEach (change.tell c m.instant members) r.users).run
        { s with store := (s.store.share change r.nodes r.users).2 } with ⟨e' | _, u⟩
    · rw [hf] at h
      cases h
      obtain ⟨e'', he''⟩ := of_forEach_eq_error hf
      exact absurd he'' (he e'')
    · rw [hf] at h
      cases h

/-- As long as the registry answers, a share does not fail for the registry. -/
theorem ne_unavailable_of_changeShare (hr : s.registry.isResponsive = true) {e : ServiceError}
    (h : (changeShare m c change request).run s = (.error e, t)) (e' : Registry.Error) :
    e ≠ .access (.unavailable e') := by
  rcases changeShare_cases m c change request s with
    ⟨e'', -, hrun⟩ | ⟨r, -, ⟨e'', -, hrun⟩ | ⟨members, -, hrun⟩⟩
  · rw [hrun] at h
    cases h
    simp
  · rw [hrun] at h
    cases h
    simp
  · have hu : ∃ u, (forEach (change.tell c m.instant members) r.users).run
        { s with store := (s.store.share change r.nodes r.users).2 } = (.ok (), u) :=
      forEach_of_isResponsive (fun _ _ hl => change.tell_of_isResponsive hl) hr
    obtain ⟨u, hu⟩ := hu
    rw [hrun, run_bind_ok hu] at h
    cases h

/-- **A share that succeeds** names nodes and users that are there, and opens or closes to each of
these users the groups that it reaches, and no others to anybody. -/
theorem open_changeShare (hs : s.store.Sound) (hg : s.store.Grouped) {a : Answer}
    (h : (changeShare m c change request).run s = (.ok a, t)) :
    ∃ r, request.bind c = .ok r ∧
      (∃ members, (s.store.share change r.nodes r.users).1 = .ok members) ∧
      ∀ uid g, t.Open uid g ↔
        change.After (s.Open uid g) (uid ∈ r.users ∧ c.Reaches s.store r.nodes uid g) := by
  rcases changeShare_cases m c change request s with
    ⟨e, -, hrun⟩ | ⟨r, hb, ⟨e, -, hrun⟩ | ⟨members, hm, hrun⟩⟩
  · rw [hrun] at h
    cases h
  · rw [hrun] at h
    cases h
  · rw [hrun] at h
    obtain ⟨⟨⟩, u, hf, h⟩ := run_bind_eq_ok h
    obtain ⟨-, rfl⟩ := run_pure_eq_ok h
    obtain ⟨rfl, -, husers, -⟩ := Store.of_share_eq_ok hm
    refine ⟨r, hb, ⟨_, hm⟩, fun uid g => ?_⟩
    refine of_forEach_eq_ok (R := fun u g => c.Reaches s.store r.nodes u g) ?_ hf uid g
    · intro user huser l l' n hl uid g
      obtain ⟨a, ha⟩ := Index.contains_iff.1 (husers user huser)
      obtain ⟨k, -, hk⟩ := hs.accountUid ha
      have hne : user ≠ "" := by
        rw [hk]
        exact Store.uidOf_ne_empty k
      have htell := ShareChange.of_tell_eq_ok hne
        (fun g hg' => Caller.isGroup_of_mem_groupsFor hg hg') hl uid g
      rwa [Caller.mem_groupsFor_members hg] at htell

end ChangeShare

end Call

end SealedGraph
