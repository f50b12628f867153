import SealedGraph.Proofs.Http.Sessions
import SealedGraph.Proofs.Server.Groups

/-!
# What requests do to what is shared

What is open to a user, and what is on the list of a user, is switched on by some requests and off
by others. So whatever is there at some time has been there since a last request that put it there,
and what was put there and is not there any more has been taken away by a later one.

* `Exchange.Shares`: a successful request to share, or to end it; `Exchange.Names`,
  `Exchange.Reaches`: the nodes on the lists of users that it names, and the groups that it reaches.
* `open_exchange`, `mem_sharedWith_exchange`: what one request switches.
* `Switches.since`, `Switches.lasts`: what holds after any requests.
* `grouped_run`: the groups of all nodes can be told to the registry.
* `shows_iff`: what a caller is shown depends on which groups are open.
-/

namespace SealedGraph

/-- A stored node is visible to a caller. -/
def Server.Shows (s : Server) (c : Caller) (uid : String) : Prop :=
  ∃ q, s.store.nodes.find? uid = some q ∧ c.CanView s.registry.table (q.toNode uid)

/-- **What a caller is shown**: one's own, what is readable and of an open group, and for an
administrator all. -/
theorem shows_iff {s : Server} {c : Caller} {uid : String} :
    s.Shows c uid ↔ ∃ q, s.store.nodes.find? uid = some q ∧
      (c.role = adminRole ∨ q.owner = c.uid ∨
        (q.permissions.read = true ∧ s.Open c.uid q.group)) := by
  unfold Server.Shows Server.Open
  refine exists_congr fun q => and_congr_right fun _ => ?_
  rw [Caller.canView_iff, Caller.bypasses_iff, or_assoc]
  simp only [Record.toNode, Caller.group?_eq_some_iff, Option.some.injEq]
  refine or_congr_right (or_congr_right (and_congr_right fun _ => ?_))
  constructor
  · rintro ⟨g, ⟨rfl, -⟩, hg⟩
    exact hg
  · intro hg
    exact ⟨q.group, ⟨rfl, ((Registry.Table.hasGroup_iff _ _ _).1 hg).1⟩, hg⟩

/-- No refusal is answered as a success. -/
theorem ServiceError.le_status (e : ServiceError) : 400 ≤ e.statusAndText.1 := by
  cases e with
  | access e =>
    cases e with
    | _ => simp [statusAndText]
  | request e =>
    cases e with
    | _ => simp [statusAndText]
  | store e =>
    show 400 ≤ (ofStore e).1
    unfold ofStore
    split
    all_goals simp only [Nat.le_refl, Nat.reduceLeDiff]
  | _ => simp [statusAndText]

namespace Http

open Attempt

/-! ### Requests to share -/

namespace Exchange

/-- What a request asks of what is shared: whether nodes are to be shared or no longer, who asks it,
and the uids of the nodes and users. -/
def sharing? (x : Exchange) : Option (ShareChange × Caller × ShareRequest) :=
  match x.outcome with
  | .call c call _ => call.sharing?.bind fun (change, request) =>
    (request.bind c).toOption.map fun r => (change, c, r)
  | _ => none

/-- The request is a call that succeeds. -/
def succeeds (x : Exchange) : Bool :=
  match x.outcome with
  | .call _ _ (.ok _) => true
  | _ => false

/-- A caller shares nodes with users, or ends that. -/
def Shares (x : Exchange) (change : ShareChange) (c : Caller) (r : ShareRequest) : Prop :=
  x.succeeds = true ∧ x.sharing? = some (change, c, r)

instance (x : Exchange) (change : ShareChange) (c : Caller) (r : ShareRequest) :
    Decidable (x.Shares change c r) := inferInstanceAs (Decidable (_ ∧ _))

/-- A caller does not succeed to share nodes, or to end that. -/
def FailsToShare (x : Exchange) : Prop :=
  ∃ c call e, x.outcome = .call c call (.error e) ∧ call.sharing? ≠ none

/-- And that is because the registry fails. -/
def CutShort (x : Exchange) : Prop :=
  ∃ c call e, x.outcome = .call c call (.error (.access (.unavailable e))) ∧ call.sharing? ≠ none

/-- Someone shares a node with a user, or ends that. -/
def Names (x : Exchange) (change : ShareChange) (uid n : String) : Prop :=
  ∃ c r, x.Shares change c r ∧ uid ∈ r.users ∧ n ∈ r.nodes

/-- Someone shares nodes with a user, or ends that, one of which has a group or links to a node that
has it, and may pass this node on. -/
def Reaches (x : Exchange) (change : ShareChange) (uid g : String) : Prop :=
  ∃ c r, x.Shares change c r ∧ uid ∈ r.users ∧ c.Reaches x.before.store r.nodes uid g

section Shares

variable {x : Exchange} {change change' : ShareChange} {c : Caller} {r : ShareRequest}
  {uid n g : String}

theorem of_sharing?_eq_some (h : x.sharing? = some (change, c, r)) :
    ∃ call request o, x.outcome = .call c call o ∧ call.sharing? = some (change, request) ∧
      request.bind c = .ok r := by
  unfold sharing? at h
  split at h
  · rename_i c' call o ho
    obtain ⟨⟨change', request⟩, hc, h⟩ := Option.bind_eq_some_iff.1 h
    obtain ⟨r', hb, e⟩ := Option.map_eq_some_iff.1 h
    cases e
    rcases hb' : request.bind c with e | r''
    · rw [hb'] at hb
      cases hb
    · rw [hb'] at hb
      cases hb
      exact ⟨call, request, o, ho, hc, hb'⟩
  · cases h

theorem sharing?_of_outcome {call : Call} {request : ShareRequest} {o : Except ServiceError Answer}
    (ho : x.outcome = .call c call o) (hc : call.sharing? = some (change, request)) :
    x.sharing? = (request.bind c).toOption.map fun r => (change, c, r) := by
  unfold sharing?
  rw [ho]
  simp only [hc]
  rfl

theorem not_failsToShare_of_status (hstatus : x.outcome.response.status = 200) :
    ¬ x.FailsToShare := by
  rintro ⟨c, call, e, ho, -⟩
  rw [ho] at hstatus
  have hle : 400 ≤ (respond answerBody (.error e)).status := e.le_status
  have hstatus : (respond answerBody (.error e)).status = 200 := hstatus
  omega

/-- A request to share that is answered with success succeeds. -/
theorem succeeds_of_status (hstatus : x.outcome.response.status = 200)
    (h : x.sharing? = some (change, c, r)) : x.succeeds = true := by
  obtain ⟨call, request, o, ho, hc, -⟩ := of_sharing?_eq_some h
  unfold succeeds
  rw [ho]
  rcases o with e | a
  · exact absurd ⟨c, call, e, ho, by simp [hc]⟩ (not_failsToShare_of_status hstatus)
  · rfl

theorem Shares.eq (h : x.Shares change c r) {c' : Caller} {r' : ShareRequest}
    (h' : x.Shares change' c' r') : change' = change ∧ c' = c ∧ r' = r := by
  have e := h'.2.symm.trans h.2
  simpa using e

theorem Shares.outcome (h : x.Shares change c r) :
    ∃ call request a, x.outcome = .call c call (.ok a) ∧ call.sharing? = some (change, request) ∧
      request.bind c = .ok r := by
  obtain ⟨hok, h⟩ := h
  obtain ⟨call, request, o, ho, hc, hb⟩ := of_sharing?_eq_some h
  unfold succeeds at hok
  rw [ho] at hok
  rcases o with e | a
  · cases hok
  · exact ⟨call, request, a, ho, hc, hb⟩

theorem Shares.names_iff (h : x.Shares change c r) :
    x.Names change' uid n ↔ change' = change ∧ uid ∈ r.users ∧ n ∈ r.nodes := by
  constructor
  · rintro ⟨c', r', h', hu, hn⟩
    obtain ⟨rfl, rfl, rfl⟩ := h.eq h'
    exact ⟨rfl, hu, hn⟩
  · rintro ⟨rfl, hu, hn⟩
    exact ⟨c, r, h, hu, hn⟩

theorem Shares.reaches_iff (h : x.Shares change c r) :
    x.Reaches change' uid g ↔
      change' = change ∧ uid ∈ r.users ∧ c.Reaches x.before.store r.nodes uid g := by
  constructor
  · rintro ⟨c', r', h', hu, hr⟩
    obtain ⟨rfl, rfl, rfl⟩ := h.eq h'
    exact ⟨rfl, hu, hr⟩
  · rintro ⟨rfl, hu, hr⟩
    exact ⟨c, r, h, hu, hr⟩

theorem CutShort.failsToShare (h : x.CutShort) : x.FailsToShare := by
  obtain ⟨c, call, e, ho, hc⟩ := h
  exact ⟨c, call, _, ho, hc⟩

/-- What is switched by what a change says of it. -/
theorem after_iff_switch {before named : Prop} :
    change.After before named ↔
      (.add = change ∧ named) ∨ (before ∧ ¬ (.remove = change ∧ named)) := by
  cases change with
  | add => simp [ShareChange.After, or_comm]
  | remove => simp [ShareChange.After]

end Shares

end Exchange

/-! ### One request -/

section Step

variable {s : Server} {v : Visit}

/-- **A call of a caller**, and the server before and after it. -/
theorem of_exchange_call {c : Caller} {call : Call} {o : Except ServiceError Answer}
    (h : (exchange s v).outcome = .call c call o) :
    ∃ s', (Service.authenticate v.moment v.request.credentials).run s = (.ok c, s') ∧
      v.request.call? = some call ∧ s'.store = s.store ∧ s'.groups = s.groups ∧
      (call.perform v.moment c).run s' = (o, (serve v.moment v.request s).2) := by
  unfold exchange at h
  rcases serve_cases v.moment v.request s with
    ⟨_, he⟩ | ⟨_, he⟩ | ⟨_, he⟩ | ⟨c', call', s', ha, hc, he⟩
  · rw [he] at h
    cases h
  · rw [he] at h
    cases h
  · rw [he] at h
    cases h
  · rw [he] at h ⊢
    obtain ⟨rfl, rfl, rfl⟩ := Outcome.call.inj h
    have hst := Service.keeps_authenticate apart_store v.moment v.request.credentials s
    have hgr := groups_authenticate v.moment v.request.credentials s
    rw [ha] at hst hgr
    exact ⟨s', ha, hc, hst, hgr, rfl⟩

/-- **A request shares nodes, or fails to, or has nothing to do with it.** -/
theorem exchange_shares_cases (s : Server) (v : Visit) :
    (∃ change c r, (exchange s v).Shares change c r) ∨ (exchange s v).FailsToShare ∨
    ∀ c call o, (exchange s v).outcome = .call c call o → call.sharing? = none := by
  by_cases h : ∃ c call o, (exchange s v).outcome = .call c call o ∧ call.sharing? ≠ none
  · obtain ⟨c, call, o, ho, hc⟩ := h
    obtain ⟨⟨change, request⟩, hc'⟩ := Option.ne_none_iff_exists'.1 hc
    rcases o with e | a
    · exact .inr (.inl ⟨c, call, e, ho, hc⟩)
    · -- A share that succeeds was bound.
      obtain ⟨s', -, -, -, -, hp⟩ := of_exchange_call ho
      rw [Call.perform_of_sharing hc'] at hp
      obtain ⟨r, hb, -⟩ := Service.of_bound_bind_eq_ok hp
      refine .inl ⟨change, c, r, ?_, ?_⟩
      · unfold Exchange.succeeds
        rw [ho]
      · rw [Exchange.sharing?_of_outcome ho hc', hb]
        rfl
  · refine .inr (.inr fun c call o ho => ?_)
    by_contra hc
    exact h ⟨c, call, o, ho, hc⟩

/-! #### The store -/

/-- **What is asked of the store is done**, as far as the store does it. -/
theorem store_of_sharing? {change : ShareChange} {c : Caller} {r : ShareRequest}
    (h : (exchange s v).sharing? = some (change, c, r)) :
    (serve v.moment v.request s).2.store = (s.store.share change r.nodes r.users).2 := by
  obtain ⟨call, request, o, ho, hc, hb⟩ := Exchange.of_sharing?_eq_some h
  have hstore := store_serve v.moment v.request s
  rw [← outcome_exchange, ho] at hstore
  simp only [Call.effect_of_sharing hc, hb] at hstore
  exact hstore

/-- A share that is not even bound does not come to the store. -/
theorem store_of_sharing?_eq_none (h : (exchange s v).sharing? = none) {c : Caller} {call : Call}
    {o : Except ServiceError Answer} (ho : (exchange s v).outcome = .call c call o)
    (hc : call.sharing? ≠ none) : (serve v.moment v.request s).2.store = s.store := by
  obtain ⟨⟨change, request⟩, hc'⟩ := Option.ne_none_iff_exists'.1 hc
  have hstore := store_serve v.moment v.request s
  rw [← outcome_exchange, ho] at hstore
  rw [Exchange.sharing?_of_outcome ho hc', Option.map_eq_none_iff] at h
  rcases hb : request.bind c with e | r
  · simp only [Call.effect_of_sharing hc', hb] at hstore
    exact hstore
  · rw [hb] at h
    cases h

/-- A share that succeeds is not refused by the store. -/
theorem share_of_shares {change : ShareChange} {c : Caller} {r : ShareRequest}
    (h : (exchange s v).Shares change c r) :
    ∃ members, (s.store.share change r.nodes r.users).1 = .ok members := by
  obtain ⟨call, request, a, ho, hc, hb⟩ := h.outcome
  obtain ⟨s', -, -, hst, -, hp⟩ := of_exchange_call ho
  rw [Call.perform_of_sharing hc] at hp
  obtain ⟨r', hb', hp⟩ := Service.of_bound_bind_eq_ok hp
  rw [hb] at hb'
  cases hb'
  obtain ⟨members, _, hm, -⟩ := Service.of_onStore_bind_eq_ok hp
  rw [hst] at hm
  exact ⟨members, by rw [hm]⟩

/-- **What is on the list of a user after a request** that does not fail to share: what it puts
there, and what was there and is not taken off. -/
theorem mem_sharedWith_exchange (hs : s.store.Sound) (hfail : ¬ (exchange s v).FailsToShare)
    (uid n : String) :
    n ∈ (serve v.moment v.request s).2.store.sharedWith uid ↔
      (exchange s v).Names .add uid n ∨
        (n ∈ s.store.sharedWith uid ∧ ¬ (exchange s v).Names .remove uid n) := by
  rcases exchange_shares_cases s v with ⟨change, c, r, h⟩ | h | h
  · rw [store_of_sharing? h.2, h.names_iff, h.names_iff, ← Exchange.after_iff_switch,
      Store.sharedWith_share]
    obtain ⟨members, hm⟩ := share_of_shares h
    rw [(Store.of_share_eq_ok hm).2.2.2]
    by_cases hu : uid ∈ r.users
    · rw [if_pos hu, ShareChange.mem_apply]
      simp [hu]
    · rw [if_neg hu, ShareChange.after_iff_of_not]
      exact fun hn => hu hn.1
  · exact absurd h hfail
  · have hno : ∀ change, ¬ (exchange s v).Names change uid n := by
      rintro change ⟨c, r, h', -⟩
      obtain ⟨call, request, a, ho, hc, -⟩ := h'.outcome
      rw [h c call _ ho] at hc
      cases hc
    have hsame : (serve v.moment v.request s).2.store.sharedWith uid = s.store.sharedWith uid := by
      rw [store_serve]
      split
      · rename_i c call o ho
        rw [← outcome_exchange] at ho
        exact Call.sharedWith_effect hs v.moment c (h c call o ho) uid
      · rfl
    rw [hsame]
    simp [hno]

/-! #### The registry -/

/-- **A request that has nothing to do with sharing** opens and closes no group. -/
theorem groups_serve (h : ∀ c call o, (exchange s v).outcome = .call c call o →
      call.sharing? = none) : (serve v.moment v.request s).2.groups = s.groups := by
  have hauth := groups_authenticate v.moment v.request.credentials s
  rcases serve_cases v.moment v.request s with
    ⟨_, he⟩ | ⟨request, he⟩ | ⟨_, he⟩ | ⟨c, call, s', ha, -, he⟩
  · rw [he]
  · rw [he]
    exact groups_login v.moment request s
  · rw [he]
    exact hauth
  · have hno := h c call _ (by unfold exchange; rw [he])
    rw [ha] at hauth
    rw [he]
    exact (Call.groups_perform hno v.moment c s').trans hauth

/-- **A share that fails, and not for the registry**, opens and closes no group. -/
theorem groups_of_failsToShare (h : (exchange s v).FailsToShare)
    (hcut : ¬ (exchange s v).CutShort) : (serve v.moment v.request s).2.groups = s.groups := by
  obtain ⟨c, call, e, ho, hc⟩ := h
  obtain ⟨⟨change, request⟩, hc'⟩ := Option.ne_none_iff_exists'.1 hc
  obtain ⟨s', -, -, -, hgr, hp⟩ := of_exchange_call ho
  rw [Call.perform_of_sharing hc'] at hp
  refine (Call.groups_changeShare_of_refused hp fun e' he => ?_).trans hgr
  exact hcut ⟨c, call, e', he ▸ ho, hc⟩

/-- **A share that succeeds** opens or closes the groups that it reaches to its recipients. -/
theorem open_of_shares (hs : s.store.Sound) (hg : s.store.Grouped) {change : ShareChange}
    {c : Caller} {r : ShareRequest} (h : (exchange s v).Shares change c r) (uid g : String) :
    (serve v.moment v.request s).2.Open uid g ↔
      change.After (s.Open uid g) (uid ∈ r.users ∧ c.Reaches s.store r.nodes uid g) := by
  obtain ⟨call, request, a, ho, hc, hb⟩ := h.outcome
  obtain ⟨s', -, -, hst, hgr, hp⟩ := of_exchange_call ho
  rw [Call.perform_of_sharing hc] at hp
  obtain ⟨r', hb', -, hopen⟩ := Call.open_changeShare (by rwa [hst]) (by rwa [hst]) hp
  rw [hb] at hb'
  cases hb'
  rw [hopen, open_iff_of_groups hgr, hst]

/-- **Which groups are open after a request**, unless it is a share that is cut short: those that it
opens, and those that were open and that it does not close. -/
theorem open_exchange (hs : s.store.Sound) (hg : s.store.Grouped)
    (hcut : ¬ (exchange s v).CutShort) (uid g : String) :
    (serve v.moment v.request s).2.Open uid g ↔
      (exchange s v).Reaches .add uid g ∨
        (s.Open uid g ∧ ¬ (exchange s v).Reaches .remove uid g) := by
  have hsame : (∀ change c r, ¬ (exchange s v).Shares change c r) →
      (serve v.moment v.request s).2.groups = s.groups →
      ((serve v.moment v.request s).2.Open uid g ↔ (exchange s v).Reaches .add uid g ∨
        (s.Open uid g ∧ ¬ (exchange s v).Reaches .remove uid g)) := by
    intro hno hgroups
    have hno : ∀ change, ¬ (exchange s v).Reaches change uid g := by
      rintro change ⟨c, r, h, -⟩
      exact hno change c r h
    rw [open_iff_of_groups hgroups]
    simp [hno]
  rcases exchange_shares_cases s v with ⟨change, c, r, h⟩ | h | h
  · rw [open_of_shares hs hg h, h.reaches_iff, h.reaches_iff]
    exact Exchange.after_iff_switch
  · refine hsame (fun change c r h' => ?_) (groups_of_failsToShare h hcut)
    obtain ⟨c', call, e, ho, -⟩ := h
    obtain ⟨_, _, a, ho', -⟩ := h'.outcome
    rw [ho] at ho'
    cases ho'
  · refine hsame (fun change c r h' => ?_) (groups_serve h)
    obtain ⟨call, request, a, ho, hc, -⟩ := h'.outcome
    rw [h c call _ ho] at hc
    cases hc

theorem not_cutShort_of_isResponsive (hr : s.registry.isResponsive = true) :
    ¬ (exchange s v).CutShort := by
  rintro ⟨c, call, e, ho, hc⟩
  obtain ⟨⟨change, request⟩, hc'⟩ := Option.ne_none_iff_exists'.1 hc
  obtain ⟨s', ha, -, -, -, hp⟩ := of_exchange_call ho
  rw [Call.perform_of_sharing hc'] at hp
  have hr' := (of_authenticate_eq_ok hr ha).1.responsive hr
  exact Call.ne_unavailable_of_changeShare hr' hp e rfl

end Step

/-! ### Groups of nodes -/

/-- The ids for new groups are made from the clock and random bytes. -/
def FreshGroups (visits : List Visit) : Prop :=
  ∀ v ∈ visits, ∃ millis random, v.moment.group = Fresh.groupId millis random

theorem FreshGroups.of_append {before after : List Visit} (h : FreshGroups (before ++ after)) :
    FreshGroups before ∧ FreshGroups after :=
  ⟨fun v hv => h v (List.mem_append_left _ hv), fun v hv => h v (List.mem_append_right _ hv)⟩

theorem grouped_withAccounts (accounts : List NewAccount) :
    (Store.withAccounts accounts).Grouped := by
  intro k q hq
  rw [Store.nodes_withAccounts] at hq
  cases hq

section Grouped

variable {s : Server} (hs : s.store.Sound) (hg : s.store.Grouped)

include hs hg

theorem grouped_serve {v : Visit} (hv : ∃ millis random, v.moment.group = Fresh.groupId millis random) :
    (serve v.moment v.request s).2.store.Grouped := by
  intro k q hq
  rw [store_serve] at hq
  split at hq
  · rename_i c call _ _
    rcases call.group_effect hs v.moment c hq with ⟨q', hq', e⟩ | e
    · rw [e]
      exact hg hq'
    · obtain ⟨millis, random, hv⟩ := hv
      rw [e, hv]
      exact Registry.isGroup_groupId millis random
  · exact hg hq

/-- **The group of every node can be told to the registry**, after any requests. -/
theorem grouped_run {visits : List Visit} (hf : FreshGroups visits) :
    (run s visits).store.Grouped := by
  induction visits using List.reverseRecOn with
  | nil => exact hg
  | append_singleton vs v ih =>
    obtain ⟨hvs, hv⟩ := hf.of_append
    rw [run_concat]
    exact grouped_serve (sound_run hs vs) (ih hvs) (hv v (by simp))

end Grouped

/-- **With accounts and no nodes to start with**, the store hangs together after any requests, and
groups can be told. -/
theorem sound_and_grouped_run {s₀ : Server} {accounts : List NewAccount} {visits : List Visit}
    (hstore : s₀.store = .withAccounts accounts) (hf : FreshGroups visits) :
    (run s₀ visits).store.Sound ∧ (run s₀ visits).store.Grouped := by
  have hs : s₀.store.Sound := by
    rw [hstore]
    exact Store.sound_withAccounts accounts
  have hg : s₀.store.Grouped := by
    rw [hstore]
    exact grouped_withAccounts accounts
  exact ⟨sound_run hs visits, grouped_run hs hg hf⟩

/-! ### What is switched on and off -/

/-- Something is switched on by some of the requests to a server and off by others. -/
def Switches (P : Server → Prop) (On Off : Exchange → Prop) (s : Server) (visits : List Visit) :
    Prop :=
  ∀ before w after, visits = before ++ w :: after →
    (P (run s (before ++ [w])) ↔ On (exchange (run s before) w) ∨
      (P (run s before) ∧ ¬ Off (exchange (run s before) w)))

/-- Some request switched something on, and since then none has switched it on or off. -/
def Since (On Off : Exchange → Prop) (xs : List Exchange) : Prop :=
  ∃ pre x post, xs = pre ++ x :: post ∧ On x ∧ ∀ y ∈ post, ¬ On y ∧ ¬ Off y

namespace Switches

variable {P : Server → Prop} {On Off : Exchange → Prop} {s : Server}
  {visits before after : List Visit}

theorem of_append_left (h : Switches P On Off s (before ++ after)) : Switches P On Off s before := by
  intro b w a e
  exact h b w (a ++ after) (by rw [e]; simp)

theorem of_append_right (h : Switches P On Off s (before ++ after)) :
    Switches P On Off (run s before) after := by
  intro b w a e
  have h := h (before ++ b) w a (by rw [e]; simp)
  rwa [List.append_assoc, run_append _ before, run_append _ before] at h

/-- **What is on has been on from the start, or since a last request that switched it on.** -/
theorem since (h : Switches P On Off s visits) (hP : P (run s visits)) :
    P s ∨ Since On Off (transcript s visits) := by
  induction visits using List.reverseRecOn with
  | nil => exact .inl hP
  | append_singleton vs v ih =>
    rw [transcript_concat]
    by_cases hon : On (exchange (run s vs) v)
    · exact .inr ⟨transcript s vs, _, [], rfl, hon, by simp⟩
    · obtain ⟨hP, hoff⟩ := ((h vs v [] rfl).1 hP).resolve_left hon
      rcases ih h.of_append_left hP with hP | ⟨pre, x, post, e, hx, hpost⟩
      · exact .inl hP
      · refine .inr ⟨pre, x, post ++ [exchange (run s vs) v], by rw [e]; simp, hx, ?_⟩
        intro y hy
        rcases List.mem_append.1 hy with hy | hy
        · exact hpost y hy
        · rw [List.mem_singleton.1 hy]
          exact ⟨hon, hoff⟩

/-- **What is on stays on unless it is switched off.** -/
theorem lasts (h : Switches P On Off s visits) (hP : P s)
    (hoff : ∀ y ∈ transcript s visits, ¬ Off y) : P (run s visits) := by
  induction visits using List.reverseRecOn with
  | nil => exact hP
  | append_singleton vs v ih =>
    rw [transcript_concat] at hoff
    have hvs := ih h.of_append_left fun y hy => hoff y (List.mem_append_left _ hy)
    exact (h vs v [] rfl).2 (.inr ⟨hvs, hoff _ (by simp)⟩)

end Switches

section Run

variable {s : Server} {visits : List Visit}

theorem mem_transcript_of_append {before after : List Visit} {w : Visit}
    (e : visits = before ++ w :: after) : exchange (run s before) w ∈ transcript s visits := by
  rw [e, transcript_append, transcript_cons]
  exact List.mem_append_right _ List.mem_cons_self

theorem not_cutShort_of_mem_transcript (hr : s.registry.isResponsive = true) {x : Exchange}
    (hx : x ∈ transcript s visits) : ¬ x.CutShort := by
  obtain ⟨pre, post, e⟩ := List.append_of_mem hx
  obtain ⟨before, w, after, -, -, rfl, -⟩ := eq_append_of_transcript e
  exact not_cutShort_of_isResponsive (responsive_run hr before)

variable (hs : s.store.Sound)

include hs

/-- **Which groups are open** is switched by the shares that reach them. -/
theorem switches_open (hg : s.store.Grouped) (hf : FreshGroups visits)
    (hcut : ∀ x ∈ transcript s visits, ¬ x.CutShort) (uid g : String) :
    Switches (fun t => t.Open uid g) (·.Reaches .add uid g) (·.Reaches .remove uid g) s visits := by
  intro before w after e
  have hmem := mem_transcript_of_append (s := s) e
  rw [e] at hf
  rw [run_concat]
  exact open_exchange (sound_run hs before) (grouped_run hs hg hf.of_append.1) (hcut _ hmem) uid g

/-- **What is on the list of a user** is switched by the shares that name it. -/
theorem switches_sharedWith (hfail : ∀ x ∈ transcript s visits, ¬ x.FailsToShare)
    (uid n : String) :
    Switches (fun t => n ∈ t.store.sharedWith uid) (·.Names .add uid n) (·.Names .remove uid n) s
      visits := by
  intro before w after e
  have hmem := mem_transcript_of_append (s := s) e
  rw [run_concat]
  exact mem_sharedWith_exchange (sound_run hs before) (hfail _ hmem) uid n

end Run

end Http

end SealedGraph
