import SealedGraph.Proofs.Registry.Groups
import SealedGraph.Proofs.Visibility
import SealedGraph.Server.Call

/-!
# What the work of the server touches

A call is bound to its caller, put to the store, and told to the registry, in this order and with
no way back. So what it does to the store does not depend on the registry.

* `Steady`: a part of the server that changes with the groups at most; `Apart`: one that neither the
  registry nor the counters belong to; `Aside` and `Fixed`: such parts to which the store does not
  belong either.
* `store_perform`: the store after a call is `Call.effect` of the store before it, whether the call
  is answered or refused.
* `keeps_perform`, `keeps_login`: what calls and logins leave alone.
-/

namespace SealedGraph

open Attempt

/-! ### Parts of the server -/

/-- A part of the server that stays as it is whatever is counted, whatever the registry is asked but
to open and close groups, and whatever the filter asks. -/
structure Steady {γ : Type} (π : Server → γ) : Prop where
  metrics : ∀ s k, π { s with metrics := k } = π s
  call : ∀ {k : Registry.Kind} (m : Moment) (op : Registry.Operation k),
    op.changesGroups = false → Keeps π (Service.call m op)
  pack : ∀ (m : Moment) (c : Caller) (nodes : List Node),
    Keeps π (Service.inquire (c.pack m.instant nodes))

/-- Such a part that does not depend on the store either. -/
structure Aside {γ : Type} (π : Server → γ) : Prop extends Steady π where
  store : ∀ s t, π { s with store := t } = π s

/-- A part of the server that does not depend on the registry and the counters. -/
structure Apart {γ : Type} (π : Server → γ) : Prop where
  registry : ∀ s r, π { s with registry := r } = π s
  metrics : ∀ s k, π { s with metrics := k } = π s

theorem apart_store : Apart Server.store := ⟨fun _ _ => rfl, fun _ _ => rfl⟩

/-- A part of the server that does not depend on the store either. -/
structure Fixed {γ : Type} (π : Server → γ) : Prop extends Apart π where
  store : ∀ s t, π { s with store := t } = π s

theorem fixed_gate : Fixed Server.gate := ⟨⟨fun _ _ => rfl, fun _ _ => rfl⟩, fun _ _ => rfl⟩

theorem fixed_maxFailures : Fixed Server.maxFailures :=
  ⟨⟨fun _ _ => rfl, fun _ _ => rfl⟩, fun _ _ => rfl⟩

namespace Service

variable {α β γ : Type} {π : Server → γ}

/-! ### Work on the registry -/

theorem keeps_inquire (hπ : Apart π) (x : Inquiry α) : Keeps π (inquire x) := by
  intro s
  unfold inquire
  rw [run_within]
  rcases x.run s.registry with ⟨_ | _, r⟩
  · exact hπ.registry s r
  · exact hπ.registry s r

end Service

theorem Apart.steady {γ : Type} {π : Server → γ} (hπ : Apart π) : Steady π where
  metrics := hπ.metrics
  call _ _ _ := Service.keeps_inquire hπ _
  pack _ _ _ := Service.keeps_inquire hπ _

theorem Fixed.aside {γ : Type} {π : Server → γ} (hπ : Fixed π) : Aside π where
  toSteady := hπ.toApart.steady
  store := hπ.store

namespace Service

variable {α β γ : Type} {π : Server → γ}

theorem keeps_count (hπ : Steady π) (c : Counter) (n : Nat) : Keeps π (count c n) :=
  fun s => hπ.metrics s _

theorem keeps_pack (hπ : Steady π) (m : Moment) (c : Caller) (nodes : List Node) :
    Keeps π (pack m c nodes) :=
  (hπ.pack m c nodes).bind fun _ => (keeps_count hπ _ _).bind fun _ => keeps_pure _

theorem keeps_bound (hπ : Steady π) (o : Except RequestError α) : Keeps π (bound o) := by
  unfold bound
  cases o with
  | ok a => exact keeps_pure a
  | error e =>
    simp only
    split
    · exact (keeps_count hπ _ _).bind fun _ => keeps_fail _
    · exact keeps_fail _

theorem keeps_authenticate (hπ : Apart π) (m : Moment) (header : Option String) :
    Keeps π (authenticate m header) := by
  intro s
  unfold authenticate run
  simp only
  rcases s.gate.authenticate header m.second m.instant s.registry with ⟨e | c, r⟩
  · simp only
    split
    · exact (hπ.metrics _ _).trans (hπ.registry s r)
    · exact hπ.registry s r
  · exact hπ.registry s r

/-! ### Work on the store -/

theorem run_onStore (f : Store → Except StoreError α × Store) (s : Server) :
    (onStore f).run s =
      match f s.store with
      | (.ok a, t) => (.ok a, { s with store := t })
      | (.error e, t) => (.error (.store e), { s with store := t }) := by
  unfold onStore
  rw [run_within, run_of]
  rcases f s.store with ⟨_ | _, t⟩
  · rfl
  · rfl

theorem run_bound_bind (o : Except RequestError α) (f : α → Service β) (s : Server) :
    (bound o >>= f).run s =
      match o with
      | .ok a => (f a).run s
      | .error e => (.error (.request e), ((bound o).run s).2) := by
  rw [run_bind]
  cases o with
  | ok a => rfl
  | error e =>
    unfold bound
    by_cases he : e.isDenial = true
    · simp only [he, if_true]
      rfl
    · simp only [he]
      rfl

theorem of_bound_bind_eq_ok {o : Except RequestError α} {f : α → Service β} {b : β}
    {s t : Server} (h : (bound o >>= f).run s = (.ok b, t)) :
    ∃ a, o = .ok a ∧ (f a).run s = (.ok b, t) := by
  rw [run_bound_bind] at h
  cases o with
  | error e => cases h
  | ok a => exact ⟨a, rfl, h⟩

theorem store_bound_bind (o : Except RequestError α) (f : α → Service β) (s : Server) :
    ((bound o >>= f).run s).2.store =
      match o with
      | .ok a => ((f a).run s).2.store
      | .error _ => s.store := by
  rw [run_bound_bind]
  cases o with
  | ok a => rfl
  | error e => exact keeps_bound apart_store.steady _ s

theorem store_onStore (f : Store → Except StoreError α × Store) (s : Server) :
    ((onStore f).run s).2.store = (f s.store).2 := by
  rw [run_onStore]
  rcases f s.store with ⟨e | a, t⟩
  · rfl
  · rfl

theorem of_onStore_bind_eq_ok {f : Store → Except StoreError α × Store} {g : α → Service β}
    {b : β} {s t : Server} (h : (onStore f >>= g).run s = (.ok b, t)) :
    ∃ a u, f s.store = (.ok a, u.store) ∧ (g a).run u = (.ok b, t) := by
  obtain ⟨a, u, hx, hg⟩ := run_bind_eq_ok h
  rw [run_onStore] at hx
  rcases hf : f s.store with ⟨e | a', t'⟩
  · rw [hf] at hx
    cases hx
  · rw [hf] at hx
    cases hx
    exact ⟨a, _, rfl, hg⟩

/-- To look at the store does not change it. -/
theorem keeps_look (f : Store → Except StoreError α) :
    Keeps Server.store (onStore fun t => (f t, t)) :=
  store_onStore _

theorem store_onStore_bind (f : Store → Except StoreError α × Store) {g : α → Service β}
    (hg : ∀ a, Keeps Server.store (g a)) (s : Server) :
    ((onStore f >>= g).run s).2.store = (f s.store).2 :=
  (keeps_after hg _ s).trans (store_onStore f s)

theorem keeps_onStore (hπ : Aside π) (f : Store → Except StoreError α × Store) :
    Keeps π (onStore f) := by
  intro s
  rw [run_onStore]
  rcases f s.store with ⟨e | a, t⟩
  · exact hπ.store s t
  · exact hπ.store s t

end Service

/-! ### Parts of calls -/

section Parts

variable {γ : Type} {π : Server → γ}

theorem keeps_cleanup (hπ : Steady π) (m : Moment) (c : Cleanup) : Keeps π (c.perform m) := by
  cases c with
  | forgetFailures username => exact hπ.call m _ rfl
  | endSessions uid => exact (hπ.call m _ rfl).bind fun _ => keeps_pure _

theorem keeps_tell (hπ : Steady π) (m : Moment) (todo : List Cleanup) : Keeps π (tell m todo) := by
  induction todo with
  | nil => exact keeps_pure _
  | cons c cs ih => exact (keeps_cleanup hπ m c).bind fun _ => ih

theorem keeps_forEach (hπ : Apart π) (work : String → Inquiry Nat) (recipients : List String) :
    Keeps π (Call.forEach work recipients) := by
  induction recipients with
  | nil => exact keeps_pure _
  | cons r rs ih => exact (Service.keeps_inquire hπ _).bind fun _ => ih

theorem keeps_shown (hπ : Steady π) (m : Moment) (c : Caller) (nodes : List Node) :
    Keeps π (Call.shown m c nodes) :=
  (Service.keeps_pack hπ m c nodes).bind fun _ => keeps_pure _

theorem keeps_visibleUser (c : Caller) (user : Option User) :
    Keeps π (Call.visibleUser c user) := by
  unfold Call.visibleUser
  cases user with
  | none => exact keeps_fail _
  | some u =>
    simp only
    split
    · exact keeps_pure _
    · exact keeps_fail _

theorem keeps_afterCall (hπ : Steady π) {k : Registry.Kind} (m : Moment)
    (op : Registry.Operation k) (hop : op.changesGroups = false) (next : k.Value → LoginStage)
    (s : Server) : π (LoginStage.afterCall m op next s).2 = π s := by
  have h := hπ.call m op hop s
  unfold LoginStage.afterCall
  rcases hr : (Service.call m op).run s with ⟨e | v, t⟩
  · rw [hr] at h
    exact h
  · rw [hr] at h
    exact h

theorem keeps_advance (hπ : Steady π) (m : Moment) (r : LoginRequest) (stage : LoginStage)
    (s : Server) : π (LoginStage.advance m r stage s).2 = π s := by
  cases stage with
  | counting =>
    simp only [LoginStage.advance]
    split
    · rfl
    · exact keeps_afterCall hπ m _ rfl _ s
  | checking =>
    simp only [LoginStage.advance]
    split
    · rfl
    · split
      · exact hπ.metrics s _
      · exact hπ.metrics s _
  | noting => exact keeps_afterCall hπ m _ rfl _ s
  | clearing user => exact keeps_afterCall hπ m _ rfl _ s
  | issuing user =>
    have h := keeps_afterCall hπ m (.addSession user.uid m.session) rfl
      (fun _ => .finished (.ok (LoginStage.issued m s.gate user))) s
    simp only [LoginStage.advance]
    split
    · exact (hπ.metrics _ _).trans h
    · exact h
  | finished outcome => rfl

/-- **A login changes the registry and the counters only**, and of the registry not the groups. -/
theorem keeps_login (hπ : Steady π) (m : Moment) (r : LoginRequest) : Keeps π (login m r) := by
  have hrun : ∀ n stage s, π (LoginStage.run m r n stage s).2 = π s := by
    intro n
    induction n with
    | zero => exact fun _ _ => rfl
    | succ n ih => exact fun stage s => (ih _ _).trans (keeps_advance hπ m r stage s)
  exact fun s => hrun LoginStage.maxSteps .counting s

end Parts

/-! ### Accounts -/

theorem of_createAccount_eq_ok {account : NewAccount} {user : User} {s t : Server}
    (h : (createAccount account).run s = (.ok user, t)) :
    s.store.createAccount account = (.ok user, t.store) := by
  obtain ⟨user', u, hu, h⟩ := Service.of_onStore_bind_eq_ok h
  obtain ⟨_, v, hv, h⟩ := run_bind_eq_ok h
  obtain ⟨rfl, rfl⟩ := run_pure_eq_ok h
  cases hv
  exact hu

theorem of_updateAccounts_eq_ok {m : Moment} {updates : List AccountUpdate} {users : List User}
    {s t : Server} (h : (updateAccounts m updates).run s = (.ok users, t)) :
    s.store.updateAccounts updates = (.ok users, t.store) := by
  obtain ⟨users', u, hu, h⟩ := Service.of_onStore_bind_eq_ok h
  obtain ⟨_, v, hv, h⟩ := run_bind_eq_ok h
  obtain ⟨rfl, rfl⟩ := run_pure_eq_ok h
  have hk := keeps_tell apart_store.steady m (cleanups (credentialChanges updates) users) u
  rw [hv] at hk
  rw [hu, hk]

/-! ### Whole calls -/

namespace Call

variable {γ : Type} {π : Server → γ}

/-- The store after a call of a caller. -/
def effect (m : Moment) (c : Caller) : Call → Store → Store
  | .update request, s =>
    match request.bind c with
    | .ok nodes => (s.update m.clock nodes).2
    | .error _ => s
  | .create request, s =>
    match request.bind c with
    | .ok r => (s.create m.clock m.group c.uid (some r.parent) r.nodes).2
    | .error _ => s
  | .createRoot request, s =>
    match request.bind c with
    | .ok n => (s.create m.clock m.group c.uid none [n]).2
    | .error _ => s
  | .addEdges request, s =>
    match request.bind c with
    | .ok r => (s.addEdges m.clock r.subjects r.incoming r.outgoing).2
    | .error _ => s
  | .removeEdges request, s =>
    match request.bind c with
    | .ok r => (s.removeEdges m.clock r.subjects r.incoming r.outgoing).2
    | .error _ => s
  | .share request, s =>
    match request.bind c with
    | .ok r => (s.share .add r.nodes r.users).2
    | .error _ => s
  | .unshare request, s =>
    match request.bind c with
    | .ok r => (s.share .remove r.nodes r.users).2
    | .error _ => s
  | .createAccount request, s =>
    match request.bind c with
    | .ok account => (s.createAccount account).2
    | .error _ => s
  | .updateAccounts request, s =>
    match request.bind c with
    | .ok updates => (s.updateAccounts updates).2
    | .error _ => s
  | _, s => s

/-- What a call changes of what is shared, and the request for it. -/
def sharing? : Call → Option (ShareChange × ShareRequest)
  | .share request => some (.add, request)
  | .unshare request => some (.remove, request)
  | _ => none

section Sharing

variable {call : Call} {change : ShareChange} {request : ShareRequest}

theorem perform_of_sharing (h : call.sharing? = some (change, request)) (m : Moment) (c : Caller) :
    call.perform m c = changeShare m c change request := by
  cases call with
  | share r =>
    cases h
    rfl
  | unshare r =>
    cases h
    rfl
  | _ => cases h

theorem effect_of_sharing (h : call.sharing? = some (change, request)) (m : Moment) (c : Caller)
    (s : Store) : call.effect m c s =
      match request.bind c with
      | .ok r => (s.share change r.nodes r.users).2
      | .error _ => s := by
  cases call with
  | share r =>
    cases h
    rfl
  | unshare r =>
    cases h
    rfl
  | _ => cases h

end Sharing

theorem store_changeShare (m : Moment) (c : Caller) (change : ShareChange) (request : ShareRequest)
    (s : Server) :
    ((changeShare m c change request).run s).2.store =
      match request.bind c with
      | .ok r => (s.store.share change r.nodes r.users).2
      | .error _ => s.store := by
  unfold changeShare
  rw [Service.store_bound_bind]
  cases request.bind c with
  | error e => rfl
  | ok r =>
    exact Service.store_onStore_bind _
      (fun _ => (keeps_forEach apart_store _ _).bind fun _ => keeps_pure _) s

theorem keeps_changeShare (hπ : Fixed π) (m : Moment) (c : Caller) (change : ShareChange)
    (request : ShareRequest) : Keeps π (changeShare m c change request) :=
  (Service.keeps_bound hπ.aside.toSteady _).bind fun _ =>
    (Service.keeps_onStore hπ.aside _).bind fun _ =>
      (keeps_forEach hπ.toApart _ _).bind fun _ => keeps_pure _

/-- **A call changes the store, the registry and the counters only**, and of the registry not the
groups, unless nodes are shared. -/
theorem keeps_perform (hπ : Aside π) (m : Moment) (c : Caller) {call : Call}
    (hshare : ∀ change request, call.sharing? = some (change, request) →
      Keeps π (changeShare m c change request)) : Keeps π (call.perform m c) := by
  have hs := hπ.toSteady
  cases call with
  | check => exact keeps_pure _
  | logout => exact (hs.call m _ rfl).bind fun _ => keeps_pure _
  | logoutEverywhere => exact (hs.call m _ rfl).bind fun _ => keeps_pure _
  | query request =>
    refine (Service.keeps_bound hs _).bind fun q => ?_
    split
    · exact keeps_fail _
    · exact keeps_state.bind fun _ => keeps_shown hs m c _
  | update request =>
    exact (Service.keeps_bound hs _).bind fun _ =>
      (Service.keeps_onStore hπ _).bind fun _ => keeps_shown hs m c _
  | create request =>
    exact (Service.keeps_bound hs _).bind fun _ =>
      (Service.keeps_onStore hπ _).bind fun _ => keeps_pure _
  | createRoot request =>
    exact (Service.keeps_bound hs _).bind fun _ =>
      (Service.keeps_onStore hπ _).bind fun _ => keeps_pure _
  | addEdges request =>
    exact (Service.keeps_bound hs _).bind fun _ =>
      (Service.keeps_onStore hπ _).bind fun _ => keeps_pure _
  | removeEdges request =>
    exact (Service.keeps_bound hs _).bind fun _ =>
      (Service.keeps_onStore hπ _).bind fun _ => keeps_pure _
  | list name =>
    exact (Service.keeps_onStore hπ _).bind fun _ =>
      (Service.keeps_onStore hπ _).bind fun _ => keeps_shown hs m c _
  | share request => exact hshare .add request rfl
  | unshare request => exact hshare .remove request rfl
  | userByName username => exact keeps_state.bind fun _ => keeps_visibleUser c _
  | userByUid uid => exact keeps_state.bind fun _ => keeps_visibleUser c _
  | createAccount request =>
    exact (Service.keeps_bound hs _).bind fun _ => ((Service.keeps_onStore hπ _).bind fun _ =>
      (Service.keeps_count hs _ _).bind fun _ => keeps_pure _).bind fun _ => keeps_pure _
  | updateAccounts request =>
    exact (Service.keeps_bound hs _).bind fun _ => ((Service.keeps_onStore hπ _).bind fun _ =>
      (keeps_tell hs m _).bind fun _ => keeps_pure _).bind fun _ => keeps_pure _

/-- **What a call does to the store** depends on the store and the caller alone. -/
theorem store_perform (m : Moment) (c : Caller) (call : Call) (s : Server) :
    ((call.perform m c).run s).2.store = call.effect m c s.store := by
  cases call with
  | check => rfl
  | logout => exact ((apart_store.steady.call m _ rfl).bind fun _ => keeps_pure _) s
  | logoutEverywhere => exact ((apart_store.steady.call m _ rfl).bind fun _ => keeps_pure _) s
  | query request =>
    refine ((Service.keeps_bound apart_store.steady _).bind fun q => ?_) s
    split
    · exact keeps_fail _
    · exact keeps_state.bind fun _ => keeps_shown apart_store.steady m c _
  | update request =>
    simp only [perform, effect, Service.store_bound_bind]
    cases request.bind c with
    | error e => rfl
    | ok nodes => exact Service.store_onStore_bind _ (fun _ => keeps_shown apart_store.steady m c _) s
  | create request =>
    simp only [perform, effect, Service.store_bound_bind]
    cases request.bind c with
    | error e => rfl
    | ok r => exact Service.store_onStore_bind _ (fun _ => keeps_pure _) s
  | createRoot request =>
    simp only [perform, effect, Service.store_bound_bind]
    cases request.bind c with
    | error e => rfl
    | ok n => exact Service.store_onStore_bind _ (fun _ => keeps_pure _) s
  | addEdges request =>
    simp only [perform, effect, Service.store_bound_bind]
    cases request.bind c with
    | error e => rfl
    | ok r => exact Service.store_onStore_bind _ (fun _ => keeps_pure _) s
  | removeEdges request =>
    simp only [perform, effect, Service.store_bound_bind]
    cases request.bind c with
    | error e => rfl
    | ok r => exact Service.store_onStore_bind _ (fun _ => keeps_pure _) s
  | list name =>
    exact ((Service.keeps_look _).bind fun _ =>
      (Service.keeps_look _).bind fun _ => keeps_shown apart_store.steady m c _) s
  | share request => exact store_changeShare m c .add request s
  | unshare request => exact store_changeShare m c .remove request s
  | userByName username => exact (keeps_state.bind fun _ => keeps_visibleUser c _) s
  | userByUid uid => exact (keeps_state.bind fun _ => keeps_visibleUser c _) s
  | createAccount request =>
    simp only [perform, effect, Service.store_bound_bind]
    cases request.bind c with
    | error e => rfl
    | ok account =>
      refine (keeps_after (π := Server.store) (fun _ => keeps_pure _) _ s).trans ?_
      exact Service.store_onStore_bind _
        (fun _ => (Service.keeps_count apart_store.steady _ _).bind fun _ => keeps_pure _) s
  | updateAccounts request =>
    simp only [perform, effect, Service.store_bound_bind]
    cases request.bind c with
    | error e => rfl
    | ok updates =>
      refine (keeps_after (π := Server.store) (fun _ => keeps_pure _) _ s).trans ?_
      exact Service.store_onStore_bind _
        (fun _ => (keeps_tell apart_store.steady m _).bind fun _ => keeps_pure _) s

end Call

end SealedGraph
