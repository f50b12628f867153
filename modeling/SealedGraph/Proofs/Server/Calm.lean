import SealedGraph.Proofs.Registry.Sessions
import SealedGraph.Proofs.Server.Service

/-!
# What the registry is told

Every part of the work of a server tells the registry something about some parts of its table, and
leaves the others alone, also where the registry fails.

* `Asks`: work that tells the registry nothing but about some parts; `asks_perform`, `asks_login`
  and `Service.asks_authenticate`: such work.
* `Calms`: work that leaves the sessions alone, and a registry that answers.
* `call_of_isResponsive`: what one call comes to as long as the registry answers.
-/

namespace SealedGraph

open Attempt
open Registry (Link Operation Part)

/-! ### Work that tells the registry something -/

/-- Whatever comes of the work, the registry is told nothing but about these parts. -/
def Asks {σ ε α : Type} (parts : List Part) (π : σ → Link) (x : Attempt σ ε α) : Prop :=
  ∀ s, Link.Told parts (π s) (π (x.run s).2)

/-- The work leaves a registry that answers if it did so before, and all the sessions. -/
def Calms {σ ε α : Type} (π : σ → Link) (x : Attempt σ ε α) : Prop :=
  ∀ s, (π s).Calm (π (x.run s).2)

section Asks

variable {σ ε α β : Type} {parts : List Part} {π : σ → Link}

theorem Asks.calms {x : Attempt σ ε α} (h : Asks parts π x) (hp : Part.sessions ∉ parts) :
    Calms π x := fun s => (h s).calm hp

theorem asks_of_keeps {x : Attempt σ ε α} (h : Keeps π x) : Asks parts π x := by
  intro s
  rw [h s]
  exact .nothing _

theorem asks_pure (a : α) : Asks parts π (pure a : Attempt σ ε α) := fun _ => .nothing _

theorem asks_fail (e : ε) : Asks parts π (fail e : Attempt σ ε α) := fun _ => .nothing _

theorem asks_state : Asks parts π (state : Attempt σ ε σ) := fun _ => .nothing _

theorem Asks.bind {x : Attempt σ ε α} {f : α → Attempt σ ε β} (hx : Asks parts π x)
    (hf : ∀ a, Asks parts π (f a)) : Asks parts π (x >>= f) := by
  intro s
  have h := hx s
  rw [run_bind]
  rcases hr : x.run s with ⟨e | a, t⟩
  · rw [hr] at h
    exact h
  · rw [hr] at h
    exact h.trans (hf a t)

end Asks

/-! ### Inquiries -/

section Inquiry

variable {parts : List Part}

theorem asks_ask {k : Registry.Kind} (now : Nat) (op : Operation k)
    (h : ∀ p, op.writes = some p → p ∈ parts) : Asks parts (fun l : Link => l) (ask now op) :=
  fun l => .call (.nothing l) now op h

namespace Caller

variable (c : Caller) (now : Nat)

theorem asks_canSee (n : Node) : Asks parts (fun l : Link => l) (c.canSee now n) := by
  unfold canSee
  split
  · exact asks_pure _
  · split
    · exact asks_pure _
    · split
      · exact asks_ask now _ nofun
      · exact asks_pure _

theorem asks_seen (nodes : List Node) : Asks parts (fun l : Link => l) (c.seen now nodes) := by
  induction nodes with
  | nil => exact asks_pure _
  | cons n ns ih =>
    exact (asks_canSee c now n).bind fun _ => ih.bind fun _ => asks_pure _

theorem asks_filterVisible (nodes : List Node) :
    Asks parts (fun l : Link => l) (c.filterVisible now nodes) := by
  induction nodes with
  | nil => exact asks_pure _
  | cons n ns ih =>
    refine (asks_canSee c now n).bind fun visible => ?_
    split
    · exact (asks_seen c now _).bind fun _ => ih.bind fun _ => asks_pure _
    · exact ih.bind fun _ => asks_pure _

theorem asks_grant (recipient : String) (members : List Node) :
    Asks [.groups] (fun l : Link => l) (c.grant now recipient members) := by
  unfold grant
  simp only
  split
  · exact asks_pure _
  · exact (asks_ask now _ (by simp [Operation.writes])).bind fun _ => asks_pure _

theorem asks_withdraw (recipient : String) (members : List Node) :
    Asks [.groups] (fun l : Link => l) (c.withdraw now recipient members) := by
  unfold withdraw
  simp only
  split
  · exact asks_pure _
  · exact (asks_ask now _ (by simp [Operation.writes])).bind fun _ => asks_pure _

end Caller

namespace Gate

variable (g : Gate) (now : Int64) (instant : Nat) (l : Link)

theorem told_validate (token : String) :
    Link.Told [.sessions] l (g.validate token now instant l).2 := by
  unfold validate
  cases SessionDescriptor.unpack g.master.bytes token with
  | error e => exact .nothing l
  | ok d =>
    simp only
    split
    · exact .call (.nothing l) instant (.deleteSession d.uid d.session) (by simp [Operation.writes])
    · have h : Link.Told [.sessions] l (l.call instant (.hasSession d.uid d.session)).2 :=
        .call (.nothing l) instant _ nofun
      rcases hc : l.call instant (.hasSession d.uid d.session) with ⟨e | b, l'⟩
      · rw [hc] at h
        exact h
      · rw [hc] at h
        cases b with
        | false => exact h
        | true => exact h

theorem told_authenticate (header : Option String) :
    Link.Told [.sessions] l (g.authenticate header now instant l).2 := by
  unfold authenticate
  cases bearerToken? header with
  | none => exact .nothing l
  | some token => exact told_validate g now instant l token

end Gate

end Inquiry

/-! ### Work on a server -/

namespace Service

variable {α : Type} {parts : List Part}

theorem asks_inquire {x : Inquiry α} (hx : Asks parts (fun l => l) x) :
    Asks parts Server.registry (inquire x) := by
  intro s
  have h := hx s.registry
  unfold inquire
  rw [run_within]
  rcases hr : x.run s.registry with ⟨e | a, l⟩
  · rw [hr] at h
    exact h
  · rw [hr] at h
    exact h

theorem asks_call {k : Registry.Kind} (m : Moment) (op : Operation k)
    (h : ∀ p, op.writes = some p → p ∈ parts) : Asks parts Server.registry (call m op) :=
  asks_inquire (asks_ask m.instant op h)

theorem asks_count (c : Counter) (n : Nat) : Asks parts Server.registry (count c n) :=
  fun _ => .nothing _

theorem asks_bound (o : Except RequestError α) : Asks parts Server.registry (bound o) := by
  unfold bound
  cases o with
  | ok a => exact asks_pure a
  | error e =>
    simp only
    split
    · exact (asks_count _ _).bind fun _ => asks_fail _
    · exact asks_fail _

/-- A request that is refused has told the registry nothing. -/
theorem told_bound (o : Except RequestError α) (s : Server) :
    Link.Told [] s.registry ((bound o).run s).2.registry := asks_bound o s

theorem asks_onStore (f : Store → Except StoreError α × Store) :
    Asks parts Server.registry (onStore f) := by
  intro s
  rw [run_onStore]
  rcases f s.store with ⟨e | a, t⟩
  · exact .nothing _
  · exact .nothing _

theorem asks_pack (m : Moment) (c : Caller) (nodes : List Node) :
    Asks parts Server.registry (pack m c nodes) := by
  have h : Asks parts (fun l : Link => l) (c.pack m.instant nodes) :=
    (Caller.asks_filterVisible c m.instant nodes).bind fun _ => asks_pure _
  exact (asks_inquire h).bind fun _ => (asks_count _ _).bind fun _ => asks_pure _

/-- **A look at a header** can take a session away that is too old, and that is all. -/
theorem asks_authenticate (m : Moment) (header : Option String) :
    Asks [.sessions] Server.registry (authenticate m header) := by
  intro s
  have hgate := s.gate.told_authenticate m.second m.instant s.registry header
  unfold authenticate run
  simp only
  rcases hg : s.gate.authenticate header m.second m.instant s.registry with ⟨e | c, r⟩
  · rw [hg] at hgate
    simp only
    split
    · exact hgate
    · exact hgate
  · rw [hg] at hgate
    exact hgate

/-- **A registry that answers** does what it is asked, and goes on to answer. -/
theorem call_of_isResponsive {k : Registry.Kind} {s : Server}
    (hr : s.registry.isResponsive = true) (m : Moment) (op : Operation k) :
    ∃ l, (call m op).run s =
        (.ok (op.apply m.instant s.registry.table).1, { s with registry := l }) ∧
      l.table = (op.apply m.instant s.registry.table).2 ∧ l.isResponsive = true := by
  obtain ⟨l, hl, ht, hr'⟩ := Link.call_of_isResponsive hr m.instant op
  refine ⟨l, ?_, ht, hr'⟩
  unfold call inquire
  rw [run_within]
  unfold ask
  rw [run_of, hl]

end Service

theorem asks_cleanup (m : Moment) (c : Cleanup) :
    Asks [.failures, .sessions] Server.registry (c.perform m) := by
  cases c with
  | forgetFailures username => exact Service.asks_call m _ (by simp [Operation.writes])
  | endSessions uid =>
    exact (Service.asks_call m _ (by simp [Operation.writes])).bind fun _ => asks_pure _

theorem asks_tell (m : Moment) (todo : List Cleanup) :
    Asks [.failures, .sessions] Server.registry (tell m todo) := by
  induction todo with
  | nil => exact asks_pure _
  | cons c cs ih => exact (asks_cleanup m c).bind fun _ => ih

/-! ### Logins -/

section Login

variable {parts : List Part}

theorem asks_afterCall {k : Registry.Kind} (m : Moment) (op : Operation k)
    (h : ∀ p, op.writes = some p → p ∈ parts) (next : k.Value → LoginStage) (s : Server) :
    Link.Told parts s.registry (LoginStage.afterCall m op next s).2.registry := by
  have hcall := Service.asks_call m op h s
  unfold LoginStage.afterCall
  rcases hr : (Service.call m op).run s with ⟨e | v, t⟩
  · rw [hr] at hcall
    exact hcall
  · rw [hr] at hcall
    exact hcall

theorem asks_advance (m : Moment) (r : LoginRequest) (stage : LoginStage) (s : Server) :
    Link.Told [.failures, .sessions] s.registry (LoginStage.advance m r stage s).2.registry := by
  cases stage with
  | counting =>
    simp only [LoginStage.advance]
    split
    · exact .nothing _
    · exact asks_afterCall m _ (by simp [Operation.writes]) _ s
  | checking =>
    simp only [LoginStage.advance]
    split
    · exact .nothing _
    · split
      · exact .nothing _
      · exact .nothing _
  | noting => exact asks_afterCall m _ (by simp [Operation.writes]) _ s
  | clearing user => exact asks_afterCall m _ (by simp [Operation.writes]) _ s
  | issuing user =>
    have h : Link.Told [.failures, .sessions] s.registry
        (LoginStage.afterCall m (.addSession user.uid m.session)
          (fun _ => .finished (.ok (LoginStage.issued m s.gate user))) s).2.registry :=
      asks_afterCall m _ (by simp [Operation.writes]) _ s
    simp only [LoginStage.advance]
    split
    · exact h
    · exact h
  | finished outcome => exact .nothing _

/-- **A login** writes failures and a session. -/
theorem asks_login (m : Moment) (r : LoginRequest) :
    Asks [.failures, .sessions] Server.registry (login m r) := by
  have hrun : ∀ n stage s, Link.Told [.failures, .sessions] s.registry
      (LoginStage.run m r n stage s).2.registry := by
    intro n
    induction n with
    | zero => exact fun _ s => .nothing s.registry
    | succ n ih => exact fun stage s => (asks_advance m r stage s).trans (ih _ _)
  exact fun s => hrun LoginStage.maxSteps .counting s

end Login

/-! ### Calls -/

namespace Call

/-- The parts of the registry's table that a call writes. -/
def writes : Call → List Part
  | .logout => [.sessions]
  | .logoutEverywhere => [.sessions]
  | .share _ => [.groups]
  | .unshare _ => [.groups]
  | .updateAccounts _ => [.failures, .sessions]
  | _ => []

variable {parts : List Part}

theorem asks_shown (m : Moment) (c : Caller) (nodes : List Node) :
    Asks parts Server.registry (shown m c nodes) :=
  (Service.asks_pack m c nodes).bind fun _ => asks_pure _

theorem asks_visibleUser (c : Caller) (user : Option User) :
    Asks parts Server.registry (visibleUser c user) :=
  asks_of_keeps (keeps_visibleUser c user)

theorem asks_forEach {work : String → Inquiry Nat}
    (hw : ∀ recipient, Asks parts (fun l => l) (work recipient)) (recipients : List String) :
    Asks parts Server.registry (forEach work recipients) := by
  induction recipients with
  | nil => exact asks_pure _
  | cons r rs ih => exact (Service.asks_inquire (hw r)).bind fun _ => ih

theorem asks_changeShare (m : Moment) (c : Caller) (change : ShareChange)
    (request : ShareRequest) : Asks [.groups] Server.registry (changeShare m c change request) := by
  refine (Service.asks_bound _).bind fun r => (Service.asks_onStore _).bind fun members => ?_
  refine (asks_forEach (fun recipient => ?_) _).bind fun _ => asks_pure _
  cases change with
  | add => exact Caller.asks_grant c m.instant recipient members
  | remove => exact Caller.asks_withdraw c m.instant recipient members

/-- **What a call tells the registry**, whether the registry fails or not. -/
theorem asks_perform (m : Moment) (c : Caller) (call : Call) :
    Asks call.writes Server.registry (call.perform m c) := by
  cases call with
  | check => exact asks_pure _
  | logout =>
    exact (Service.asks_call m _ (by simp [Operation.writes, writes])).bind fun _ => asks_pure _
  | logoutEverywhere =>
    exact (Service.asks_call m _ (by simp [Operation.writes, writes])).bind fun _ => asks_pure _
  | query request =>
    refine (Service.asks_bound _).bind fun q => ?_
    split
    · exact asks_fail _
    · exact asks_state.bind fun _ => asks_shown m c _
  | update request =>
    exact (Service.asks_bound _).bind fun _ => (Service.asks_onStore _).bind fun _ => asks_shown m c _
  | create request =>
    exact (Service.asks_bound _).bind fun _ => (Service.asks_onStore _).bind fun _ => asks_pure _
  | createRoot request =>
    exact (Service.asks_bound _).bind fun _ => (Service.asks_onStore _).bind fun _ => asks_pure _
  | addEdges request =>
    exact (Service.asks_bound _).bind fun _ => (Service.asks_onStore _).bind fun _ => asks_pure _
  | removeEdges request =>
    exact (Service.asks_bound _).bind fun _ => (Service.asks_onStore _).bind fun _ => asks_pure _
  | list name =>
    exact (Service.asks_onStore _).bind fun _ => (Service.asks_onStore _).bind fun _ =>
      asks_shown m c _
  | share request => exact asks_changeShare m c .add request
  | unshare request => exact asks_changeShare m c .remove request
  | userByName username => exact asks_state.bind fun _ => asks_visibleUser c _
  | userByUid uid => exact asks_state.bind fun _ => asks_visibleUser c _
  | createAccount request =>
    exact (Service.asks_bound _).bind fun _ => ((Service.asks_onStore _).bind fun _ =>
      (Service.asks_count _ _).bind fun _ => asks_pure _).bind fun _ => asks_pure _
  | updateAccounts request =>
    exact (Service.asks_bound _).bind fun _ => ((Service.asks_onStore _).bind fun _ =>
      (asks_tell m _).bind fun _ => asks_pure _).bind fun _ => asks_pure _

end Call

end SealedGraph
