import Mathlib.Data.List.Induction
import SealedGraph.Http.Handler
import SealedGraph.Proofs.Server.Calm

/-!
# Requests one after the other

A response is bytes for whoever asked. What was done for a request is more: which call of which
caller it came down to, and how that ended.

* `serve`: what is done for a request, and `handle_eq_serve`, that this is how it is answered.
* `serve_cases`: the ways in which a request can go.
* `store_serve`, `told_serve`, `fixed_serve`: what it does to the store, to the registry, and to the
  rest of the server.
* `run`, `transcript`: the server after some requests, and what was done for each of them.
-/

namespace SealedGraph.Http

open Attempt

/-! ### What is done for a request -/

/-- What was done for a request. -/
inductive Outcome
  /-- nothing but to send this response -/
  | plain (response : Response)
  | login (request : LoginRequest) (outcome : Except ServiceError IssuedSession)
  | call (caller : Caller) (call : Call) (outcome : Except ServiceError Answer)

/-- The response that tells an outcome. -/
def Outcome.response : Outcome → Response
  | .plain response => response
  | .login _ outcome => respond sessionBody outcome
  | .call _ _ outcome => respond answerBody outcome

/-- A login for a request. -/
def serveLogin (m : Moment) (r : Request) (s : Server) : Outcome × Server :=
  match readBody LoginRequest.shape r with
  | .error e => (.plain e.response, s)
  | .ok request =>
    match request.validate with
    | .error e => (.plain (Refusal.service (.request e)).response, s)
    | .ok () => (.login request ((login m request).run s).1, ((login m request).run s).2)

/-- A call for a request of a caller who has been let in. -/
def serveCall (m : Moment) (c : Caller) (resource : Resource) (method : Method) (r : Request)
    (s : Server) : Outcome × Server :=
  match callOf r resource method with
  | none => (.plain notAllowed, s)
  | some (.error e) => (.plain e.response, s)
  | some (.ok call) => (.call c call ((call.perform m c).run s).1, ((call.perform m c).run s).2)

/-- What is done for a request. -/
def serve (m : Moment) (r : Request) (s : Server) : Outcome × Server :=
  match Resource.ofPath r.path with
  | none => (.plain notFound, s)
  | some .login => if r.method = .post then serveLogin m r s else (.plain notAllowed, s)
  | some .health =>
    if r.method.served = .get then (.plain ⟨200, healthBody⟩, s) else (.plain notAllowed, s)
  | some resource =>
    match (Service.authenticate m r.credentials).run s with
    | (.error e, s) => (.plain (Refusal.service e).response, s)
    | (.ok c, s) => serveCall m c resource r.method.served r s

section Handle

variable (m : Moment) (r : Request) (s : Server)

theorem handleLogin_eq :
    handleLogin m r s = ((serveLogin m r s).1.response, (serveLogin m r s).2) := by
  unfold handleLogin serveLogin
  rcases readBody LoginRequest.shape r with e | request
  · rfl
  · simp only
    rcases request.validate with e | _
    · rfl
    · rfl

theorem handleCall_eq (c : Caller) (resource : Resource) (method : Method) :
    handleCall m c resource method r s =
      ((serveCall m c resource method r s).1.response, (serveCall m c resource method r s).2) := by
  unfold handleCall serveCall
  rcases callOf r resource method with _ | e | call
  · rfl
  · rfl
  · rfl

theorem handleFull_eq : handleFull m r s = ((serve m r s).1.response, (serve m r s).2) := by
  unfold handleFull serve
  rcases Resource.ofPath r.path with _ | resource
  · rfl
  cases resource with
  | login =>
    simp only
    split
    · exact handleLogin_eq m r s
    · rfl
  | health =>
    simp only
    split
    · rfl
    · rfl
  | _ =>
    simp only
    rcases (Service.authenticate m r.credentials).run s with ⟨e | c, s'⟩
    · rfl
    · exact handleCall_eq m r s' c _ _

/-- **A request is answered with what was done for it**, but for the body where only the head of the
response was asked for. -/
theorem handle_eq_serve : handle m r s =
    (if r.method = .head then (serve m r s).1.response.withoutBody else (serve m r s).1.response,
      (serve m r s).2) := by
  unfold handle
  rw [handleFull_eq]

end Handle

/-! ### The ways of a request -/

/-- The call that a request is for, if it is for one. -/
def Request.call? (r : Request) : Option Call :=
  match Resource.ofPath r.path with
  | none => none
  | some resource =>
    match callOf r resource r.method.served with
    | some (.ok call) => some call
    | _ => none

theorem serveCall_cases (m : Moment) (c : Caller) (resource : Resource) (method : Method)
    (r : Request) (s : Server) :
    (∃ response, serveCall m c resource method r s = (.plain response, s)) ∨
    ∃ call, callOf r resource method = some (.ok call) ∧
      serveCall m c resource method r s =
        (.call c call ((call.perform m c).run s).1, ((call.perform m c).run s).2) := by
  unfold serveCall
  rcases callOf r resource method with _ | e | call
  · exact .inl ⟨_, rfl⟩
  · exact .inl ⟨_, rfl⟩
  · exact .inr ⟨call, rfl, rfl⟩

/-- **The ways of a request.** It gets a response at once; or it is a login; or the caller is looked
at, and then it gets a response or is a call of the caller. -/
theorem serve_cases (m : Moment) (r : Request) (s : Server) :
    (∃ response, serve m r s = (.plain response, s)) ∨
    (∃ request, serve m r s =
      (.login request ((login m request).run s).1, ((login m request).run s).2)) ∨
    (∃ response, serve m r s =
      (.plain response, ((Service.authenticate m r.credentials).run s).2)) ∨
    ∃ c call s', (Service.authenticate m r.credentials).run s = (.ok c, s') ∧
      r.call? = some call ∧
      serve m r s =
        (.call c call ((call.perform m c).run s').1, ((call.perform m c).run s').2) := by
  unfold serve Request.call?
  rcases Resource.ofPath r.path with _ | resource
  · exact .inl ⟨_, rfl⟩
  cases resource with
  | login =>
    simp only
    split
    · unfold serveLogin
      split
      · exact .inl ⟨_, rfl⟩
      · split
        · exact .inl ⟨_, rfl⟩
        · exact .inr (.inl ⟨_, rfl⟩)
    · exact .inl ⟨_, rfl⟩
  | health =>
    simp only
    split
    · exact .inl ⟨_, rfl⟩
    · exact .inl ⟨_, rfl⟩
  | _ =>
    simp only
    rcases (Service.authenticate m r.credentials).run s with ⟨e | c, s'⟩
    · exact .inr (.inr (.inl ⟨_, rfl⟩))
    · rcases serveCall_cases m c _ r.method.served r s' with ⟨_, h⟩ | ⟨call, hc, h⟩
      · exact .inr (.inr (.inl ⟨_, h⟩))
      · exact .inr (.inr (.inr ⟨c, call, s', rfl, by simp only [hc], h⟩))

/-! ### What a request touches -/

section Touch

variable (m : Moment) (r : Request) (s : Server)

/-- **The store after a request** is that before it, or what a call of a caller makes of it. -/
theorem store_serve : (serve m r s).2.store =
    match (serve m r s).1 with
    | .call c call _ => call.effect m c s.store
    | _ => s.store := by
  have hauth : ((Service.authenticate m r.credentials).run s).2.store = s.store :=
    Service.keeps_authenticate apart_store m r.credentials s
  rcases serve_cases m r s with ⟨_, h⟩ | ⟨request, h⟩ | ⟨_, h⟩ | ⟨c, call, s', ha, -, h⟩
  · rw [h]
  · rw [h]
    exact keeps_login apart_store.steady m request s
  · rw [h]
    exact hauth
  · rw [ha] at hauth
    have hauth : s'.store = s.store := hauth
    rw [h, ← hauth]
    exact call.store_perform m c s'

/-- What neither the store nor the registry nor the counters belong to stays as it is. -/
theorem fixed_serve {γ : Type} {π : Server → γ} (hπ : Fixed π) : π (serve m r s).2 = π s := by
  have hauth : π ((Service.authenticate m r.credentials).run s).2 = π s :=
    Service.keeps_authenticate hπ.toApart m r.credentials s
  rcases serve_cases m r s with ⟨_, h⟩ | ⟨request, h⟩ | ⟨_, h⟩ | ⟨c, call, s', ha, -, h⟩
  · rw [h]
  · rw [h]
    exact keeps_login hπ.toApart.steady m request s
  · rw [h]
    exact hauth
  · rw [ha] at hauth
    rw [h]
    exact (Call.keeps_perform hπ.aside m c (fun change request _ =>
      Call.keeps_changeShare hπ m c change request) s').trans hauth

/-- The parts of the registry's table that are written for a request. A look at a header can take a
session away. -/
def Outcome.writes : Outcome → List Registry.Part
  | .plain _ => [.sessions]
  | .login _ _ => [.failures, .sessions]
  | .call _ c _ => .sessions :: c.writes

/-- **What the registry is told for a request**, whether it fails or not. -/
theorem told_serve :
    Registry.Link.Told (serve m r s).1.writes s.registry (serve m r s).2.registry := by
  have hauth := Service.asks_authenticate m r.credentials s
  rcases serve_cases m r s with ⟨_, h⟩ | ⟨request, h⟩ | ⟨_, h⟩ | ⟨c, call, s', ha, -, h⟩
  · rw [h]
    exact .nothing _
  · rw [h]
    exact asks_login m request s
  · rw [h]
    exact hauth
  · rw [ha] at hauth
    rw [h]
    exact (hauth.mono (by simp [Outcome.writes])).trans
      ((Call.asks_perform m c call s').mono (List.subset_cons_self _ _))

end Touch

/-! ### Runs -/

/-- A request with what the world adds to it. -/
structure Visit where
  moment : Moment
  request : Request

/-- The server after some requests. -/
def run (s : Server) (visits : List Visit) : Server :=
  visits.foldl (fun s v => (handle v.moment v.request s).2) s

/-- A request, the server that it came to, and what was done for it. -/
structure Exchange where
  before : Server
  visit : Visit
  outcome : Outcome

/-- The exchange that a request to a server is. -/
def exchange (s : Server) (v : Visit) : Exchange := ⟨s, v, (serve v.moment v.request s).1⟩

theorem outcome_exchange (s : Server) (v : Visit) :
    (exchange s v).outcome = (serve v.moment v.request s).1 := by
  simp only [exchange]

/-- What was done for each of some requests. -/
def transcript (s : Server) : List Visit → List Exchange
  | [] => []
  | v :: vs => exchange s v :: transcript (handle v.moment v.request s).2 vs

section Run

variable (s : Server) (visits : List Visit) (v : Visit)

theorem handle_snd (m : Moment) (r : Request) : (handle m r s).2 = (serve m r s).2 := by
  rw [handle_eq_serve]

theorem run_cons : run s (v :: visits) = run (handle v.moment v.request s).2 visits := by
  unfold run
  rw [List.foldl_cons]

theorem run_append (ws : List Visit) : run s (visits ++ ws) = run (run s visits) ws :=
  List.foldl_append

theorem run_concat :
    run s (visits ++ [v]) = (serve v.moment v.request (run s visits)).2 := by
  rw [run_append]
  exact handle_snd _ _ _

theorem transcript_cons : transcript s (v :: visits) =
    exchange s v :: transcript (handle v.moment v.request s).2 visits := rfl

theorem transcript_append (ws : List Visit) :
    transcript s (visits ++ ws) = transcript s visits ++ transcript (run s visits) ws := by
  induction visits generalizing s with
  | nil => rfl
  | cons w vs ih =>
    rw [List.cons_append, run_cons, transcript_cons, transcript_cons, ih, List.cons_append]

theorem transcript_concat :
    transcript s (visits ++ [v]) = transcript s visits ++ [exchange (run s visits) v] :=
  transcript_append s visits [v]

theorem map_visit_transcript : (transcript s visits).map Exchange.visit = visits := by
  induction visits generalizing s with
  | nil => rfl
  | cons w ws ih =>
    rw [transcript_cons, List.map_cons, ih]
    rfl

/-- What neither the store nor the registry nor the counters belong to stays as it is. -/
theorem fixed_run {γ : Type} {π : Server → γ} (hπ : Fixed π) : π (run s visits) = π s := by
  induction visits using List.reverseRecOn with
  | nil => rfl
  | append_singleton vs v ih => rw [run_concat, fixed_serve _ _ _ hπ, ih]

theorem window_run : (run s visits).registry.table.window = s.registry.table.window := by
  induction visits using List.reverseRecOn with
  | nil => rfl
  | append_singleton vs v ih => rw [run_concat, (told_serve _ _ _).window, ih]

theorem gate_run : (run s visits).gate = s.gate := fixed_run s visits fixed_gate

variable {s visits}

/-- A registry that answers goes on to answer. -/
theorem responsive_run (hr : s.registry.isResponsive = true) (visits : List Visit) :
    (run s visits).registry.isResponsive = true := by
  induction visits using List.reverseRecOn with
  | nil => exact hr
  | append_singleton vs v ih =>
    rw [run_concat]
    exact (told_serve _ _ _).isResponsive ih

/-- **A place in a transcript** is a place among the requests. -/
theorem eq_append_of_transcript {pre post : List Exchange} {x : Exchange}
    (h : transcript s visits = pre ++ x :: post) :
    ∃ before w after, visits = before ++ w :: after ∧ pre = transcript s before ∧
      x = exchange (run s before) w ∧ post = transcript (run s (before ++ [w])) after := by
  induction pre generalizing s visits with
  | nil =>
    cases visits with
    | nil => cases h
    | cons w ws =>
      obtain ⟨hy, h⟩ := List.cons.inj h
      exact ⟨[], w, ws, rfl, rfl, hy.symm, h.symm⟩
  | cons y pre ih =>
    cases visits with
    | nil => cases h
    | cons w ws =>
      obtain ⟨hy, h⟩ := List.cons.inj h
      obtain ⟨before, w', after, hws, hpre, hx, hpost⟩ := ih h
      refine ⟨w :: before, w', after, congrArg (w :: ·) hws, ?_, ?_, ?_⟩
      · rw [← hy, hpre]
        rfl
      · rw [run_cons]
        exact hx
      · rw [List.cons_append, run_cons]
        exact hpost

end Run

end SealedGraph.Http
