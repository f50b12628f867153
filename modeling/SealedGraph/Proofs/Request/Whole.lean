import SealedGraph.Http.Handler
import SealedGraph.Proofs.Reference

/-!
# Requests are bound as a whole

A request that names nodes and users by tokens is bound to what all of them refer to, or to nothing.
If it is not bound, then either something is wrong with it that the caller can be told, or it is
forbidden, whichever token it was that is no good.

* `BoundBy`: the three ways of a request, of which each excludes the others; `BoundBy.bind` and its
  like follow a request from one check to the next.
* `QueryRequest.Means` and its like: what a request can be trusted to mean, if all that it names is
  such as the caller may use for it.
* `EdgesRequest.Malformed` and its like, `ShareRequest.Hides`: what can be wrong with it.
* `references_bind_exact`: how queries, changes of links, shares and creations are bound.
-/

namespace SealedGraph

/-! ### The ways of a request -/

/-- The refusal forbids, and says no more. -/
def RequestError.Forbids (e : RequestError) : Prop :=
  (ServiceError.request e).statusAndText = (403, "forbidden")

theorem RequestError.forbids_iff {e : RequestError} : e.Forbids ↔ ∀ flaw, e ≠ .invalid flaw := by
  unfold Forbids
  cases e with
  | denied d => simp [ServiceError.statusAndText, AccessError.reason]
  | adminOnly => simp [ServiceError.statusAndText, AccessError.reason]
  | invalid flaw => simp [ServiceError.statusAndText]

/-- **The ways of a request.** It is refused for what is wrong with it; or it is bound to what it can
be trusted to mean; or it is forbidden, if there is nothing that it can be trusted to mean. -/
structure BoundBy {β : Type} (outcome : Except RequestError β) (flawed : Prop)
    (trusted : β → Prop) : Prop where
  invalid : (∃ flaw, outcome = .error (.invalid flaw)) ↔ flawed
  bound : ∀ b, outcome = .ok b ↔ ¬ flawed ∧ trusted b
  forbidden : (∃ e, outcome = .error e ∧ e.Forbids) ↔ ¬ flawed ∧ ¬ ∃ b, trusted b

namespace BoundBy

variable {α β : Type} {flawed flawed' : Prop} {trusted trusted' : β → Prop}

theorem congr {outcome : Except RequestError β} (h : BoundBy outcome flawed trusted)
    (hf : flawed ↔ flawed') (ht : ¬ flawed' → ∀ b, trusted b ↔ trusted' b) :
    BoundBy outcome flawed' trusted' where
  invalid := h.invalid.trans hf
  bound b := by
    rw [h.bound, hf]
    exact and_congr_right fun hno => ht hno b
  forbidden := by
    rw [h.forbidden, hf]
    exact and_congr_right fun hno => not_congr (exists_congr (ht hno))

theorem pure (b : β) : BoundBy (.ok b) False (· = b) where
  invalid := by simp
  bound b' := by simp [eq_comm]
  forbidden := by simp

theorem refused {e : RequestError} (h : e.Forbids) : BoundBy (.error e : Except RequestError β) False
    fun _ => False where
  invalid := by simpa using RequestError.forbids_iff.1 h
  bound b' := by simp
  forbidden := by simpa using h

/-- **A condition on a request** is looked at before the rest of it. -/
theorem demand_bind {condition : Bool} {flaw : Flaw} {x : Except RequestError β}
    (h : BoundBy x flawed trusted) :
    BoundBy (demand condition flaw >>= fun _ => x) (condition = false ∨ flawed) trusted := by
  cases condition with
  | true => exact h.congr (by simp) fun _ _ => Iff.rfl
  | false =>
    have hno : ¬ (RequestError.invalid flaw).Forbids := by simp [RequestError.forbids_iff]
    show BoundBy (.error (.invalid flaw)) _ _
    exact ⟨by simp, by simp, by simp [hno]⟩

/-- A look at references. -/
theorem resolved {x : Except Denial α} {good : α → Prop} (h : ∀ a, x = .ok a ↔ good a) :
    BoundBy (resolved x) False good := by
  cases x with
  | ok a => exact (pure a).congr Iff.rfl fun _ a' => by rw [← h]; simp [eq_comm]
  | error d =>
    have hd : (RequestError.denied d).Forbids := RequestError.forbids_iff.2 (by simp)
    exact (refused hd).congr Iff.rfl fun _ a => by rw [← h]; simp

/-- **One check after the other.** What is wrong with a request is found by the first check, or by
the second one after the first found nothing. -/
theorem bind {x : Except RequestError α} {f : α → Except RequestError β} {good : α → Prop}
    {flawedAt : α → Prop} {trustedAt : α → β → Prop} (hx : BoundBy x flawed good)
    (hf : ∀ a, good a → BoundBy (f a) (flawedAt a) (trustedAt a)) :
    BoundBy (x >>= f) (flawed ∨ ∃ a, good a ∧ flawedAt a) fun b => ∃ a, good a ∧ trustedAt a b := by
  obtain ⟨hinvalid, hbound, hforbidden⟩ := hx
  cases x with
  | ok a =>
    have hflawed : ¬ flawed := by simp [← hinvalid]
    have hgood : ∀ a', a = a' ↔ good a' := by simpa [hflawed] using hbound
    refine (hf a ((hgood a).1 rfl)).congr ?_ fun _ b => ?_
    · simp [hflawed, ← hgood]
    · simp [← hgood]
  | error e =>
    show BoundBy (.error e) _ _
    by_cases h : e.Forbids
    · have hflawed : ¬ flawed := by simpa [← hinvalid] using RequestError.forbids_iff.1 h
      have hgood : ∀ a, ¬ good a := by simpa [hflawed] using hbound
      refine (refused h).congr ?_ fun _ b => ?_
      · simp [hflawed, hgood]
      · simp [hgood]
    · have hflawed : flawed := by
        rw [← hinvalid]
        rw [RequestError.forbids_iff] at h
        simpa using h
      have hflaw := hinvalid.2 hflawed
      exact ⟨by simpa [hflawed] using hflaw, by simp [hflawed], by simp [hflawed, h]⟩

end BoundBy

/-! ### References -/

section References

variable {c : Caller}

theorem boundBy_nodeReferences (c : Caller) (letters : String) (tokens : List String) :
    BoundBy (resolved (c.nodeReferences letters tokens)) False fun uids =>
      ∃ ds, List.Forall₂ (c.RefersTo letters) tokens ds ∧ uids = ds.map NodeDescriptor.uid :=
  .resolved fun _ => Caller.nodeReferences_eq_ok_iff

namespace ShareRequest

/-- The first of some recipients with whom the caller cannot share is an administrator, of whom the
caller may not know. -/
def Hides (c : Caller) (users : List String) : Prop :=
  ∃ before token after, users = before ++ token :: after ∧
    (∀ t ∈ before, ∃ u, c.RefersToUser t u ∧ u.role ≠ adminRole) ∧
    ∃ u, c.RefersToUser token u ∧ u.role = adminRole

theorem hides_cons {token : String} {tokens : List String} :
    Hides c (token :: tokens) ↔
      ∃ u, c.RefersToUser token u ∧ (u.role = adminRole ∨ Hides c tokens) := by
  constructor
  · rintro ⟨before, token', after, e, hbefore, u, hu, hrole⟩
    cases before with
    | nil =>
      cases e
      exact ⟨u, hu, .inl hrole⟩
    | cons t ts =>
      cases e
      obtain ⟨u', hu', -⟩ := hbefore token List.mem_cons_self
      refine ⟨u', hu', .inr ⟨ts, token', after, rfl, fun t ht => ?_, u, hu, hrole⟩⟩
      exact hbefore t (List.mem_cons_of_mem _ ht)
  · rintro ⟨u, hu, h⟩
    by_cases hrole : u.role = adminRole
    · exact ⟨[], token, tokens, rfl, by simp, u, hu, hrole⟩
    · obtain ⟨before, token', after, rfl, hbefore, hlast⟩ := h.resolve_left hrole
      exact ⟨token :: before, token', after, rfl,
        List.forall_mem_cons.2 ⟨⟨u, hu, hrole⟩, hbefore⟩, hlast⟩

theorem boundBy_recipients (c : Caller) (tokens : List String) :
    BoundBy (recipients c tokens) (Hides c tokens) fun uids =>
      ∃ us, List.Forall₂ c.RefersToUser tokens us ∧ (∀ u ∈ us, u.role ≠ adminRole) ∧
        uids = us.map UserDescriptor.uid := by
  induction tokens with
  | nil =>
    refine (BoundBy.pure []).congr ?_ fun hno uids => ?_
    · simp [Hides]
    · simp
  | cons token tokens ih =>
    refine ((BoundBy.resolved fun _ => Caller.userReference_eq_ok_iff).bind fun u _ =>
      .demand_bind (ih.bind fun uids _ => .pure _)).congr ?_ fun hno uids => ?_
    · rw [hides_cons]
      simp
    · rw [hides_cons] at hno
      constructor
      · rintro ⟨u, hu, _, ⟨us, hus, hroles, rfl⟩, rfl⟩
        have hrole : u.role ≠ adminRole := fun hrole => hno ⟨u, hu, .inl hrole⟩
        exact ⟨u :: us, .cons hu hus, List.forall_mem_cons.2 ⟨hrole, hroles⟩, rfl⟩
      · rintro ⟨_, hus, hroles, rfl⟩
        obtain ⟨u, us, hu, htail, rfl⟩ := List.forall₂_cons_left_iff.1 hus
        exact ⟨u, hu, _, ⟨us, htail, (List.forall_mem_cons.1 hroles).2, rfl⟩, rfl⟩

end ShareRequest

end References

/-! ### Queries -/

/-- What a query can be trusted to mean: it has the uids of nodes that the caller may read, and only
an administrator asks in the store's own language. -/
def QueryRequest.Means (r : QueryRequest) (c : Caller) (b : QueryRequest) : Prop :=
  (r.rootQuery ≠ none → c.role = adminRole) ∧
    ∃ roots, List.Forall₂ (c.RefersTo "r") r.roots roots ∧
      b = ⟨roots.map NodeDescriptor.uid, r.rootQuery, r.depth⟩

theorem QueryRequest.boundBy (r : QueryRequest) (c : Caller) :
    BoundBy (r.bind c) False (r.Means c) := by
  have hadmin : (r.rootQuery.isSome && !c.isAdmin) = true ↔
      ¬ (r.rootQuery ≠ none → c.role = adminRole) := by
    simp [Caller.isAdmin, Option.isSome_iff_ne_none]
  unfold QueryRequest.bind Means
  split
  · rename_i h
    refine (BoundBy.refused (e := .adminOnly) rfl).congr Iff.rfl fun _ b => ?_
    simp only [hadmin.1 h, false_and]
  · rename_i h
    rw [hadmin, not_not] at h
    refine ((boundBy_nodeReferences c _ _).bind fun uids _ => .pure _).congr ?_ fun _ b => ?_
    · simp
    · simp only [and_iff_right h]
      simp

/-! ### Links -/

namespace EdgesRequest

/-- There are no subjects, or nothing to link them with. -/
def Malformed (r : EdgesRequest) : Prop :=
  r.subjects = [] ∨ (r.incoming = [] ∧ r.outgoing = [])

/-- What a request about links can be trusted to mean: incoming nodes may be linked from, outgoing
ones may be linked, and the subjects both, as far as there are nodes of the other kind. -/
def Means (r : EdgesRequest) (c : Caller) (b : EdgesRequest) : Prop :=
  ∃ subjects incoming outgoing,
    List.Forall₂
      (c.RefersTo ((if r.incoming = [] then "" else "i") ++ (if r.outgoing = [] then "" else "o")))
      r.subjects subjects ∧
    List.Forall₂ (c.RefersTo "o") r.incoming incoming ∧
    List.Forall₂ (c.RefersTo "i") r.outgoing outgoing ∧
    b = ⟨subjects.map NodeDescriptor.uid, incoming.map NodeDescriptor.uid,
      outgoing.map NodeDescriptor.uid⟩

theorem boundBy (r : EdgesRequest) (c : Caller) : BoundBy (r.bind c) r.Malformed (r.Means c) := by
  have hletters : r.subjectLetters = (if r.incoming = [] then "" else "i") ++
      (if r.outgoing = [] then "" else "o") := by
    simp [subjectLetters]
  unfold EdgesRequest.bind Malformed Means
  refine (BoundBy.demand_bind <| .demand_bind <|
    (boundBy_nodeReferences c _ _).bind fun subjects _ =>
    (boundBy_nodeReferences c _ _).bind fun incoming _ =>
    (boundBy_nodeReferences c _ _).bind fun outgoing _ => .pure _).congr ?_ fun _ b => ?_
  · simp
  · rw [hletters]
    simp

end EdgesRequest

/-! ### Shares -/

namespace ShareRequest

/-- There are no nodes to share, or no users to share them with. -/
def Malformed (r : ShareRequest) : Prop := r.nodes = [] ∨ r.users = []

/-- All is well with a share but that the caller may not know of a recipient. -/
def HidesRecipient (r : ShareRequest) (c : Caller) : Prop :=
  (∃ nodes, List.Forall₂ (c.RefersTo "s") r.nodes nodes) ∧ Hides c r.users

/-- What a share can be trusted to mean: the nodes may be shared, and no recipient is an
administrator. -/
def Means (r : ShareRequest) (c : Caller) (b : ShareRequest) : Prop :=
  ∃ nodes users,
    List.Forall₂ (c.RefersTo "s") r.nodes nodes ∧
    List.Forall₂ c.RefersToUser r.users users ∧ (∀ u ∈ users, u.role ≠ adminRole) ∧
    b = ⟨nodes.map NodeDescriptor.uid, users.map UserDescriptor.uid⟩

theorem boundBy (r : ShareRequest) (c : Caller) :
    BoundBy (r.bind c) (r.Malformed ∨ r.HidesRecipient c) (r.Means c) := by
  have hform : (!(r.nodes.isEmpty || r.users.isEmpty)) = false ↔ r.Malformed := by
    rw [Bool.not_eq_false', Bool.or_eq_true, List.isEmpty_iff, List.isEmpty_iff, Malformed]
  unfold ShareRequest.bind HidesRecipient Means
  refine (BoundBy.demand_bind <| (boundBy_nodeReferences c _ _).bind fun nodes _ =>
    (boundBy_recipients c _).bind fun users _ => .pure _).congr ?_ fun _ b => ?_
  · rw [hform]
    simp
  · simp [and_assoc]

end ShareRequest

/-! ### New nodes -/

/-- The form of a new node: it and what it links to are placeholders, and it does not link to
itself. -/
def Node.IsDraft (n : Node) : Prop :=
  isPlaceholder n.uid = true ∧ ∀ k ∈ n.children, isPlaceholder k.uid = true ∧ k.uid ≠ n.uid

namespace CreateRequest

/-- There are no new nodes, or one that does not have the form of one. -/
def Malformed (r : CreateRequest) : Prop := r.nodes = [] ∨ ¬ ∀ n ∈ r.nodes, n.IsDraft

/-- What a creation can be trusted to mean: the parent may be linked from, and of the new nodes there
is left what the caller may decide. -/
def Means (r : CreateRequest) (c : Caller) (b : CreateRequest) : Prop :=
  ∃ parent, c.RefersTo "o" r.parent parent ∧ b = ⟨parent.uid, r.nodes.map Node.asNew⟩

theorem boundBy_checkChildren (uid : String) (children : List Node) :
    BoundBy (checkChildren uid children)
      (¬ ∀ k ∈ children, isPlaceholder k.uid = true ∧ k.uid ≠ uid) fun _ => True := by
  induction children with
  | nil => exact (BoundBy.pure ()).congr (by simp) (by simp)
  | cons k ks ih =>
    refine (BoundBy.demand_bind <| .demand_bind ih).congr ?_ fun _ _ => Iff.rfl
    rw [List.forall_mem_cons, not_and_or, not_and_or, or_assoc]
    simp

theorem boundBy_checkNodes (nodes : List Node) :
    BoundBy (checkNodes nodes) (¬ ∀ n ∈ nodes, n.IsDraft) fun _ => True := by
  induction nodes with
  | nil => exact (BoundBy.pure ()).congr (by simp) (by simp)
  | cons n ns ih =>
    refine (BoundBy.demand_bind <| (boundBy_checkChildren _ _).bind fun _ _ => ih).congr ?_ (by simp)
    rw [List.forall_mem_cons, not_and_or, Node.IsDraft, not_and_or, or_assoc]
    simp

theorem boundBy (r : CreateRequest) (c : Caller) : BoundBy (r.bind c) r.Malformed (r.Means c) := by
  unfold CreateRequest.bind Malformed Means
  refine (BoundBy.demand_bind <| (boundBy_checkNodes _).bind fun _ _ =>
    (BoundBy.resolved fun _ => Caller.nodeReference_eq_ok_iff).bind fun parent _ =>
    .pure _).congr ?_ fun _ b => ?_
  · simp
  · simp

end CreateRequest

/-- **References are bound exactly, and as a whole.** For every caller and whatever the tokens are, a
request is refused for what is wrong with it; or it is bound, to the uids of what its tokens refer
to, in order, if each of them refers to something that the caller may use for the request; or else it
is forbidden. What can be wrong is the form of the request, and of a share also that a recipient is
an administrator, unless a token before this one is no good. -/
theorem references_bind_exact (c : Caller) :
    (∀ r : QueryRequest, BoundBy (r.bind c) False (r.Means c)) ∧
    (∀ r : EdgesRequest, BoundBy (r.bind c) r.Malformed (r.Means c)) ∧
    (∀ r : ShareRequest, BoundBy (r.bind c) (r.Malformed ∨ r.HidesRecipient c) (r.Means c)) ∧
    (∀ r : CreateRequest, BoundBy (r.bind c) r.Malformed (r.Means c)) :=
  ⟨fun r => r.boundBy c, fun r => r.boundBy c, fun r => r.boundBy c, fun r => r.boundBy c⟩

end SealedGraph
