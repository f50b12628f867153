import SealedGraph.Proofs.Resharing

/-!
# What is left of a share that is refused

Much of a share is looked at before anything is done: the tokens in it, what they permit, and
whether all the nodes are there. But whether a user is there comes up only when it is the user's
turn, and what was done for the users before stays done. So a share that is refused changes the lists
of these users, unless what it asks for was so already.

* `Store.sharedWith_share_eq_iff`: which shares leave the lists as they are.
* `refused_share`: what is left of requests that are answered with a refusal.
* `refused_share_trace`: a request of which something is left.
-/

namespace SealedGraph

/-- **Which shares leave the lists of shared nodes as they are**, whether they are refused or not:
those that ask of the users who are reached only what is so already. -/
theorem Store.sharedWith_share_eq_iff (change : ShareChange) (nodes users : List String)
    (s : Store) :
    (∀ uid, (s.share change nodes users).2.sharedWith uid = s.sharedWith uid) ↔
      ∀ uid ∈ s.reached nodes users, ∀ n ∈ nodes, (n ∈ s.sharedWith uid ↔ change = .add) := by
  constructor
  · intro h uid hu
    have hsame := h uid
    rw [sharedWith_share, if_pos hu] at hsame
    exact ShareChange.apply_eq_self_iff.1 hsame
  · intro h uid
    rw [sharedWith_share]
    split
    · rename_i hu
      exact ShareChange.apply_eq_self_iff.2 (h uid hu)
    · rfl

namespace Http

open Attempt

/-! ### Answers -/

section Status

variable {s : Server} {v : Visit} {change : ShareChange} {c : Caller} {r : ShareRequest}

theorem status_handle (s : Server) (v : Visit) :
    (handle v.moment v.request s).1.status = (exchange s v).outcome.response.status := by
  rw [handle_eq_serve, outcome_exchange]
  generalize (serve v.moment v.request s).1.response = response
  simp only
  split
  · rfl
  · rfl

theorem status_of_shares (h : (exchange s v).Shares change c r) :
    (handle v.moment v.request s).1.status = 200 := by
  obtain ⟨call, request, a, ho, -⟩ := h.outcome
  rw [status_handle, ho]
  rfl

theorem status_of_cutShort (h : (exchange s v).CutShort) :
    (handle v.moment v.request s).1.status = 500 := by
  obtain ⟨c, call, e, ho, -⟩ := h
  rw [status_handle, ho]
  rfl

end Status

/-- On the path for it, every call shares nodes or ends that. -/
theorem sharing?_of_call? {r : Request} {call : Call} (hpath : Resource.ofPath r.path = some .share)
    (h : r.call? = some call) : call.sharing? ≠ none := by
  unfold Request.call? at h
  rw [hpath] at h
  simp only at h
  have hmap : ∀ make : ShareRequest → Call, (∀ request, (make request).sharing? ≠ none) →
      make <$> readBody ShareRequest.shape r = .ok call → call.sharing? ≠ none := by
    intro make hmake hread
    rcases hbody : readBody ShareRequest.shape r with e | request
    · rw [hbody] at hread
      cases hread
    · rw [hbody] at hread
      cases hread
      exact hmake request
  split at h
  · rename_i call' hc
    cases h
    generalize r.method.served = method at hc
    cases method with
    | put => exact hmap .share (by simp [Call.sharing?]) (Option.some.inj hc)
    | delete => exact hmap .unshare (by simp [Call.sharing?]) (Option.some.inj hc)
    | _ => cases hc
  · cases h

section Refused

variable {s : Server} {v : Visit}

/-- **A share that does not succeed** leaves the lists as they are if and only if what it asks of the
store does, if it comes to the store. -/
theorem sharedWith_eq_iff_of_failsToShare (h : (exchange s v).FailsToShare) :
    (∀ uid, (serve v.moment v.request s).2.store.sharedWith uid = s.store.sharedWith uid) ↔
      ∀ change c r, (exchange s v).sharing? = some (change, c, r) →
        ∀ uid ∈ s.store.reached r.nodes r.users, ∀ n ∈ r.nodes,
          (n ∈ s.store.sharedWith uid ↔ change = .add) := by
  obtain ⟨c, call, e, ho, hc⟩ := h
  cases hx : (exchange s v).sharing? with
  | none =>
    rw [store_of_sharing?_eq_none hx ho hc]
    simp
  | some x =>
    obtain ⟨change, c', r⟩ := x
    rw [store_of_sharing? hx, Store.sharedWith_share_eq_iff]
    constructor
    · intro hlists change' c'' r' hx'
      cases hx'
      exact hlists
    · intro hlists
      exact hlists change c' r rfl

/-- **A request that comes to no call** asks nothing of what is shared and leaves the store alone. -/
theorem store_of_no_call (hno : ∀ c call o, (exchange s v).outcome ≠ .call c call o) :
    (serve v.moment v.request s).2.store = s.store ∧ (exchange s v).sharing? = none := by
  constructor
  · rw [store_serve]
    split
    · rename_i c call o ho
      rw [← outcome_exchange] at ho
      exact absurd ho (hno c call o)
    · rfl
  · unfold Exchange.sharing?
    split
    · rename_i c call o ho
      exact absurd ho (hno c call o)
    · rfl

end Refused

/-- **What is left of a share that is refused.** A share leaves the lists of shared nodes as they
are if and only if all it asks for, of the users before the first who is not there, is so already;
if a node is not there it does so anyway. A request on the path for shares that is answered with one
of the refusals opens and closes no group, and leaves the lists as they are if and only if the share
that it asks for, if it comes to one, does so. -/
theorem refused_share (s : Server) :
    (∀ change nodes users,
      (∀ uid, (s.store.share change nodes users).2.sharedWith uid = s.store.sharedWith uid) ↔
        ∀ uid ∈ s.store.reached nodes users, ∀ n ∈ nodes,
          (n ∈ s.store.sharedWith uid ↔ change = .add)) ∧
    ∀ v : Visit, Resource.ofPath v.request.path = some .share →
      (handle v.moment v.request s).1.status ∈ [400, 403, 404] →
      (handle v.moment v.request s).2.groups = s.groups ∧
      ((∀ uid, (handle v.moment v.request s).2.store.sharedWith uid = s.store.sharedWith uid) ↔
        ∀ change c r, (exchange s v).sharing? = some (change, c, r) →
          ∀ uid ∈ s.store.reached r.nodes r.users, ∀ n ∈ r.nodes,
            (n ∈ s.store.sharedWith uid ↔ change = .add)) := by
  refine ⟨fun change nodes users => s.store.sharedWith_share_eq_iff change nodes users,
    fun v hpath hstatus => ?_⟩
  rw [handle_snd]
  rcases exchange_shares_cases s v with ⟨change, c, r, h⟩ | h | h
  · rw [status_of_shares h] at hstatus
    simp at hstatus
  · have hcut : ¬ (exchange s v).CutShort := by
      intro hcut
      rw [status_of_cutShort hcut] at hstatus
      simp at hstatus
    exact ⟨groups_of_failsToShare h hcut, sharedWith_eq_iff_of_failsToShare h⟩
  · -- Every call on this path shares something, so there is no call at all.
    have hno : ∀ c call o, (exchange s v).outcome ≠ .call c call o := by
      intro c call o ho
      obtain ⟨s', -, hcall, -⟩ := of_exchange_call ho
      exact sharing?_of_call? hpath hcall (h c call o ho)
    obtain ⟨hstore, hask⟩ := store_of_no_call hno
    refine ⟨groups_serve h, ?_⟩
    rw [hstore, hask]
    simp

/-! ### A node in the place of a user -/

namespace Circle

/-- The first user shares the first node with the second user and, by mistake, with this node. -/
def misdirect : Visit := sharing bearerAnn .put folderForAnn [bobForAnn, folderForAnn]

def misdirected : Server := server 6 nodes ["0x4"] ["0x4"] [] []

theorem serve_misdirect :
    (serve misdirect.moment misdirect.request withPages).2 = misdirected ∧
      (serve misdirect.moment misdirect.request withPages).1.response.status = 404 := by
  decide +kernel

theorem status_misdirect : (handle misdirect.moment misdirect.request withPages).1.status = 404 := by
  rw [status_handle, outcome_exchange]
  exact serve_misdirect.2

end Circle

/-- The share with the node in the place of a user is refused and opens no group. It asks for
something that is not so already. -/
theorem refused_share_misdirect :
    Resource.ofPath Circle.misdirect.request.path = some .share ∧
    (handle Circle.misdirect.moment Circle.misdirect.request Circle.withPages).1.status = 404 ∧
    (handle Circle.misdirect.moment Circle.misdirect.request Circle.withPages).2.groups =
      Circle.withPages.groups ∧
    ¬ ∀ change c r, (exchange Circle.withPages Circle.misdirect).sharing? = some (change, c, r) →
      ∀ uid ∈ Circle.withPages.store.reached r.nodes r.users, ∀ n ∈ r.nodes,
        (n ∈ Circle.withPages.store.sharedWith uid ↔ change = .add) := by
  have hpath : Resource.ofPath Circle.misdirect.request.path = some .share := by decide
  have hstatus := Circle.status_misdirect
  obtain ⟨hgroups, hlists⟩ := (refused_share Circle.withPages).2 Circle.misdirect hpath
    (by rw [hstatus]; decide)
  refine ⟨hpath, hstatus, hgroups, fun hall => ?_⟩
  have hsame := hlists.2 hall "0x2"
  rw [handle_snd, Circle.serve_misdirect.1] at hsame
  exact absurd hsame (by decide)

/-- **The user who was named first has the node on the list**, though the store refuses the share,
and though the request for it is answered with a refusal. -/
theorem refused_share_trace :
    (∃ e, (Circle.withPages.store.share .add ["0x4"] ["0x2", "0x9"]).1 = .error e) ∧
    (Circle.withPages.store.share .add ["0x4"] ["0x2", "0x9"]).2.sharedWith "0x2" = ["0x4"] ∧
    Circle.withPages.store.sharedWith "0x2" = [] ∧
    run Circle.start Circle.drafts = Circle.withPages ∧
    Resource.ofPath Circle.misdirect.request.path = some .share ∧
    (handle Circle.misdirect.moment Circle.misdirect.request Circle.withPages).1.status = 404 ∧
    (handle Circle.misdirect.moment Circle.misdirect.request
      Circle.withPages).2.store.sharedWith "0x2" = ["0x4"] := by
  refine ⟨⟨.noUser "0x9", rfl⟩, by decide, by decide, Circle.goes_drafts.run, by decide,
    Circle.status_misdirect, ?_⟩
  rw [handle_snd, Circle.serve_misdirect.1]
  decide

end Http

end SealedGraph
