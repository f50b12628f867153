import SealedGraph.Fresh
import SealedGraph.Proofs.Store.Accounts
import SealedGraph.Proofs.Store.Create
import SealedGraph.Proofs.Store.Share

/-!
# Stores that came out of an empty one

The operations that may change a store, as data, and the stores that any number of them lead to,
whether they are refused or not.

* `after_induction`: what one operation preserves holds of all these stores.
* `step_perform`: what one operation can do, in five cases.
* `sound_after`, `follows_after`: they hang together, nothing is taken back, and no uid is given out
  twice.
-/

namespace SealedGraph.Store

/-- An operation that may change a store, with the moment and the random bytes that it uses. -/
inductive Action
  | create (now : Timestamp) (millis : Nat) (random : List UInt8) (owner : String)
    (parent : Option String) (batch : List Node)
  | update (now : Timestamp) (nodes : List Node)
  | addEdges (now : Timestamp) (subjects incoming outgoing : List String)
  | removeEdges (now : Timestamp) (subjects incoming outgoing : List String)
  | share (change : ShareChange) (nodes users : List String)
  | createAccount (new : NewAccount)
  | updateAccounts (updates : List AccountUpdate)

/-- The store after an operation. -/
def Action.perform : Action → Store → Store
  | .create now millis random owner parent batch, s =>
    (s.create now (Fresh.groupId millis random) owner parent batch).2
  | .update now nodes, s => (s.update now nodes).2
  | .addEdges now subjects incoming outgoing, s => (s.addEdges now subjects incoming outgoing).2
  | .removeEdges now subjects incoming outgoing, s =>
    (s.removeEdges now subjects incoming outgoing).2
  | .share change nodes users, s => (s.share change nodes users).2
  | .createAccount new, s => (s.createAccount new).2
  | .updateAccounts updates, s => (s.updateAccounts updates).2

/-- The store after some operations on another one. -/
def performAll (actions : List Action) (s : Store) : Store :=
  actions.foldl (fun s action => action.perform s) s

/-- The store after some operations on an empty one. -/
def after (actions : List Action) : Store := performAll actions empty

theorem after_append (actions more : List Action) :
    after (actions ++ more) = performAll more (after actions) := List.foldl_append

/-- **What one operation preserves** holds after any number of them. -/
theorem after_induction {P : Store → Prop} (hempty : P empty)
    (hstep : ∀ (action : Action) s, P s → P (action.perform s)) (actions : List Action) :
    P (after actions) := by
  refine List.foldlRecOn actions _ hempty ?_
  intro s hs action _
  exact hstep action s hs

/-! ### What an operation can do -/

/-- The ways in which an operation changes a store. -/
inductive Step (s : Store) : Store → Prop
  | alters {W : String → Prop} {E : String → String → Prop} {t : Store} (h : Alters W E s t) :
    Step s t
  | grows {owner group : String} {E : String → String → Prop} {t : Store}
    (h : Grows owner group E s t) (ht : Sound t) : Step s t
  | shares {uids : List String} {t : Store} (h : Shares uids s t) : Step s t
  | account (new : NewAccount) : Step s (s.createAccount new).2
  | updates (updates : List AccountUpdate) : Step s (s.updateAccounts updates).2

variable {s t u : Store}

theorem step_perform (action : Action) (hs : Sound s) : Step s (action.perform s) := by
  cases action with
  | create => exact .grows (grows_create hs) (sound_create hs)
  | update now nodes => exact .alters (E := fun _ _ => False) (alters_update now nodes s)
  | addEdges now subjects incoming outgoing =>
    exact .alters (W := fun _ => False) (alters_addEdges now subjects incoming outgoing s)
  | removeEdges now subjects incoming outgoing =>
    exact .alters (W := fun _ => False) (alters_removeEdges now subjects incoming outgoing s)
  | share change nodes users => exact .shares (shares_share change nodes users s)
  | createAccount new => exact .account new
  | updateAccounts updates => exact .updates updates

theorem Step.sound (h : Step s t) (hs : Sound s) : Sound t := by
  cases h with
  | alters h => exact h.sound hs
  | grows _ ht => exact ht
  | shares h => exact h.sound hs
  | account new => exact sound_createAccount hs
  | updates updates => exact sound_updateAccounts hs

theorem sound_perform (action : Action) (hs : Sound s) : Sound (action.perform s) :=
  (step_perform action hs).sound hs

theorem sound_after (actions : List Action) : Sound (after actions) :=
  after_induction sound_empty (fun action _ hs => sound_perform action hs) actions

/-! ### Uids are given out once -/

/-- The uids of the nodes and of the accounts. -/
def uids (s : Store) : List String := s.nodes.keys ++ s.accounts.keys

theorem mem_uids_iff {uid : String} :
    uid ∈ s.uids ↔ s.hasNode uid = true ∨ s.hasAccount uid = true := by
  unfold uids
  rw [List.mem_append, Index.mem_keys_iff, Index.mem_keys_iff]
  rfl

/-- A store and a later one: nothing was taken back, and whatever came in since has a uid with a
number that had not been given out. -/
structure Follows (s t : Store) : Prop where
  kept : Extends s t
  fresh : ∀ uid ∈ t.uids, uid ∈ s.uids ∨ Fresh s.lastUid t.lastUid uid

theorem Follows.refl (s : Store) : Follows s s where
  kept := .refl s
  fresh _ h := .inl h

theorem Follows.trans (h : Follows s t) (h' : Follows t u) : Follows s u where
  kept := h.kept.trans h'.kept
  fresh uid hu := by
    have hl := h.kept.lastUid
    have hl' := h'.kept.lastUid
    rcases h'.fresh uid hu with ht | ⟨n, hn, hn', e⟩
    · rcases h.fresh uid ht with hs | ⟨n, hn, hn', e⟩
      · exact .inl hs
      · exact .inr ⟨n, hn, by omega, e⟩
    · exact .inr ⟨n, by omega, hn', e⟩

theorem Extends.follows (h : Extends s t)
    (hn : ∀ {uid r}, t.nodes.find? uid = some r → s.nodes.find? uid = none →
      Fresh s.lastUid t.lastUid uid)
    (ha : ∀ {uid a}, t.accounts.find? uid = some a → s.accounts.find? uid = none →
      Fresh s.lastUid t.lastUid uid) : Follows s t where
  kept := h
  fresh uid hu := by
    rw [mem_uids_iff] at hu ⊢
    rcases hu with hu | hu
    · obtain ⟨r, hr⟩ := Index.contains_iff.1 hu
      cases hs : s.nodes.find? uid with
      | none => exact .inr (hn hr hs)
      | some _ => exact .inl (.inl (Index.contains_iff.2 ⟨_, hs⟩))
    · obtain ⟨a, ha'⟩ := Index.contains_iff.1 hu
      cases hs : s.accounts.find? uid with
      | none => exact .inr (ha ha' hs)
      | some _ => exact .inl (.inr (Index.contains_iff.2 ⟨_, hs⟩))

theorem follows_createAccount (new : NewAccount) : Follows s (s.createAccount new).2 := by
  refine extends_createAccount.follows (fun {uid r} hr hn => ?_) (fun {uid a} ha hn => ?_)
  · rcases createAccount_cases s new with ⟨e, h⟩ | ⟨-, h⟩
    · rw [h, hn] at hr
      cases hr
    · rw [h, hn] at hr
      cases hr
  · rcases createAccount_cases s new with ⟨e, h⟩ | ⟨-, h⟩
    · rw [h, hn] at ha
      cases ha
    · rw [h] at ha ⊢
      rw [Index.find?_insert] at ha
      split at ha
      · rename_i e
        rw [e]
        exact fresh_succ s.lastUid
      · rw [hn] at ha
        cases ha

theorem Step.follows (h : Step s t) : Follows s t := by
  cases h with
  | alters h =>
    refine h.extends.follows (fun hr hn => ?_) (fun ha hn => ?_)
    · rw [h.noNode hn] at hr
      cases hr
    · rw [h.accounts, hn] at ha
      cases ha
  | grows h =>
    refine h.extends.follows (fun hr hn => (h.new hr hn).1) (fun ha hn => ?_)
    rw [h.noAccount hn] at ha
    cases ha
  | shares h =>
    refine h.extends.follows (fun hr hn => ?_) (fun ha hn => ?_)
    · rw [h.nodes, hn] at hr
      cases hr
    · rw [h.noAccount hn] at ha
      cases ha
  | account new => exact follows_createAccount new
  | updates updates =>
    have h := revises_updateAccounts s updates
    refine h.extends.follows (fun hr hn => ?_) (fun ha hn => ?_)
    · rw [h.nodes, hn] at hr
      cases hr
    · rw [h.noAccount hn] at ha
      cases ha

/-- **No uid is given out twice**, and nothing is taken back. -/
theorem follows_after (actions more : List Action) :
    Follows (after actions) (after (actions ++ more)) := by
  rw [after_append]
  suffices h : ∀ t, Sound t → Follows (after actions) t →
      Follows (after actions) (performAll more t) from
    h _ (sound_after actions) (.refl _)
  induction more with
  | nil => exact fun t _ h => h
  | cons action more ih =>
    intro t ht h
    have hstep := step_perform action ht
    exact ih _ (hstep.sound ht) (h.trans hstep.follows)

end SealedGraph.Store
