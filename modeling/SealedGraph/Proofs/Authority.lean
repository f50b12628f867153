import SealedGraph.Proofs.Http.Run
import SealedGraph.Proofs.Request.Binding

/-!
# Who can change what

A caller who is no administrator changes nothing but what the owner and the permissions of each
node in the store allow. The caller proves these by tokens, so this rests on the tokens telling
what is in the store, which they do as long as they were handed out in answers.

* `Authorized`: how the stores before and after a request of such a caller differ at most.
* `authorized_effect`: calls keep to this as long as their tokens tell the truth.
* `write_authority`: so does every request in every run.
-/

namespace SealedGraph

open Store

/-! ### What a caller may have changed -/

/-- How the stores before and after a request of a caller differ at most. Owners and permissions are
those in the store before the request. -/
structure Authorized (c : Caller) (s t : Store) : Prop where
  /-- nodes stay, with their owner and their permissions -/
  kept : ∀ {uid r}, s.nodes.find? uid = some r →
    ∃ r', t.nodes.find? uid = some r' ∧ r'.owner = r.owner ∧ r'.permissions = r.permissions
  /-- new contents are for nodes that the caller owns or may write -/
  content : ∀ {uid r r'}, s.nodes.find? uid = some r → t.nodes.find? uid = some r' →
    r'.content ≠ r.content → c.Holds s .write uid
  /-- links between nodes are made and cut only if both ends permit it -/
  link : ∀ {x y r r' q}, s.nodes.find? x = some r → t.nodes.find? x = some r' →
    s.nodes.find? y = some q → ¬ (y ∈ r'.children ↔ y ∈ r.children) →
    c.Holds s .linkOut x ∧ c.Holds s .linkIn y
  /-- links to new nodes are made only if the node that links permits it -/
  newLink : ∀ {x y r r'}, s.nodes.find? x = some r → t.nodes.find? x = some r' →
    s.nodes.find? y = none → ¬ (y ∈ r'.children ↔ y ∈ r.children) → c.Holds s .linkOut x
  /-- only nodes that the caller owns or may share come on or off a list of shared nodes -/
  shared : ∀ {uid a a' n}, s.accounts.find? uid = some a → t.accounts.find? uid = some a' →
    ¬ (n ∈ a'.shared ↔ n ∈ a.shared) → c.Holds s .share n
  /-- new nodes are the caller's own -/
  created : ∀ {uid r'}, t.nodes.find? uid = some r' → s.nodes.find? uid = none → r'.owner = c.uid
  /-- no account is new, and none has another name, role, password or data -/
  account : ∀ uid,
    (t.accounts.find? uid).map (fun a => (a.username, a.role, a.credential, a.data)) =
      (s.accounts.find? uid).map fun a => (a.username, a.role, a.credential, a.data)
  usernames : t.usernames = s.usernames

namespace Authorized

variable {c : Caller} {s t : Store}

/-- Nodes that are altered within bounds, and accounts with other lists of nodes. -/
theorem of_altered {W : String → Prop} {E : String → String → Prop}
    (hnode : ∀ {uid r}, s.nodes.find? uid = some r →
      ∃ r', t.nodes.find? uid = some r' ∧ Altered W E uid r r')
    (hW : ∀ uid, W uid → c.Covers s "w" uid)
    (hE : ∀ x y, E x y → c.Covers s "o" x ∧ c.Covers s "i" y)
    (haccount : ∀ {uid a}, s.accounts.find? uid = some a →
      ∃ owned shared, t.accounts.find? uid = some { a with owned := owned, shared := shared } ∧
        ∀ n, (n ∈ shared ↔ n ∈ a.shared) ∨ c.Holds s .share n)
    (hnone : ∀ {uid}, s.accounts.find? uid = none → t.accounts.find? uid = none)
    (hcreated : ∀ {uid r'}, t.nodes.find? uid = some r' → s.nodes.find? uid = none →
      r'.owner = c.uid)
    (husernames : t.usernames = s.usernames) : Authorized c s t where
  kept hr := by
    obtain ⟨r', hr', ha⟩ := hnode hr
    exact ⟨r', hr', ha.owner, ha.permissions⟩
  content hr hr' hc := by
    have ha := Altered.of_find? hnode hr hr'
    exact hW _ (ha.content hc) .write _ (by decide) hr
  link {x y r r' q} hr hr' hq hl := by
    have ha := Altered.of_find? hnode hr hr'
    obtain ⟨ho, hi⟩ := hE x y ((ha.link y).resolve_left hl)
    exact ⟨ho .linkOut _ (by decide) hr, hi .linkIn _ (by decide) hq⟩
  newLink {x y r r'} hr hr' _ hl := by
    have ha := Altered.of_find? hnode hr hr'
    exact (hE x y ((ha.link y).resolve_left hl)).1 .linkOut _ (by decide) hr
  shared {uid a a' n} ha ha' hn := by
    obtain ⟨owned, shared, ht, hm⟩ := haccount ha
    rw [ha'] at ht
    cases ht
    exact (hm n).resolve_left hn
  created := hcreated
  account uid := by
    cases ha : s.accounts.find? uid with
    | none => rw [hnone ha]
    | some a =>
      obtain ⟨owned, shared, ht, -⟩ := haccount ha
      rw [ht]
      rfl
  usernames := husernames

/-- A change of nodes that are there. -/
theorem of_alters {W : String → Prop} {E : String → String → Prop} (h : Alters W E s t)
    (hW : ∀ uid, W uid → c.Covers s "w" uid)
    (hE : ∀ x y, E x y → c.Covers s "o" x ∧ c.Covers s "i" y) : Authorized c s t := by
  refine of_altered h.node hW hE (fun {uid a} ha => ?_) (fun ha => ?_) (fun hr' hn => ?_)
    h.usernames
  · rw [h.accounts]
    exact ⟨a.owned, a.shared, ha, fun _ => .inl Iff.rfl⟩
  · rw [h.accounts]
    exact ha
  · rw [h.noNode hn] at hr'
    cases hr'

/-- A creation. -/
theorem of_grows {group : String} {E : String → String → Prop} (h : Grows c.uid group E s t)
    (hE : ∀ x y, E x y → c.Covers s "o" x ∧ s.nodes.find? y = none) : Authorized c s t := by
  refine of_altered h.node (fun _ hf => hf.elim) (fun x y he => ?_) (fun {uid a} ha => ?_)
    h.noAccount (fun hr' hn => (h.new hr' hn).2.1) h.usernames
  · -- The new node is not in the store yet, so nothing is asked of it.
    obtain ⟨hx, hy⟩ := hE x y he
    refine ⟨hx, fun p r _ hr => ?_⟩
    rw [hy] at hr
    cases hr
  · obtain ⟨owned, ho⟩ := h.account ha
    exact ⟨owned, a.shared, ho, fun _ => .inl Iff.rfl⟩

/-- A change of lists of shared nodes. -/
theorem of_shares {uids : List String} (h : Shares uids s t)
    (hu : ∀ n ∈ uids, c.Holds s .share n) : Authorized c s t := by
  refine of_altered (W := fun _ => False) (E := fun _ _ => False)
    (fun {uid r} hr => ⟨r, by rw [h.nodes]; exact hr, .refl _ _⟩) (fun _ hf => hf.elim)
    (fun _ _ hf => hf.elim) (fun {uid a} ha => ?_) h.noAccount (fun {uid r'} hr' hn => ?_)
    h.usernames
  · obtain ⟨shared, hs, hm⟩ := h.account ha
    exact ⟨a.owned, shared, hs, fun n => (hm n).imp_right (hu n)⟩
  · rw [h.nodes, hn] at hr'
    cases hr'

theorem refl (c : Caller) (s : Store) : Authorized c s s :=
  of_alters (.refl s) (W := fun _ => False) (E := fun _ _ => False) (fun _ hf => hf.elim)
    fun _ _ hf => hf.elim

end Authorized

/-! ### Calls -/

/-- The tokens by which a call refers to nodes and users. -/
def Call.references : Call → List String
  | .query request => request.roots
  | .update request => request.nodes.filterMap Node.token
  | .create request => [request.parent]
  | .addEdges request => request.subjects ++ request.incoming ++ request.outgoing
  | .removeEdges request => request.subjects ++ request.incoming ++ request.outgoing
  | .share request => request.nodes ++ request.users
  | .unshare request => request.nodes ++ request.users
  | _ => []

section Effect

variable {m : Moment} {c : Caller} {s : Store}

theorem authorized_share (change : ShareChange) {nodes users : List String}
    (hn : ∀ uid ∈ nodes, c.Covers s "s" uid) :
    Authorized c s (s.share change nodes users).2 := by
  rcases share_eq_or_hasNode change nodes users s with h | h
  · rw [h]
    exact .refl c s
  · refine .of_shares (shares_share change nodes users s) fun n hm => ?_
    obtain ⟨r, hr⟩ := Index.contains_iff.1 (h n hm)
    exact hn n hm .share r (by decide) hr

/-- **A call keeps to what the caller holds**, if the tokens in it tell the truth. -/
theorem authorized_effect (hs : Sound s) (hrole : c.role ≠ adminRole) {call : Call}
    (ht : c.Truthful s call.references) : Authorized c s (call.effect m c s) := by
  cases call with
  | update request =>
    simp only [Call.effect]
    cases hb : request.bind c with
    | error e => exact .refl c s
    | ok nodes =>
      exact .of_alters (alters_update (E := fun _ _ => False) m.clock nodes s)
        (UpdateRequest.of_bind_eq_ok hrole hb ht) fun _ _ h => h.elim
  | create request =>
    simp only [Call.effect]
    cases hb : request.bind c with
    | error e => exact .refl c s
    | ok r =>
      refine .of_grows (grows_create hs) ?_
      rintro x y ⟨hx, hy⟩
      cases hx
      exact ⟨CreateRequest.of_bind_eq_ok hrole hb ht, (hs.find?_of_fresh hy).1⟩
  | createRoot request =>
    simp only [Call.effect]
    cases hb : request.bind c with
    | error e => exact .refl c s
    | ok n =>
      refine .of_grows (grows_create hs) ?_
      rintro x y ⟨hx, -⟩
      cases hx
  | addEdges request =>
    simp only [Call.effect]
    cases hb : request.bind c with
    | error e => exact .refl c s
    | ok r =>
      exact .of_alters (alters_addEdges (W := fun _ => False) m.clock _ _ _ s)
        (fun _ h => h.elim) fun _ _ he => EdgesRequest.of_bind_eq_ok hrole hb ht he
  | removeEdges request =>
    simp only [Call.effect]
    cases hb : request.bind c with
    | error e => exact .refl c s
    | ok r =>
      exact .of_alters (alters_removeEdges (W := fun _ => False) m.clock _ _ _ s)
        (fun _ h => h.elim) fun _ _ he => EdgesRequest.of_bind_eq_ok hrole hb ht he
  | share request =>
    simp only [Call.effect]
    cases hb : request.bind c with
    | error e => exact .refl c s
    | ok r => exact authorized_share .add (ShareRequest.of_bind_eq_ok hrole hb ht)
  | unshare request =>
    simp only [Call.effect]
    cases hb : request.bind c with
    | error e => exact .refl c s
    | ok r => exact authorized_share .remove (ShareRequest.of_bind_eq_ok hrole hb ht)
  | createAccount request =>
    simp only [Call.effect]
    cases hb : request.bind c with
    | error e => exact .refl c s
    | ok account => exact absurd hb (AccountRequest.bind_ne_ok hrole request account)
  | updateAccounts request =>
    simp only [Call.effect]
    cases hb : request.bind c with
    | error e => exact .refl c s
    | ok updates => exact absurd hb (AccountsRequest.bind_ne_ok hrole request updates)
  | _ => exact .refl c s

end Effect

/-! ### Requests -/

namespace Http

open Attempt

/-- The tokens by which a request refers to nodes and users. -/
def Request.references (r : Request) : List String :=
  match r.call? with
  | some call => call.references
  | none => []

section Run

variable {s₀ : Server} {history : List Visit}

/-- **Tokens that were handed out tell the truth**, to whoever can use them. -/
theorem truthful_of_handed_out (hs : s₀.store.Sound) {c : Caller} {tokens : List String}
    (ht : ∀ token ∈ tokens, ∀ p, Envelope.verify c.key.bytes token = .ok p →
      ∃ x ∈ transcript s₀ history, token ∈ x.tokens) :
    c.Truthful (run s₀ history).store tokens := by
  intro token hm d r hd hr
  obtain ⟨p, hp, rfl, -⟩ := NodeDescriptor.unpack_eq_ok_iff.1 hd
  obtain ⟨x, hx, hxt⟩ := ht _ hm p (Envelope.verify_sign hp)
  exact (minted_run hs history hx hxt).unpack (sound_run hs history) hd hr

/-- **Write authority.** Start with any accounts and no nodes, let any requests be served, and then
one more whose caller is no administrator. If the tokens in this request that the caller can use
were handed out before, whether to this caller or to another, then the request changes no more than
what the caller owns or what the permissions of a node allow, as they are in the store when the
request comes in. -/
theorem write_authority {accounts : List NewAccount} {v : Visit} {c : Caller}
    (hstore : s₀.store = .withAccounts accounts)
    (hcaller : ((Service.authenticate v.moment v.request.credentials).run (run s₀ history)).1 =
      .ok c)
    (hrole : c.role ≠ adminRole)
    (hminted : ∀ token ∈ v.request.references, ∀ p, Envelope.verify c.key.bytes token = .ok p →
      ∃ x ∈ transcript s₀ history, token ∈ x.tokens) :
    Authorized c (run s₀ history).store (run s₀ (history ++ [v])).store := by
  have hs : s₀.store.Sound := by
    rw [hstore]
    exact sound_withAccounts accounts
  rw [run_concat, store_serve]
  rcases serve_cases v.moment v.request (run s₀ history) with
    ⟨_, h⟩ | ⟨_, h⟩ | ⟨_, h⟩ | ⟨c', call, s', ha, hc, h⟩
  · rw [h]
    exact .refl c _
  · rw [h]
    exact .refl c _
  · rw [h]
    exact .refl c _
  · rw [h]
    rw [ha] at hcaller
    cases hcaller
    refine authorized_effect (sound_run hs history) hrole (truthful_of_handed_out hs ?_)
    unfold Request.references at hminted
    rw [hc] at hminted
    exact hminted

end Run

/-! ### A node and its owner -/

namespace Sample

theorem secret_ne_nil : ([7] : List UInt8) ≠ [] := List.cons_ne_nil 7 []

/-- The secret of a server. -/
def master : MasterSecret := ⟨[7], secret_ne_nil⟩

/-- A server with one account, of whose user a session is active. -/
def server : Server where
  gate := ⟨master, 3600⟩
  maxFailures := 0
  store := .withAccounts [⟨"ann", "secret", "user", none⟩]
  registry := .responsive ((Registry.Table.empty 0).addSession "0x1" "s")
  metrics := .empty

/-- The token of this session. -/
def bearer : String := "MHgxLnVzZXIucy4w.8azlWTuwjR7TZ9siSlXAhwmSy9AJqddyMG4o9thvxnI"

/-- A request of this user. -/
def visit (method : Method) (target body : String) : Visit where
  moment := ⟨⟨0, 0⟩, 0, "", "g"⟩
  request := ⟨method, target, some ("Bearer " ++ bearer), some "application/json", body⟩

/-- The user creates a node. -/
def creation : Visit := visit .put "/user/node" "\x7b\"node\":\x7b\"uid\":\"$a\"\x7d\x7d"

/-- The token that comes with this node. -/
def token : String := "MHgyLjB4MS4.hHZNw28vB8iej_yo_HC_sommeggSuJS7w3pQ1Ia1A5Q"

/-- The user gives the node new contents. -/
def update : Visit :=
  visit .patch "/graph/nodes"
    ("\x7b\"nodes\":[\x7b\"uid\":\"0x2\",\"ad\":\"" ++ token ++
      "\",\"own\":\x7b\"uid\":\"0x1\"\x7d,\"s1\":\"x\"\x7d]\x7d")

theorem authenticate_update :
    ((Service.authenticate update.moment update.request.credentials).run
      (run server [creation])).1 = .ok (.of master "0x1" "user" "s") := by
  decide +kernel

theorem references_update : update.request.references = [token] := by decide +kernel

theorem token_handed_out : token ∈ (transcript server [creation]).flatMap Exchange.tokens := by
  decide +kernel

end Sample

/-- The owner of a node replaces its contents, with the token that came with the node. -/
theorem write_authority_own_node :
    Authorized (.of Sample.master "0x1" "user" "s") (run Sample.server [Sample.creation]).store
      (run Sample.server ([Sample.creation] ++ [Sample.update])).store := by
  refine write_authority rfl Sample.authenticate_update (by decide) fun token ht _ _ => ?_
  rw [Sample.references_update, List.mem_singleton] at ht
  rw [ht]
  exact List.mem_flatMap.1 Sample.token_handed_out

end Http

end SealedGraph
