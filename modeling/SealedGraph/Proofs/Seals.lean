import SealedGraph.Proofs.Authority

/-!
# Tokens stay true

A reference to a node is checked against what its token says of the owner and the permissions, and
the store is not asked. So a token must go on saying what the store has, whatever is done after it
was handed out.

* `Answer.Shows`: the nodes that an answer shows, at any depth.
* `Store.Sealed`: a node whose token is unpacked to what the store has of the node.
* `Answer.Faithful.sealed`: the nodes of an answer are such nodes.
* `seals_stay_true`: and they stay it, whatever is requested later.
-/

namespace SealedGraph

/-! ### The nodes of an answer -/

/-- A node is another one or somewhere below it. -/
inductive Node.Within (k : Node) : Node → Prop
  | self : Within k k
  | deeper {n child : Node} (hc : child ∈ n.children) (h : Within k child) : Within k n

/-- A node is somewhere in an answer. -/
inductive Answer.Shows (k : Node) : Answer → Prop
  | found {a : GraphAnswer} {n : Node} (hn : n ∈ a.nodes) (h : k.Within n) : Shows k (.graph a)
  | created {a : GraphAnswer} {x : String × Node} (hx : x ∈ a.created) (h : k.Within x.2) :
    Shows k (.graph a)

/-- A stamped node shows itself and its direct children, and nothing below these. -/
theorem Node.within_stamp {key : IdentityKey} {n k : Node} (h : k.Within (n.stamp key)) :
    k = n.stamp key ∨ ∃ child ∈ n.children, k = { child.sealWith key with children := [] } := by
  cases h with
  | self => exact .inl rfl
  | deeper hc h =>
    obtain ⟨child, hm, rfl⟩ := List.mem_map.1 hc
    cases h with
    | self => exact .inr ⟨child, hm, rfl⟩
    | deeper hc => cases hc

/-! ### Tokens and records -/

namespace Store

/-- The node is stored, and it comes with a token that is unpacked to what the store has of it. -/
def Sealed (s : Store) (key : List UInt8) (k : Node) : Prop :=
  ∃ token r, k.token = some token ∧ s.nodes.find? k.uid = some r ∧
    NodeDescriptor.unpack key token = .ok ⟨k.uid, r.owner, r.permissions⟩

variable {s t : Store}

theorem Sealed.extends {key : List UInt8} {k : Node} (h : s.Sealed key k) (he : s.Extends t) :
    t.Sealed key k := by
  obtain ⟨token, r, ht, hr, hu⟩ := h
  obtain ⟨r', hr', hown, hperm, -, -⟩ := he.node hr
  refine ⟨token, r', ht, hr', ?_⟩
  rw [hown, hperm]
  exact hu

/-- **What a sound store has of a node can be sealed**: neither the uid nor the owner has in it what
separates the fields of a token. -/
theorem sealed_sealWith (hs : s.Sound) {n : Node} (hn : s.Mirrors n) (key : IdentityKey) :
    s.Sealed key.bytes (n.sealWith key) := by
  obtain ⟨r, hr, hown, hperm⟩ := hn
  obtain ⟨i, -, hi⟩ := hs.nodeUid hr
  have hne : n.uid ≠ "" := by
    rw [hi]
    exact uidOf_ne_empty i
  have huid : IsField n.uid := by
    rw [hi]
    exact isField_uidOf i
  have hd : n.descriptor = ⟨n.uid, r.owner, r.permissions⟩ := by
    unfold Node.descriptor
    rw [hown, hperm]
    rfl
  refine ⟨n.descriptor.pack key.bytes, r, rfl, hr, ?_⟩
  rw [hd]
  exact NodeDescriptor.unpack_pack hne huid (hs.isField_of_account (hs.owner hr))

theorem sealed_of_within_stamp (hs : s.Sound) {n k : Node} (hn : s.MirrorsAll n)
    {key : IdentityKey} (hk : k.Within (n.stamp key)) : s.Sealed key.bytes k := by
  rcases Node.within_stamp hk with rfl | ⟨child, hc, rfl⟩
  · exact sealed_sealWith hs hn.1 key
  · exact sealed_sealWith hs (hn.2 child hc) key

end Store

/-- **The nodes of an answer** come with tokens that say what the store has of them. -/
theorem Answer.Faithful.sealed {c : Caller} {s : Store} {answer : Answer}
    (h : answer.Faithful c s) (hs : s.Sound) {k : Node} (hk : answer.Shows k) :
    s.Sealed c.key.bytes k := by
  cases hk with
  | found hn hk =>
    cases h with
    | graph nodes _ =>
      obtain ⟨n', hn', rfl⟩ := nodes _ hn
      exact Store.sealed_of_within_stamp hs hn' hk
  | created hx hk =>
    cases h with
    | graph _ created =>
      obtain ⟨n', hn', e⟩ := created _ hx
      rw [e] at hk
      exact Store.sealed_of_within_stamp hs hn' hk

/-! ### Requests -/

namespace Http

/-- Whose call a request was, and what the caller was answered. -/
def Exchange.answer? (x : Exchange) : Option (Caller × Answer) :=
  match x.outcome with
  | .call c _ (.ok answer) => some (c, answer)
  | _ => none

/-- **An answer to a request** shows the store as it is after the request. -/
theorem faithful_serve {s : Server} {v : Visit} {c : Caller} {answer : Answer}
    (h : (exchange s v).answer? = some (c, answer)) :
    answer.Faithful c (serve v.moment v.request s).2.store := by
  unfold Exchange.answer? at h
  rw [outcome_exchange] at h
  rcases serve_cases v.moment v.request s with
    ⟨_, e⟩ | ⟨_, e⟩ | ⟨_, e⟩ | ⟨c', call, s', -, -, e⟩
  · rw [e] at h
    cases h
  · rw [e] at h
    cases h
  · rw [e] at h
    cases h
  · rw [e] at h ⊢
    rcases hp : (call.perform v.moment c').run s' with ⟨_ | answer', t⟩
    · rw [hp] at h
      cases h
    · rw [hp] at h
      cases h
      exact Call.faithful_perform hp

/-- **What was shown once stays sealed.** -/
theorem sealed_run {s₀ : Server} (hs : s₀.store.Sound) (visits : List Visit) {x : Exchange}
    (hx : x ∈ transcript s₀ visits) {c : Caller} {answer : Answer}
    (ha : x.answer? = some (c, answer)) {k : Node} (hk : answer.Shows k) :
    (run s₀ visits).store.Sealed c.key.bytes k := by
  induction visits using List.reverseRecOn with
  | nil => cases hx
  | append_singleton vs v ih =>
    rw [transcript_concat, List.mem_append, List.mem_singleton] at hx
    have hv := evolves_serve (m := v.moment) (r := v.request) (sound_run hs vs)
    rw [run_concat]
    rcases hx with hx | rfl
    · exact (ih hx).extends hv.ext
    · exact (faithful_serve ha).sealed hv.sound hk

/-- **Tokens of nodes stay true for ever.** Start with any accounts and no nodes, let any requests be
served, and then any more. A node that is there after the first ones is there after all, with the
owner, the permissions, the group and the time of creation that it had; and every node that any of
the first answers shows, at any depth, comes with a token which under the key of the caller who was
answered is unpacked to the owner and the permissions that the store has of this node after all. -/
theorem seals_stay_true {s₀ : Server} {accounts : List NewAccount}
    (hstore : s₀.store = .withAccounts accounts) (before after : List Visit) :
    (∀ uid r, (run s₀ before).store.nodes.find? uid = some r →
      ∃ r', (run s₀ (before ++ after)).store.nodes.find? uid = some r' ∧ r'.owner = r.owner ∧
        r'.permissions = r.permissions ∧ r'.group = r.group ∧ r'.created = r.created) ∧
    ∀ x ∈ transcript s₀ before, ∀ c answer, x.answer? = some (c, answer) →
      ∀ k, answer.Shows k →
        ∃ token r, k.token = some token ∧
          (run s₀ (before ++ after)).store.nodes.find? k.uid = some r ∧
          NodeDescriptor.unpack c.key.bytes token = .ok ⟨k.uid, r.owner, r.permissions⟩ := by
  have hs : s₀.store.Sound := by
    rw [hstore]
    exact Store.sound_withAccounts accounts
  have hext : (run s₀ before).store.Extends (run s₀ (before ++ after)).store := by
    rw [run_append]
    exact extends_run (sound_run hs before) after
  refine ⟨fun uid r hr => hext.node hr, fun x hx c answer ha k hk => ?_⟩
  exact (sealed_run hs before hx ha hk).extends hext

namespace Sample

/-- The node that the user creates, as it is answered. -/
def node : Node where
  uid := "0x2"
  token := some token
  owner := some "0x1"
  permissions := .none
  group := some "g"
  children := []
  content := .empty
  created := some ⟨0, 0⟩
  modified := some ⟨0, 0⟩

theorem answer_creation : (exchange server creation).answer? =
    some (.of master "0x1" "user" "s", .graph ⟨[], [("$a", node)], ⟨0, 0⟩⟩) := by
  decide +kernel

end Sample

/-- The token of a node that was created tells the truth after the node got new contents. -/
theorem seals_stay_true_new_contents :
    ∃ r, (run Sample.server ([Sample.creation] ++ [Sample.update])).store.nodes.find? "0x2" =
        some r ∧
      NodeDescriptor.unpack (Caller.of Sample.master "0x1" "user" "s").key.bytes Sample.token =
        .ok ⟨"0x2", r.owner, r.permissions⟩ := by
  obtain ⟨token, r, ht, hr, hu⟩ := (seals_stay_true rfl [Sample.creation] [Sample.update]).2 _
    List.mem_cons_self _ _ Sample.answer_creation Sample.node
    (.created List.mem_cons_self .self)
  have ht : Sample.token = token := Option.some.inj ht
  rw [ht]
  exact ⟨r, hr, hu⟩

end Http

end SealedGraph
