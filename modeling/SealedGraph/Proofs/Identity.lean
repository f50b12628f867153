import SealedGraph.Identity
import SealedGraph.Proofs.Descriptor

/-!
# Identities are isolated by their keys

The key of an identity is the hash of its seed: the master secret, the uid, two colons and the role,
one behind the other. No lengths are written, and a uid may have any number of colons in it. Uid and
role can be told apart because no role has one: the last two colons of a seed are the ones that were
put between them.

* `IdentityKey.seed_injective`: two identities never have one seed.
* `Envelope.sign_eq_sign_iff`: when one payload is signed alike under two keys.
* `identities_isolated`: a token of one identity is accepted for another only if a hash collides.
-/

namespace SealedGraph

/-! ### Roles -/

/-- What a role is that can stand in a descriptor. -/
theorem of_isValidRole {role : String} (h : isValidRole role = true) :
    role ≠ "" ∧ ∀ c ∈ role.toList, c ∉ reservedInRole ∧ Text.isBlank c = false := by
  unfold isValidRole at h
  rw [Bool.and_eq_true, Bool.not_eq_true', Bool.not_eq_true', List.any_eq_false] at h
  refine ⟨fun e => by simp [e] at h, fun c hc => ?_⟩
  have hc := h.2 c hc
  rw [Bool.or_eq_true, not_or, List.contains_iff_mem, Bool.not_eq_true] at hc
  exact hc

theorem not_mem_of_isValidRole {role : String} (h : isValidRole role = true) {c : Char}
    (hc : c ∈ reservedInRole) : c ∉ role.toList :=
  fun hm => ((of_isValidRole h).2 c hm).1 hc

theorem isField_of_isValidRole {role : String} (h : isValidRole role = true) : IsField role :=
  not_mem_of_isValidRole h (by decide)

/-! ### Seeds -/

theorem bytesOf_append (s t : String) : bytesOf (s ++ t) = bytesOf s ++ bytesOf t := by
  unfold bytesOf Utf8.encode
  rw [String.toList_append, List.flatMap_append]

/-- **The last separator** tells where the rest begins. -/
theorem Text.append_sep_inj {sep : Char} {p p' r r' : List Char} (h : sep ∉ r) (h' : sep ∉ r')
    (e : p ++ sep :: r = p' ++ sep :: r') : p = p' ∧ r = r' := by
  -- Read from the end, the last separator is the first.
  have hrev := congrArg List.reverse e
  rw [List.reverse_append, List.reverse_append, List.reverse_cons, List.reverse_cons,
    List.append_assoc, List.append_assoc] at hrev
  have hsplit := congrArg (split sep) hrev
  have hr : split sep (r.reverse ++ ([sep] ++ p.reverse)) = r.reverse :: split sep p.reverse :=
    split_append_sep (by simpa using h) _
  have hr' : split sep (r'.reverse ++ ([sep] ++ p'.reverse)) = r'.reverse :: split sep p'.reverse :=
    split_append_sep (by simpa using h') _
  rw [hr, hr'] at hsplit
  obtain ⟨hrest, hparts⟩ := List.cons.inj hsplit
  have hfront := congrArg (join sep) hparts
  rw [join_split, join_split] at hfront
  exact ⟨List.reverse_inj.1 hfront, List.reverse_inj.1 hrest⟩

namespace IdentityKey

theorem seed_eq (master : MasterSecret) (uid role : String) :
    seed master uid role = master.bytes ++ bytesOf (uid ++ "::" ++ role) := by
  unfold seed separator
  rw [bytesOf_append, bytesOf_append, List.append_assoc, List.append_assoc, List.append_assoc]

/-- **Two identities never have one seed**, whatever colons there are in their uids. -/
theorem seed_injective {master : MasterSecret} {uid role uid' role' : String}
    (h : isValidRole role = true) (h' : isValidRole role' = true)
    (e : seed master uid role = seed master uid' role') : uid = uid' ∧ role = role' := by
  rw [seed_eq, seed_eq] at e
  have htext := congrArg String.toList (bytesOf_injective (List.append_cancel_left e))
  have hcolon : ':' ∈ reservedInRole := by decide
  have hsplit : ∀ u r : String,
      (u ++ "::" ++ r).toList = (u.toList ++ [':']) ++ ':' :: r.toList := by
    intro u r
    rw [String.toList_append, String.toList_append, List.append_assoc, List.append_assoc]
    rfl
  rw [hsplit, hsplit] at htext
  obtain ⟨huid, hrole⟩ := Text.append_sep_inj (not_mem_of_isValidRole h hcolon)
    (not_mem_of_isValidRole h' hcolon) htext
  exact ⟨String.toList_inj.1 (List.append_cancel_right huid), String.toList_inj.1 hrole⟩

end IdentityKey

/-! ### Tokens under another key -/

namespace Envelope

/-- **Two keys sign a payload alike** iff they give one tag to its first segment. -/
theorem sign_eq_sign_iff {key key' : List UInt8} {p q : String} :
    sign key p = sign key' q ↔ p = q ∧ tag key (body p) = tag key' (body p) := by
  constructor
  · intro h
    obtain rfl := payload_eq_of_sign_eq h
    have hsplit := congrArg (fun t : String => Text.split separator t.toList) h
    simp only [split_sign, List.cons.injEq, and_true, true_and] at hsplit
    exact ⟨rfl, Base64Url.encode_injective hsplit⟩
  · rintro ⟨rfl, htag⟩
    unfold sign
    simp only [htag]

end Envelope

namespace IdentityKey

/-- The token is that of a node or of a user under the key. -/
def Packs (key : IdentityKey) (token : String) : Prop :=
  (∃ d : NodeDescriptor, token = d.pack key.bytes) ∨
    ∃ d : UserDescriptor, token = d.pack key.bytes

/-- The token is taken for that of a node or of a user under the key. -/
def Accepts (key : IdentityKey) (token : String) : Prop :=
  (∃ d, NodeDescriptor.unpack key.bytes token = .ok d) ∨
    ∃ d, UserDescriptor.unpack key.bytes token = .ok d

/-- Both keys give one tag to the first segment of the token. -/
def AgreeOn (key key' : IdentityKey) (token : String) : Prop :=
  ∃ segment mac, Text.split Envelope.separator token.toList = [segment, mac] ∧
    Envelope.tag key.bytes segment = Envelope.tag key'.bytes segment

variable {key key' : IdentityKey} {token p : String}

theorem Packs.exists_sign (h : key.Packs token) : ∃ p, token = Envelope.sign key.bytes p := by
  rcases h with ⟨d, rfl⟩ | ⟨d, rfl⟩
  · exact ⟨d.payload, rfl⟩
  · exact ⟨d.payload, rfl⟩

/-- **What is accepted** is the token of a payload that has the fields of a node or of a user. -/
theorem accepts_iff : key.Accepts token ↔
    ∃ p, token = Envelope.sign key.bytes p ∧ p ≠ "" ∧
      ((∃ d, NodeDescriptor.parse? p = some d) ∨ ∃ d, UserDescriptor.parse? p = some d) := by
  unfold Accepts
  simp only [NodeDescriptor.unpack_eq_ok_iff, UserDescriptor.unpack_eq_ok_iff]
  constructor
  · rintro (⟨d, p, hne, ht, hd⟩ | ⟨d, p, hne, ht, hd⟩)
    · exact ⟨p, ht, hne, .inl ⟨d, hd⟩⟩
    · exact ⟨p, ht, hne, .inr ⟨d, hd⟩⟩
  · rintro ⟨p, ht, hne, ⟨d, hd⟩ | ⟨d, hd⟩⟩
    · exact .inl ⟨d, p, hne, ht, hd⟩
    · exact .inr ⟨d, p, hne, ht, hd⟩

theorem agreeOn_sign : key.AgreeOn key' (Envelope.sign key.bytes p) ↔
    Envelope.tag key.bytes (Envelope.body p) = Envelope.tag key'.bytes (Envelope.body p) := by
  unfold AgreeOn
  rw [Envelope.split_sign]
  constructor
  · rintro ⟨segment, mac, e, htag⟩
    rw [(List.cons.inj e).1]
    exact htag
  · intro htag
    exact ⟨_, _, rfl, htag⟩

/-- **A token of one key passes under another** iff it passes under its own, and the two keys give
its first segment one tag. -/
theorem Packs.accepts_iff_agreeOn (h : key.Packs token) :
    key'.Accepts token ↔ key.Accepts token ∧ key.AgreeOn key' token := by
  obtain ⟨p, rfl⟩ := h.exists_sign
  rw [accepts_iff, accepts_iff, agreeOn_sign]
  constructor
  · rintro ⟨q, e, hq⟩
    obtain ⟨rfl, htag⟩ := Envelope.sign_eq_sign_iff.1 e
    exact ⟨⟨p, rfl, hq⟩, htag⟩
  · rintro ⟨⟨q, e, hq⟩, htag⟩
    obtain ⟨rfl, -⟩ := Envelope.sign_eq_sign_iff.1 e
    exact ⟨p, Envelope.sign_eq_sign_iff.2 ⟨rfl, htag⟩, hq⟩

end IdentityKey

/-! ### Isolation -/

/-- **Identities are isolated by their keys.** Two identities with valid roles have one seed only if
they are one identity. A token that was packed for a node or a user under the key of one is accepted
under the key of the other iff it is accepted under its own and both keys give its first segment one
tag; and then they are one identity, or their two seeds have one hash, or their two keys collide
on that segment. -/
theorem identities_isolated (master : MasterSecret) {uid role uid' role' : String}
    (h : isValidRole role = true) (h' : isValidRole role' = true) :
    (IdentityKey.seed master uid role = IdentityKey.seed master uid' role' →
        uid = uid' ∧ role = role') ∧
      ∀ token, (IdentityKey.derive master uid role).Packs token →
        ((IdentityKey.derive master uid' role').Accepts token ↔
            (IdentityKey.derive master uid role).Accepts token ∧
              (IdentityKey.derive master uid role).AgreeOn
                (IdentityKey.derive master uid' role') token) ∧
          ((IdentityKey.derive master uid' role').Accepts token →
            (uid = uid' ∧ role = role') ∨
              (IdentityKey.seed master uid role ≠ IdentityKey.seed master uid' role' ∧
                sha512_256 (IdentityKey.seed master uid role) =
                  sha512_256 (IdentityKey.seed master uid' role')) ∨
              (IdentityKey.derive master uid role ≠ IdentityKey.derive master uid' role' ∧
                (IdentityKey.derive master uid role).AgreeOn
                  (IdentityKey.derive master uid' role') token)) := by
  refine ⟨IdentityKey.seed_injective h h', fun token hp => ⟨hp.accepts_iff_agreeOn, fun ha => ?_⟩⟩
  have hagree := (hp.accepts_iff_agreeOn.1 ha).2
  by_cases hseed : IdentityKey.seed master uid role = IdentityKey.seed master uid' role'
  · exact .inl (IdentityKey.seed_injective h h' hseed)
  · by_cases hkey : IdentityKey.derive master uid role = IdentityKey.derive master uid' role'
    · exact .inr (.inl ⟨hseed, congrArg IdentityKey.bytes hkey⟩)
    · exact .inr (.inr ⟨hkey, hagree⟩)

/-- A colon at the end of a uid makes another identity, which cannot use the tokens of the first. -/
theorem identities_isolated_colon : ∃ master token,
    isValidRole "user" = true ∧
      IdentityKey.seed master "0x1:" "user" ≠ IdentityKey.seed master "0x1" "user" ∧
      (IdentityKey.derive master "0x1:" "user").Packs token ∧
      (IdentityKey.derive master "0x1:" "user").Accepts token ∧
      ¬ (IdentityKey.derive master "0x1" "user").Accepts token := by
  let master : MasterSecret := ⟨[9], by decide⟩
  let key := IdentityKey.derive master "0x1:" "user"
  have hrole : isValidRole "user" = true := by decide
  have isolated := @identities_isolated master "0x1:" "user" "0x1" "user" hrole hrole
  have hpack : key.Packs (UserDescriptor.pack key.bytes ⟨"0x7", "user"⟩) := .inr ⟨_, rfl⟩
  have htag : Envelope.tag key.bytes (Envelope.body (UserDescriptor.payload ⟨"0x7", "user"⟩)) ≠
      Envelope.tag (IdentityKey.derive master "0x1" "user").bytes
        (Envelope.body (UserDescriptor.payload ⟨"0x7", "user"⟩)) := by
    decide +kernel
  refine ⟨master, _, hrole, fun e => ?_, hpack, .inr ⟨⟨"0x7", "user"⟩, ?_⟩, fun ha => ?_⟩
  · exact absurd (isolated.1 e).1 (by decide)
  · exact UserDescriptor.unpack_eq_ok_iff.2 ⟨_, by decide, rfl, by decide⟩
  · obtain ⟨-, hagree⟩ := (isolated.2 _ hpack).1.1 ha
    exact htag (IdentityKey.agreeOn_sign.1 hagree)

end SealedGraph
