import Mathlib.Data.List.Forall2
import SealedGraph.Access.Reference
import SealedGraph.Proofs.Descriptor
import SealedGraph.Proofs.Permissions

/-!
# What a token refers to

A token refers to a node or a user for one caller only, whose key it was made with, and only if its
payload is of the right form. What the payload then says is believed. It also says to whom the node
belongs and what it permits, and by this it is decided whether the caller may use the node.

* `NodeDescriptor.WrittenIn`, `UserDescriptor.WrittenIn`: what a payload says, without a word about
  how it is read.
* `Caller.Entitled`: the three ways in which a caller may use a node.
* `Caller.RefersTo`, `Caller.RefersToUser`: what a token refers to.
* `nodeReference_eq_ok_iff`, `nodeReferences_eq_ok_iff`, `userReference_eq_ok_iff`: a token is taken
  for what it refers to, and is refused if this is nothing that the caller may use.
-/

namespace SealedGraph

/-! ### Payloads -/

theorem payloadOf_three (a b c : String) : payloadOf [a, b, c] = a ++ "." ++ b ++ "." ++ c := by
  apply String.toList_injective
  simp [payloadOf, Text.join, fieldSeparator]

theorem Envelope.verify_eq_ok_iff {key : List UInt8} {token payload : String} :
    verify key token = .ok payload ↔ payload ≠ "" ∧ token = sign key payload := by
  constructor
  · exact eq_sign_of_verify
  · rintro ⟨hne, rfl⟩
    exact verify_sign hne

namespace NodeDescriptor

variable {d : NodeDescriptor} {key : List UInt8} {token payload : String}

/-- A payload says this of a node: three fields between dots, the uid, which is not empty, the owner,
and the letters of the permissions, in any order and among any others. -/
def WrittenIn (d : NodeDescriptor) (payload : String) : Prop :=
  ∃ letters, payload = d.uid ++ "." ++ d.owner ++ "." ++ letters ∧
    (∀ f ∈ [d.uid, d.owner, letters], IsField f) ∧ d.uid ≠ "" ∧
    ∀ p : Permission, d.permissions.has p = true ↔ p.letter ∈ letters.toList

/-- **The descriptor of a payload** is what it says of a node. -/
theorem parse?_eq_some_iff : parse? payload = some d ↔ d.WrittenIn payload := by
  unfold parse? WrittenIn
  constructor
  · intro h
    split at h
    · rename_i uid owner letters hf
      obtain ⟨hp, hfields⟩ := (payloadFields_eq_iff (by simp)).1 hf
      split at h
      · cases h
      · rename_i hne
        cases h
        refine ⟨letters, hp.trans (payloadOf_three _ _ _), hfields, ?_, fun p => ?_⟩
        · rwa [String.isEmpty_iff] at hne
        · exact Permissions.has_ofLetters_iff
    · cases h
  · rintro ⟨letters, hp, hfields, hu, hletters⟩
    have hperm : Permissions.ofLetters letters = d.permissions := by
      refine Permissions.ext_has fun p => ?_
      rw [Bool.eq_iff_iff, Permissions.has_ofLetters_iff, hletters]
    rw [← payloadOf_three] at hp
    rw [(payloadFields_eq_iff (by simp)).2 ⟨hp, hfields⟩]
    simp [hu, hperm]

theorem writtenIn_ne_empty (h : d.WrittenIn payload) : payload ≠ "" := by
  obtain ⟨letters, hp, hfields, -⟩ := h
  rw [← payloadOf_three] at hp
  exact payload_ne_empty ((payloadFields_eq_iff (by simp)).2 ⟨hp, hfields⟩)

/-- **What comes out of a token** is what the payload says that it was signed for. -/
theorem unpack_eq_ok_iff_writtenIn : unpack key token = .ok d ↔
    ∃ payload, Envelope.verify key token = .ok payload ∧ d.WrittenIn payload := by
  rw [unpack_eq_ok_iff]
  simp only [Envelope.verify_eq_ok_iff, parse?_eq_some_iff, and_assoc]

end NodeDescriptor

namespace UserDescriptor

variable {d : UserDescriptor} {key : List UInt8} {token payload : String}

/-- A payload says this of a user: three fields between dots, the uid, which is not empty, the role,
and anything. -/
def WrittenIn (d : UserDescriptor) (payload : String) : Prop :=
  ∃ rest, payload = d.uid ++ "." ++ d.role ++ "." ++ rest ∧
    (∀ f ∈ [d.uid, d.role, rest], IsField f) ∧ d.uid ≠ ""

/-- **The descriptor of a payload** is what it says of a user. -/
theorem parse?_eq_some_iff : parse? payload = some d ↔ d.WrittenIn payload := by
  unfold parse? WrittenIn
  constructor
  · intro h
    split at h
    · rename_i uid role rest hf
      obtain ⟨hp, hfields⟩ := (payloadFields_eq_iff (by simp)).1 hf
      split at h
      · cases h
      · rename_i hne
        cases h
        rw [String.isEmpty_iff] at hne
        exact ⟨rest, hp.trans (payloadOf_three _ _ _), hfields, hne⟩
    · cases h
  · rintro ⟨rest, hp, hfields, hu⟩
    rw [← payloadOf_three] at hp
    rw [(payloadFields_eq_iff (by simp)).2 ⟨hp, hfields⟩]
    simp [hu]

theorem unpack_eq_ok_iff_writtenIn : unpack key token = .ok d ↔
    ∃ payload, Envelope.verify key token = .ok payload ∧ d.WrittenIn payload := by
  rw [unpack_eq_ok_iff]
  simp only [Envelope.verify_eq_ok_iff, parse?_eq_some_iff, and_assoc]

end UserDescriptor

/-! ### Lists of checks -/

/-- **A list of checks succeeds** with what each of them gives. -/
theorem mapM_eq_ok_iff {ε α β : Type} {f : α → Except ε β} {as : List α} {bs : List β} :
    as.mapM f = .ok bs ↔ List.Forall₂ (fun a b => f a = .ok b) as bs := by
  induction as generalizing bs with
  | nil =>
    rw [List.mapM_nil, List.forall₂_nil_left_iff]
    exact ⟨fun h => (Except.ok.inj h).symm, fun h => congrArg Except.ok h.symm⟩
  | cons a as ih =>
    rw [List.mapM_cons, List.forall₂_cons_left_iff]
    constructor
    · intro h
      cases ha : f a with
      | error e =>
        rw [ha] at h
        cases h
      | ok b =>
        cases has : as.mapM f with
        | error e =>
          rw [ha, has] at h
          cases h
        | ok bs' =>
          rw [ha, has] at h
          cases h
          exact ⟨b, bs', rfl, ih.1 has, rfl⟩
    · rintro ⟨b, bs', ha, has, rfl⟩
      rw [ha, ih.2 has]
      rfl

namespace Caller

variable {c : Caller} {letters token : String}

/-- The caller may do with a node what some letters stand for: as an administrator, as its owner, or
because the node permits all of it. -/
def Entitled (c : Caller) (d : NodeDescriptor) (letters : String) : Prop :=
  c.role = adminRole ∨ (d.owner ≠ "" ∧ d.owner = c.uid) ∨
    ∀ l ∈ letters.toList, ∃ p : Permission, p.letter = l ∧ d.permissions.has p = true

theorem mayUse_iff {d : NodeDescriptor} : c.mayUse d letters = true ↔ c.Entitled d letters := by
  have hown : d.owner? = some c.uid ↔ d.owner ≠ "" ∧ d.owner = c.uid := by
    unfold NodeDescriptor.owner? NodeDescriptor.hasOwner
    by_cases h : d.owner = "" <;> simp [h]
  unfold mayUse bypasses isAdmin isOwner Entitled
  rw [Bool.or_eq_true, Bool.or_eq_true, decide_eq_true_iff, decide_eq_true_iff, hown,
    Permissions.allows_iff, or_assoc]

/-! ### References -/

/-- A token refers to a node for a use that some letters stand for: it verifies under the caller's
key, its payload says this of a node, and the caller may use the node so. -/
structure RefersTo (c : Caller) (letters token : String) (d : NodeDescriptor) : Prop where
  claims : ∃ payload, Envelope.verify c.key.bytes token = .ok payload ∧ d.WrittenIn payload
  entitled : c.Entitled d letters

/-- A token refers to a user: it verifies under the caller's key, and its payload says this of a
user. -/
def RefersToUser (c : Caller) (token : String) (d : UserDescriptor) : Prop :=
  ∃ payload, Envelope.verify c.key.bytes token = .ok payload ∧ d.WrittenIn payload

/-- **A token is taken for what it refers to.** -/
theorem nodeReference_eq_ok_iff {d : NodeDescriptor} :
    c.nodeReference letters token = .ok d ↔ c.RefersTo letters token d := by
  have hiff : c.nodeReference letters token = .ok d ↔
      NodeDescriptor.unpack c.key.bytes token = .ok d ∧ c.mayUse d letters = true := by
    unfold nodeReference
    cases NodeDescriptor.unpack c.key.bytes token with
    | error e => simp
    | ok d' =>
      simp only [Except.ok.injEq]
      split
      · rename_i hm
        simp only [Except.ok.injEq]
        constructor
        · rintro rfl
          exact ⟨rfl, hm⟩
        · exact And.left
      · rename_i hm
        simp only [reduceCtorEq, false_iff]
        rintro ⟨rfl, h⟩
        exact hm h
  rw [hiff, NodeDescriptor.unpack_eq_ok_iff_writtenIn, mayUse_iff]
  exact ⟨fun h => ⟨h.1, h.2⟩, fun h => ⟨h.1, h.2⟩⟩

theorem userReference_eq_ok_iff {d : UserDescriptor} :
    c.userReference token = .ok d ↔ c.RefersToUser token d := by
  unfold RefersToUser
  rw [← UserDescriptor.unpack_eq_ok_iff_writtenIn]
  unfold userReference
  cases UserDescriptor.unpack c.key.bytes token <;> simp

/-- **Tokens are taken for what they refer to**, all of them or none. -/
theorem nodeReferences_eq_ok_iff {tokens uids : List String} :
    c.nodeReferences letters tokens = .ok uids ↔
      ∃ ds, List.Forall₂ (c.RefersTo letters) tokens ds ∧ uids = ds.map NodeDescriptor.uid := by
  unfold nodeReferences
  rw [mapM_eq_ok_iff]
  have hone : ∀ token uid, (c.nodeReference letters token).map NodeDescriptor.uid = .ok uid ↔
      ∃ d, c.RefersTo letters token d ∧ d.uid = uid := by
    intro token uid
    simp only [← nodeReference_eq_ok_iff]
    cases c.nodeReference letters token <;> simp [Except.map]
  simp only [hone]
  induction tokens generalizing uids with
  | nil => simp
  | cons token tokens ih =>
    rw [List.forall₂_cons_left_iff]
    constructor
    · rintro ⟨uid, uids', ⟨d, hd, rfl⟩, h, rfl⟩
      obtain ⟨ds, hds, rfl⟩ := ih.1 h
      exact ⟨d :: ds, .cons hd hds, rfl⟩
    · rintro ⟨ds, hds, rfl⟩
      obtain ⟨d, ds', hd, hds', rfl⟩ := List.forall₂_cons_left_iff.1 hds
      exact ⟨d.uid, ds'.map NodeDescriptor.uid, ⟨d, hd, rfl⟩, ih.2 ⟨ds', hds', rfl⟩, rfl⟩

end Caller

end SealedGraph
