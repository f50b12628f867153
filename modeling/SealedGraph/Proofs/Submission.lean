import SealedGraph.Proofs.Request.Whole

/-!
# Submitted nodes

A node that a caller sends back for a change is believed to be what its token says, and only that: it
must claim the uid, the owner and the permissions that its token says, and what it brings besides is
the caller's to choose.

* `Caller.VouchedFor`: the token of a submitted node vouches for it.
* `checkAllSubmitted_eq_ok_iff`: submitted nodes are accepted if this is so of all of them.
* `vouchedFor_echo_iff`: which nodes the token of a stamped node vouches for.
* `submitted_exact`: both, and that all else is forbidden.
-/

namespace SealedGraph

namespace Caller

variable {c : Caller} {required : String}

/-- The token of a submitted node vouches for it: it is the one that was signed with the caller's key
for a payload which says of a node the very uid, owner and permissions that this one claims, and the
caller may use such a node as is required. -/
def VouchedFor (c : Caller) (required : String) (n : Node) : Prop :=
  ∃ payload d, n.token = some (Envelope.sign c.key.bytes payload) ∧
    NodeDescriptor.WrittenIn d payload ∧ n.uid = d.uid ∧ n.owner = some d.owner ∧
    n.permissions = d.permissions ∧ c.Entitled d required

theorem vouchedFor_iff {n : Node} : c.VouchedFor required n ↔
    ∃ token d, n.token = some token ∧ NodeDescriptor.unpack c.key.bytes token = .ok d ∧
      n.hasDescriptor d = true ∧ c.mayUse d required = true := by
  simp only [VouchedFor, NodeDescriptor.unpack_eq_ok_iff, Node.hasDescriptor_iff, mayUse_iff,
    NodeDescriptor.parse?_eq_some_iff]
  constructor
  · rintro ⟨payload, d, ht, hd, hu, ho, hp, he⟩
    exact ⟨_, d, ht, ⟨payload, NodeDescriptor.writtenIn_ne_empty hd, rfl, hd⟩, ⟨hu, ho, hp⟩, he⟩
  · rintro ⟨_, d, ht, ⟨payload, -, rfl, hd⟩, ⟨hu, ho, hp⟩, he⟩
    exact ⟨payload, d, ht, hd, hu, ho, hp, he⟩

/-- **One submitted node.** -/
theorem checkSubmitted_eq_ok_iff {n : Node} :
    c.checkSubmitted required n = .ok () ↔ c.VouchedFor required n := by
  rw [vouchedFor_iff]
  unfold checkSubmitted
  cases n.token with
  | none => simp
  | some token =>
    cases hd : NodeDescriptor.unpack c.key.bytes token with
    | error e => simp [hd]
    | ok d =>
      by_cases hc : n.hasDescriptor d = true
      · by_cases hm : c.mayUse d required = true <;> simp [hc, hm, hd]
      · simp [hc, hd]

/-- **Submitted nodes** are accepted if their tokens vouch for all of them. -/
theorem checkAllSubmitted_eq_ok_iff {nodes : List Node} :
    c.checkAllSubmitted required nodes = .ok () ↔ ∀ n ∈ nodes, c.VouchedFor required n := by
  induction nodes with
  | nil => simp [checkAllSubmitted]
  | cons n ns ih =>
    rw [List.forall_mem_cons, ← checkSubmitted_eq_ok_iff, ← ih]
    show (c.checkSubmitted required n >>= fun _ => c.checkAllSubmitted required ns) = .ok () ↔ _
    cases c.checkSubmitted required n with
    | error denial =>
      show Except.error denial = .ok () ↔ _
      simp
    | ok _ =>
      show c.checkAllSubmitted required ns = .ok () ↔ _
      simp

theorem forbids_of_checkAllSubmitted {nodes : List Node}
    (h : ¬ ∀ n ∈ nodes, c.VouchedFor required n) :
    ∃ denial, c.checkAllSubmitted required nodes = .error denial ∧
      (RequestError.denied denial).Forbids := by
  cases hc : c.checkAllSubmitted required nodes with
  | ok _ => exact absurd (checkAllSubmitted_eq_ok_iff.1 hc) h
  | error denial => exact ⟨denial, rfl, rfl⟩

/-- **What the token of a stamped node vouches for**: the uid, the owner and the permissions of this
node, whatever else comes with them. -/
theorem vouchedFor_echo_iff {n echo : Node} {owner : String} (hown : n.owner = some owner)
    (hne : n.uid ≠ "") (hu : IsField n.uid) (ho : IsField owner)
    (htoken : echo.token = (n.stamp c.key).token) :
    c.VouchedFor required echo ↔
      (echo.uid = n.uid ∧ echo.owner = n.owner ∧ echo.permissions = n.permissions) ∧
        c.Entitled ⟨n.uid, owner, n.permissions⟩ required := by
  have hd : n.descriptor = ⟨n.uid, owner, n.permissions⟩ := by
    unfold Node.descriptor
    rw [hown, Option.getD_some]
  have hunpack : NodeDescriptor.unpack c.key.bytes (n.descriptor.pack c.key.bytes) =
      .ok ⟨n.uid, owner, n.permissions⟩ := by
    rw [hd]
    exact NodeDescriptor.unpack_pack hne hu ho
  have htoken : echo.token = some (n.descriptor.pack c.key.bytes) := htoken
  rw [vouchedFor_iff, hown, ← mayUse_iff]
  constructor
  · rintro ⟨token, d, ht, hu, hclaims, hmay⟩
    obtain rfl := Option.some.inj (htoken.symm.trans ht)
    obtain rfl := Except.ok.inj (hunpack.symm.trans hu)
    exact ⟨Node.hasDescriptor_iff.1 hclaims, hmay⟩
  · rintro ⟨hclaims, hmay⟩
    exact ⟨_, _, htoken, hunpack, Node.hasDescriptor_iff.2 hclaims, hmay⟩

/-- **Submitted nodes are accepted exactly when their tokens vouch for them**, all of them, and are
forbidden otherwise. So a stamped node that is sent back is accepted, whatever else was changed, if
the caller may use it as is required, and only with the uid, the owner and the permissions that it
was stamped with. -/
theorem submitted_exact (c : Caller) (required : String) :
    (∀ nodes : List Node,
      (c.checkAllSubmitted required nodes = .ok () ↔ ∀ n ∈ nodes, c.VouchedFor required n) ∧
      ((¬ ∀ n ∈ nodes, c.VouchedFor required n) →
        ∃ denial, c.checkAllSubmitted required nodes = .error denial ∧
          (RequestError.denied denial).Forbids)) ∧
    ∀ (n echo : Node) (owner : String), n.owner = some owner → n.uid ≠ "" → IsField n.uid →
      IsField owner → echo.token = (n.stamp c.key).token →
      (echo.uid = n.uid → echo.owner = n.owner → echo.permissions = n.permissions →
        (c.checkAllSubmitted required [echo] = .ok () ↔
          c.Entitled ⟨n.uid, owner, n.permissions⟩ required)) ∧
      (¬ (echo.uid = n.uid ∧ echo.owner = n.owner ∧ echo.permissions = n.permissions) →
        ∃ denial, c.checkAllSubmitted required [echo] = .error denial ∧
          (RequestError.denied denial).Forbids) := by
  refine ⟨fun nodes => ⟨checkAllSubmitted_eq_ok_iff, forbids_of_checkAllSubmitted⟩, ?_⟩
  intro n echo owner hown hne hu ho htoken
  have hecho : c.VouchedFor required echo ↔ _ := vouchedFor_echo_iff hown hne hu ho htoken
  constructor
  · intro huid howner hperm
    rw [checkAllSubmitted_eq_ok_iff, List.forall_mem_singleton, hecho]
    exact and_iff_right ⟨huid, howner, hperm⟩
  · intro hother
    refine forbids_of_checkAllSubmitted ?_
    rw [List.forall_mem_singleton, hecho]
    exact fun h => hother h.1

end Caller

/-! ### A node that comes back -/

namespace Echo

/-- A user who is neither an administrator nor the owner of anything. -/
def writer : Caller := ⟨"0x2", "user", "s", ⟨[9]⟩⟩

/-- A node of another user, which everyone may read and write. -/
def page : Node := { Node.ofUid "0x3" with owner := some "0x1", permissions := .ofLetters "rw" }

/-- The node with other contents, and with no group any more. -/
def edited : Node :=
  { page.stamp writer.key with content := { Content.empty with s1 := some "new" }, group := none }

/-- The node with more permissions than it was stamped with. -/
def widened : Node := { page.stamp writer.key with permissions := .all }

end Echo

/-- New contents are accepted and new permissions are not. -/
theorem submitted_exact_edited :
    Echo.writer.checkAllSubmitted "w" [Echo.edited] = .ok () ∧
      ∃ denial, Echo.writer.checkAllSubmitted "w" [Echo.widened] = .error denial ∧
        (RequestError.denied denial).Forbids := by
  have hback := (Caller.submitted_exact Echo.writer "w").2
  constructor
  · refine ((hback Echo.page Echo.edited "0x1" rfl (by decide) (by decide) (by decide) rfl).1
      rfl rfl rfl).2 ?_
    exact Caller.mayUse_iff.1 (by decide)
  · refine (hback Echo.page Echo.widened "0x1" rfl (by decide) (by decide) (by decide) rfl).2 ?_
    rintro ⟨-, -, h⟩
    exact absurd h (by decide)

end SealedGraph
