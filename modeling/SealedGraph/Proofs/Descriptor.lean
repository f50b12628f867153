import SealedGraph.Descriptor
import SealedGraph.Proofs.Envelope
import SealedGraph.Proofs.Text.Digits

/-!
# Descriptors and their payloads

A payload gives back its fields as long as none of them has a dot in it.

* `payloadFields_payloadOf`, `payloadFields_eq_iff`: the fields of a payload.
* `NodeDescriptor.unpack_eq_ok_iff` and its like: what comes out of a token is what the payload says
  that it was signed for.
* `NodeDescriptor.parse?_payload` and its like: a descriptor without dots is read back.
* `NodeDescriptor.uid_of_parse?_user`: the payload of a user, taken for that of a node, names the
  uid of the user.
* `kinds_told_apart`: what a token of one kind is when it is taken for one of another kind. Sessions
  are never mistaken; nodes and users have the same number of fields and are.
-/

namespace SealedGraph

/-- A text that can be a field of a payload. -/
def IsField (s : String) : Prop := fieldSeparator ∉ s.toList

instance (s : String) : Decidable (IsField s) :=
  inferInstanceAs (Decidable (fieldSeparator ∉ s.toList))

/-! ### Fields -/

theorem payloadFields_payloadOf {fields : List String} (ne : fields ≠ [])
    (h : ∀ f ∈ fields, IsField f) : payloadFields (payloadOf fields) = fields := by
  unfold payloadFields payloadOf
  rw [String.toList_ofList, Text.split_join]
  · rw [List.map_map]
    have : String.ofList ∘ String.toList = id := funext fun s => String.ofList_toList
    rw [this, List.map_id]
  · simpa using ne
  · rw [List.forall_mem_map]
    exact h

/-- **A payload has these fields** iff it is made of them and none has a dot in it. -/
theorem payloadFields_eq_iff {payload : String} {fields : List String} (ne : fields ≠ []) :
    payloadFields payload = fields ↔
      payload = payloadOf fields ∧ ∀ f ∈ fields, IsField f := by
  constructor
  · rintro rfl
    constructor
    · have same : String.toList ∘ String.ofList = id := funext fun cs => String.toList_ofList
      unfold payloadOf payloadFields
      rw [List.map_map, same, List.map_id, Text.join_split, String.ofList_toList]
    · intro f hf
      obtain ⟨cs, hcs, rfl⟩ := List.mem_map.1 hf
      unfold IsField
      rw [String.toList_ofList]
      exact Text.not_mem_of_mem_split hcs
  · rintro ⟨rfl, h⟩
    exact payloadFields_payloadOf ne h

theorem payloadFields_cons {f g : String} {fields : List String} (h : IsField f) :
    payloadFields (payloadOf (f :: g :: fields)) =
      f :: payloadFields (payloadOf (g :: fields)) := by
  unfold payloadFields payloadOf
  rw [String.toList_ofList, String.toList_ofList, List.map_cons, List.map_cons, Text.join,
    Text.split_append_sep h, List.map_cons, String.ofList_toList]

theorem payloadFields_empty : payloadFields "" = [""] := by decide

theorem payload_ne_empty {payload f g : String} {fields : List String}
    (h : payloadFields payload = f :: g :: fields) : payload ≠ "" := by
  rintro rfl
  rw [payloadFields_empty] at h
  cases h

theorem isField_empty : IsField "" := by decide

theorem isField_letters (s : Permissions) : IsField s.letters := by
  unfold IsField Permissions.letters
  rw [String.toList_ofList, List.mem_map]
  rintro ⟨p, -, h⟩
  cases p <;> cases h

theorem isField_int64Text (i : Int64) : IsField (String.ofList (Text.int64Text i)) := by
  unfold IsField
  rw [String.toList_ofList]
  exact Text.dot_not_mem_int64Text i

/-! ### Tokens of descriptors -/

/-- What a token is unpacked to, whatever the kind of descriptor: the reading of the payload for
which it was signed. -/
theorem verify_bind_eq_ok_iff {α : Type} {parse : String → Option α}
    {read : String → Except Envelope.Error α} (hr : ∀ p d, read p = .ok d ↔ parse p = some d)
    {key : List UInt8} {token : String} {d : α} :
    (Envelope.verify key token >>= read) = .ok d ↔
      ∃ p, p ≠ "" ∧ token = Envelope.sign key p ∧ parse p = some d := by
  constructor
  · intro h
    cases hv : Envelope.verify key token with
    | error e => rw [hv] at h; cases h
    | ok p =>
      rw [hv] at h
      obtain ⟨hp, ht⟩ := Envelope.eq_sign_of_verify hv
      exact ⟨p, hp, ht, (hr p d).1 h⟩
  · rintro ⟨p, hp, rfl, hd⟩
    rw [Envelope.verify_sign hp]
    exact (hr p d).2 hd

theorem verify_sign_bind {α : Type} {key : List UInt8} {payload f g : String}
    {fields : List String} (h : payloadFields payload = f :: g :: fields)
    (read : String → Except Envelope.Error α) :
    (Envelope.verify key (Envelope.sign key payload) >>= read) = read payload := by
  rw [Envelope.verify_sign (payload_ne_empty h)]
  rfl

namespace NodeDescriptor

variable {key : List UInt8} {token : String} {d : NodeDescriptor}

theorem unpack_eq_ok_iff : unpack key token = .ok d ↔
    ∃ p, p ≠ "" ∧ token = Envelope.sign key p ∧ parse? p = some d := by
  refine verify_bind_eq_ok_iff fun p d => ?_
  cases parse? p <;> simp

theorem fields_payload (hu : IsField d.uid) (ho : IsField d.owner) :
    payloadFields d.payload = [d.uid, d.owner, d.permissions.letters] :=
  payloadFields_payloadOf (by simp) (by simp [hu, ho, isField_letters])

/-- **A node's descriptor is read back from its payload.** -/
theorem parse?_payload (hne : d.uid ≠ "") (hu : IsField d.uid) (ho : IsField d.owner) :
    parse? d.payload = some d := by
  unfold parse?
  rw [fields_payload hu ho]
  simp [hne, Permissions.ofLetters_letters]

/-- **A node's token is unpacked to its descriptor.** -/
theorem unpack_pack (hne : d.uid ≠ "") (hu : IsField d.uid) (ho : IsField d.owner) :
    unpack key (d.pack key) = .ok d := by
  have hf := fields_payload hu ho
  exact unpack_eq_ok_iff.2 ⟨d.payload, payload_ne_empty hf, rfl, parse?_payload hne hu ho⟩

theorem uid_of_parse?_user {u : UserDescriptor} (hu : IsField u.uid)
    (h : parse? u.payload = some d) : d.uid = u.uid := by
  unfold parse? UserDescriptor.payload at h
  rw [payloadFields_cons hu] at h
  split at h
  · rename_i uid owner letters e
    split at h
    · cases h
    · cases h
      exact (List.cons.inj e).1.symm
  · cases h

end NodeDescriptor

namespace UserDescriptor

variable {key : List UInt8} {token : String} {d : UserDescriptor}

theorem unpack_eq_ok_iff : unpack key token = .ok d ↔
    ∃ p, p ≠ "" ∧ token = Envelope.sign key p ∧ parse? p = some d := by
  refine verify_bind_eq_ok_iff fun p d => ?_
  cases parse? p <;> simp

theorem fields_payload (hu : IsField d.uid) (hr : IsField d.role) :
    payloadFields d.payload = [d.uid, d.role, ""] :=
  payloadFields_payloadOf (by simp) (by simp [hu, hr, isField_empty])

end UserDescriptor

namespace SessionDescriptor

variable {key : List UInt8} {token : String} {d : SessionDescriptor}

theorem unpack_eq_ok_iff : unpack key token = .ok d ↔
    ∃ p, p ≠ "" ∧ token = Envelope.sign key p ∧ parse? p = some d := by
  refine verify_bind_eq_ok_iff fun p d => ?_
  cases parse? p <;> simp

theorem fields_payload (hu : IsField d.uid) (hr : IsField d.role) (hs : IsField d.session) :
    payloadFields d.payload =
      [d.uid, d.role, d.session, String.ofList (Text.int64Text d.timestamp)] :=
  payloadFields_payloadOf (by simp) (by simp [hu, hr, hs, isField_int64Text])

/-- **The claims of a session are read back from their payload.** -/
theorem parse?_payload (hne : d.uid ≠ "") (hne' : d.session ≠ "") (hu : IsField d.uid)
    (hr : IsField d.role) (hs : IsField d.session) : parse? d.payload = some d := by
  unfold parse?
  rw [fields_payload hu hr hs]
  simp [hne, hne', Text.readInt64_int64Text]

/-- **A session's token is unpacked to its claims.** -/
theorem unpack_pack (hne : d.uid ≠ "") (hne' : d.session ≠ "") (hu : IsField d.uid)
    (hr : IsField d.role) (hs : IsField d.session) : unpack key (d.pack key) = .ok d := by
  have hf := fields_payload hu hr hs
  exact unpack_eq_ok_iff.2 ⟨d.payload, payload_ne_empty hf, rfl, parse?_payload hne hne' hu hr hs⟩

end SessionDescriptor

/-! ### Tokens of another kind -/

/-- **What a token of one kind is as one of another kind.** A session is not taken for a node or a
user, nor they for a session: they have different numbers of fields. A node and a user both have
three. So a node is taken for the user with its uid, and its owner for the role; a user is taken for
the node with its uid, its role for the owner, and without permissions. -/
theorem kinds_told_apart (key : List UInt8) {n : NodeDescriptor} {u : UserDescriptor}
    {x : SessionDescriptor} (hn : IsField n.uid ∧ IsField n.owner)
    (hu : IsField u.uid ∧ IsField u.role)
    (hx : IsField x.uid ∧ IsField x.role ∧ IsField x.session) :
    SessionDescriptor.unpack key (n.pack key) = .error .invalid ∧
      SessionDescriptor.unpack key (u.pack key) = .error .invalid ∧
      NodeDescriptor.unpack key (x.pack key) = .error .invalid ∧
      UserDescriptor.unpack key (x.pack key) = .error .invalid ∧
      UserDescriptor.unpack key (n.pack key) =
        (if n.uid = "" then .error .invalid else .ok ⟨n.uid, n.owner⟩) ∧
      NodeDescriptor.unpack key (u.pack key) =
        if u.uid = "" then .error .invalid else .ok ⟨u.uid, u.role, .none⟩ := by
  have hnode := n.fields_payload hn.1 hn.2
  have huser := u.fields_payload hu.1 hu.2
  have hsession := x.fields_payload hx.1 hx.2.1 hx.2.2
  refine ⟨?_, ?_, ?_, ?_, ?_, ?_⟩
  · unfold SessionDescriptor.unpack NodeDescriptor.pack SessionDescriptor.parse?
    rw [verify_sign_bind hnode, hnode]
  · unfold SessionDescriptor.unpack UserDescriptor.pack SessionDescriptor.parse?
    rw [verify_sign_bind huser, huser]
  · unfold NodeDescriptor.unpack SessionDescriptor.pack NodeDescriptor.parse?
    rw [verify_sign_bind hsession, hsession]
  · unfold UserDescriptor.unpack SessionDescriptor.pack UserDescriptor.parse?
    rw [verify_sign_bind hsession, hsession]
  · unfold UserDescriptor.unpack NodeDescriptor.pack UserDescriptor.parse?
    rw [verify_sign_bind hnode, hnode]
    by_cases he : n.uid = ""
    · simp [he]
    · simp [he]
  · unfold NodeDescriptor.unpack UserDescriptor.pack NodeDescriptor.parse?
    rw [verify_sign_bind huser, huser]
    have hletters : Permissions.ofLetters "" = .none := by decide
    by_cases he : u.uid = ""
    · simp [he]
    · simp [he, hletters]

/-- A user's token and a node's, both of one key. -/
theorem kinds_told_apart_user_and_node :
    NodeDescriptor.unpack [9] (UserDescriptor.pack [9] ⟨"0x7", "user"⟩) =
        .ok ⟨"0x7", "user", .none⟩ ∧
      UserDescriptor.unpack [9] (NodeDescriptor.pack [9] ⟨"0x1", "0x2", .all⟩) =
        .ok ⟨"0x1", "0x2"⟩ ∧
      NodeDescriptor.unpack [9] (SessionDescriptor.pack [9] ⟨"0x7", "user", "3f2c", 5⟩) =
        .error .invalid := by
  obtain ⟨-, -, hsession, -, hnode, huser⟩ := kinds_told_apart [9]
    (n := ⟨"0x1", "0x2", .all⟩) (u := ⟨"0x7", "user"⟩) (x := ⟨"0x7", "user", "3f2c", 5⟩)
    ⟨by decide, by decide⟩ ⟨by decide, by decide⟩ ⟨by decide, by decide, by decide⟩
  exact ⟨huser, hnode, hsession⟩

/-- **A user is taken for a node, and a node for a user.** -/
theorem kinds_confused :
    (IsField "0x7" ∧ IsField "user" ∧
      NodeDescriptor.unpack [9] (UserDescriptor.pack [9] ⟨"0x7", "user"⟩) ≠ .error .invalid) ∧
    (IsField "0x1" ∧ IsField "0x2" ∧
      UserDescriptor.unpack [9] (NodeDescriptor.pack [9] ⟨"0x1", "0x2", .all⟩) ≠
        .error .invalid) := by
  have huser : NodeDescriptor.unpack [9] (UserDescriptor.pack [9] ⟨"0x7", "user"⟩) =
      .ok ⟨"0x7", "user", .none⟩ :=
    NodeDescriptor.unpack_eq_ok_iff.2 ⟨_, by decide, rfl, by decide⟩
  have hnode : UserDescriptor.unpack [9] (NodeDescriptor.pack [9] ⟨"0x1", "0x2", .all⟩) =
      .ok ⟨"0x1", "0x2"⟩ :=
    UserDescriptor.unpack_eq_ok_iff.2 ⟨_, by decide, rfl, by decide⟩
  refine ⟨⟨by decide, by decide, ?_⟩, by decide, by decide, ?_⟩
  · rw [huser]
    exact nofun
  · rw [hnode]
    exact nofun

end SealedGraph
