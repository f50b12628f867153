import Mathlib.Algebra.Order.BigOperators.Group.List
import Mathlib.Algebra.Order.Ring.Nat
import SealedGraph.Proofs.Descriptor

/-!
# What a payload can carry

Payloads have no escaping. A dot in a text makes one field more, so that the payload of a descriptor
with a dot in one of its texts has too many fields to be read at all: nothing that is in a text can
make a payload that is read as something else.

* `length_payloadFields_eq_iff`: as many fields come out as went in iff none has a dot in it.
* `Layout.parse_payload`: what is read from the payload of any descriptor of one kind.
* `payloads_exact`: so it is with payloads and tokens of nodes, users and sessions.
-/

namespace SealedGraph

/-! ### The number of fields -/

/-- The separators of a joined text are those between its pieces and those within them. -/
theorem Text.count_join (sep : Char) {ps : List (List Char)} (ne : ps ≠ []) :
    (join sep ps).count sep + 1 = (ps.map (List.count sep)).sum + ps.length := by
  induction ps with
  | nil => exact absurd rfl ne
  | cons p ps ih =>
    cases ps with
    | nil => simp [join]
    | cons q ps =>
      have ih := ih (List.cons_ne_nil q ps)
      rw [join, List.count_append, List.count_cons_self, List.map_cons, List.sum_cons,
        List.length_cons]
      omega

theorem length_payloadFields {fields : List String} (ne : fields ≠ []) :
    (payloadFields (payloadOf fields)).length =
      (fields.map fun f => f.toList.count fieldSeparator).sum + fields.length := by
  have hne : fields.map String.toList ≠ [] := by simpa using ne
  have hjoin := Text.count_join fieldSeparator hne
  rw [List.map_map, List.length_map] at hjoin
  unfold payloadFields payloadOf
  rw [String.toList_ofList, List.length_map, Text.length_split, hjoin]
  rfl

/-- **A text with dots only adds fields**: as many come out as went in iff there are none. -/
theorem length_payloadFields_eq_iff {fields : List String} (ne : fields ≠ []) :
    (payloadFields (payloadOf fields)).length = fields.length ↔ ∀ f ∈ fields, IsField f := by
  rw [length_payloadFields ne, Nat.add_eq_right, List.sum_eq_zero_iff, List.forall_mem_map]
  refine forall₂_congr fun f _ => ?_
  rw [List.count_eq_zero]
  rfl

theorem isField_of_mem_payloadFields {p f : String} (h : f ∈ payloadFields p) :
    IsField f := by
  obtain ⟨cs, hcs, rfl⟩ := List.mem_map.1 h
  unfold IsField
  rw [String.toList_ofList]
  exact Text.not_mem_of_mem_split hcs

/-! ### Layouts -/

/-- The texts that are required are there, and none of the texts has a dot in it. -/
def Plain (required texts : List String) : Prop :=
  (∀ f ∈ required, f ≠ "") ∧ ∀ f ∈ texts, IsField f

instance (required texts : List String) : Decidable (Plain required texts) :=
  inferInstanceAs (Decidable ((∀ f ∈ required, f ≠ "") ∧ ∀ f ∈ texts, IsField f))

/-- How descriptors of one kind stand in payloads: their texts, and one field more behind them. -/
structure Layout (α : Type) where
  payload : α → String
  parse : String → Option α
  texts : α → List String
  /-- the texts that must not be empty -/
  required : α → List String
  last : α → String
  /-- the number of texts -/
  count : Nat
  length_texts (d : α) : (texts d).length = count
  isField_last (d : α) : IsField (last d)
  payload_eq (d : α) : payload d = payloadOf (texts d ++ [last d])
  parse_of_fields {p : String} {d : α} : payloadFields p = texts d ++ [last d] →
    parse p = if ∀ f ∈ required d, f ≠ "" then some d else none
  fields_of_parse {p : String} {d : α} : parse p = some d →
    (∀ f ∈ required d, f ≠ "") ∧ ∃ l, payloadFields p = texts d ++ [l]

namespace Layout

variable {α : Type} (L : Layout α)

/-- What is read is plain. -/
theorem plain_of_parse {p : String} {d : α} (h : L.parse p = some d) :
    Plain (L.required d) (L.texts d) := by
  obtain ⟨hrequired, l, hfields⟩ := L.fields_of_parse h
  refine ⟨hrequired, fun f hf => isField_of_mem_payloadFields (p := p) ?_⟩
  rw [hfields]
  exact List.mem_append_left _ hf

/-- **The payload of any descriptor** is read as that descriptor if it is plain, else not at all. -/
theorem parse_payload (d : α) :
    L.parse (L.payload d) = if Plain (L.required d) (L.texts d) then some d else none := by
  have hne : L.texts d ++ [L.last d] ≠ [] :=
    List.append_ne_nil_of_right_ne_nil _ (List.cons_ne_nil _ _)
  by_cases htexts : ∀ f ∈ L.texts d, IsField f
  · have hfields : ∀ f ∈ L.texts d ++ [L.last d], IsField f :=
      List.forall_mem_append.2 ⟨htexts, List.forall_mem_singleton.2 (L.isField_last d)⟩
    rw [L.parse_of_fields (by rw [L.payload_eq, payloadFields_payloadOf hne hfields])]
    exact (if_congr (and_iff_left htexts) rfl rfl).symm
  · -- whatever else it is read as has as many texts, so that there is no room for the dots
    rw [if_neg fun h => htexts h.2, Option.eq_none_iff_forall_ne_some]
    intro d' hd'
    obtain ⟨-, l, hfields⟩ := L.fields_of_parse hd'
    refine htexts fun f hf => ?_
    refine (length_payloadFields_eq_iff hne).1 ?_ f (List.mem_append_left _ hf)
    rw [← L.payload_eq, hfields, List.length_append, List.length_append, L.length_texts,
      L.length_texts]
    rfl

end Layout

/-- Nodes in payloads: the letters of the permissions stand last. -/
def NodeDescriptor.layout : Layout NodeDescriptor where
  payload := payload
  parse := parse?
  texts d := [d.uid, d.owner]
  required d := [d.uid]
  last d := d.permissions.letters
  count := 2
  length_texts _ := rfl
  isField_last d := isField_letters d.permissions
  payload_eq _ := rfl
  parse_of_fields h := by
    simp [parse?, h, Permissions.ofLetters_letters]
  fields_of_parse h := by
    unfold parse? at h
    split at h
    · rename_i uid owner letters hfields
      split at h
      · cases h
      · rename_i hne
        cases h
        exact ⟨by simpa using hne, letters, hfields⟩
    · cases h

/-- Users in payloads: the last field is empty. -/
def UserDescriptor.layout : Layout UserDescriptor where
  payload := payload
  parse := parse?
  texts d := [d.uid, d.role]
  required d := [d.uid]
  last _ := ""
  count := 2
  length_texts _ := rfl
  isField_last _ := isField_empty
  payload_eq _ := rfl
  parse_of_fields h := by
    simp [parse?, h]
  fields_of_parse h := by
    unfold parse? at h
    split at h
    · rename_i uid role rest hfields
      split at h
      · cases h
      · rename_i hne
        cases h
        exact ⟨by simpa using hne, rest, hfields⟩
    · cases h

/-- Sessions in payloads: the time of issue stands last. -/
def SessionDescriptor.layout : Layout SessionDescriptor where
  payload := payload
  parse := parse?
  texts d := [d.uid, d.role, d.session]
  required d := [d.uid, d.session]
  last d := String.ofList (Text.int64Text d.timestamp)
  count := 3
  length_texts _ := rfl
  isField_last d := isField_int64Text d.timestamp
  payload_eq _ := rfl
  parse_of_fields {p d} h := by
    by_cases hu : d.uid = ""
    · simp [parse?, h, hu]
    · simp [parse?, h, hu, Text.readInt64_int64Text]
  fields_of_parse h := by
    unfold parse? at h
    split at h
    · rename_i uid role session stamp hfields
      split at h
      · cases h
      · rename_i hne
        obtain ⟨t, -, rfl⟩ := Option.map_eq_some_iff.1 h
        rw [Bool.or_eq_true, not_or, String.isEmpty_iff, String.isEmpty_iff] at hne
        exact ⟨by simpa using hne, stamp, hfields⟩
    · cases h

/-! ### Payloads and tokens -/

/-- What the payloads and tokens of one kind of descriptors are read as: the descriptor that they
were made of if it is plain, and nothing else ever; and what is read from any payload or token is a
descriptor that its own payload and token give back. -/
structure Faithful {α : Type} (plain : α → Prop) [DecidablePred plain] (payload : α → String)
    (parse : String → Option α) (pack : List UInt8 → α → String)
    (unpack : List UInt8 → String → Except Envelope.Error α) : Prop where
  parse_payload (d : α) : parse (payload d) = if plain d then some d else none
  payload_of_parse (p : String) (d : α) : parse p = some d → parse (payload d) = some d
  unpack_pack (key : List UInt8) (d : α) :
    unpack key (pack key d) = if plain d then .ok d else .error .invalid
  pack_of_unpack (key : List UInt8) (token : String) (d : α) :
    unpack key token = .ok d → unpack key (pack key d) = .ok d

/-- **Tokens are as faithful as payloads**: a token holds one payload, and no other. -/
theorem Layout.faithful {α : Type} (L : Layout α)
    {unpack : List UInt8 → String → Except Envelope.Error α} (hempty : L.parse "" = none)
    (hunpack : ∀ {key token d}, unpack key token = .ok d ↔
      ∃ p, p ≠ "" ∧ token = Envelope.sign key p ∧ L.parse p = some d) :
    Faithful (fun d => Plain (L.required d) (L.texts d)) L.payload L.parse
      (fun key d => Envelope.sign key (L.payload d)) unpack := by
  have of_parse : ∀ {p d}, L.parse p = some d → L.parse (L.payload d) = some d := fun h => by
    rw [L.parse_payload, if_pos (L.plain_of_parse h)]
  have of_payload : ∀ {key d}, L.parse (L.payload d) = some d →
      unpack key (Envelope.sign key (L.payload d)) = .ok d := by
    intro key d h
    refine hunpack.2 ⟨L.payload d, fun he => ?_, rfl, h⟩
    rw [he, hempty] at h
    cases h
  refine ⟨L.parse_payload, fun p d => of_parse, fun key d => ?_, fun key token d h => ?_⟩
  · split
    · rename_i hd
      exact of_payload (by rw [L.parse_payload, if_pos hd])
    · rename_i hd
      cases hu : unpack key (Envelope.sign key (L.payload d)) with
      | error e => rfl
      | ok d' =>
        obtain ⟨p, -, hsign, hp⟩ := hunpack.1 hu
        rw [← Envelope.payload_eq_of_sign_eq hsign, L.parse_payload, if_neg hd] at hp
        cases hp
  · obtain ⟨p, -, -, hp⟩ := hunpack.1 h
    exact of_payload (of_parse hp)

/-- **Texts admit no injection of fields.** Whatever its texts are, the payload of a node, a user or
a session is read as the very same descriptor if its uid (and its session) is not empty and none of
its texts has a dot in it, and is not read at all otherwise; and so are tokens under one key. What
is read from any payload or token at all is a descriptor that is read back from its own. -/
theorem payloads_exact :
    Faithful (fun d => Plain [d.uid] [d.uid, d.owner]) NodeDescriptor.payload
        NodeDescriptor.parse? NodeDescriptor.pack NodeDescriptor.unpack ∧
      Faithful (fun d => Plain [d.uid] [d.uid, d.role]) UserDescriptor.payload
        UserDescriptor.parse? UserDescriptor.pack UserDescriptor.unpack ∧
      Faithful (fun d => Plain [d.uid, d.session] [d.uid, d.role, d.session])
        SessionDescriptor.payload SessionDescriptor.parse? SessionDescriptor.pack
        SessionDescriptor.unpack := by
  refine ⟨?_, ?_, ?_⟩
  · exact NodeDescriptor.layout.faithful (by decide) NodeDescriptor.unpack_eq_ok_iff
  · exact UserDescriptor.layout.faithful (by decide) UserDescriptor.unpack_eq_ok_iff
  · exact SessionDescriptor.layout.faithful (by decide) SessionDescriptor.unpack_eq_ok_iff

/-- An owner that brings its own letters. -/
example : NodeDescriptor.parse? (NodeDescriptor.payload ⟨"0x1", "0x2.rw", .none⟩) = none := by
  decide

end SealedGraph
