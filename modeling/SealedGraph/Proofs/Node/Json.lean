import SealedGraph.Node.Json
import SealedGraph.Proofs.Json.Record
import SealedGraph.Proofs.Time.Timestamp

/-!
# Nodes in JSON, read back

A node without numbers, whose times are in years of four digits, is read back from its text as it
was, with all that hangs from it, down to the depth that a text may have.

* `Permissions.members_flags`: a set of permissions, with some of the others refused.
* `Node.reads_members`: the members of a node, one after the other.
* `Node.shape_doc`: the document of a node, by recursion on the node.
* `Node.json_exact`: the text of a node, and of a node that says in so many words what it leaves
  out.
-/

namespace SealedGraph

open Json

/-! ### Members that may be missing -/

/-- The members that are there, of those that may be. -/
def present (slots : List (String × Option Value)) : List (String × Value) :=
  slots.flatMap fun m => memberOf m.1 m.2

theorem present_append (ms ms' : List (String × Option Value)) :
    present (ms ++ ms') = present ms ++ present ms' :=
  List.flatMap_append

theorem mem_present {k : String} {v : Value} {slots : List (String × Option Value)} :
    (k, v) ∈ present slots ↔ (k, some v) ∈ slots := by
  unfold present
  rw [List.mem_flatMap]
  constructor
  · rintro ⟨⟨name, none | w⟩, hm, h⟩
    · cases h
    · obtain ⟨rfl, rfl⟩ := Prod.mk.inj (List.mem_singleton.1 h)
      exact hm
  · intro h
    exact ⟨_, h, List.mem_singleton_self _⟩

theorem keys_present (slots : List (String × Option Value)) :
    ((present slots).map Prod.fst).Sublist (slots.map Prod.fst) := by
  induction slots with
  | nil => exact List.Sublist.refl []
  | cons m slots ih =>
    obtain ⟨name, none | v⟩ := m
    · exact ih.cons name
    · exact ih.cons_cons name

theorem mem_keys_present {k : String} {slots : List (String × Option Value)} :
    k ∈ (present slots).map Prod.fst ↔ ∃ v, (k, some v) ∈ slots := by
  rw [List.mem_map]
  constructor
  · rintro ⟨⟨k, v⟩, h, rfl⟩
    exact ⟨v, mem_present.1 h⟩
  · rintro ⟨v, h⟩
    exact ⟨(k, v), mem_present.2 h, rfl⟩

theorem all_isNumberless_map {α : Type} {f : α → Value} (hf : ∀ a, (f a).isNumberless = true)
    (x : Option α) : (x.map f).all Value.isNumberless = true := by
  cases x with
  | none => rfl
  | some a => exact hf a

theorem membersNumberless_present {slots : List (String × Option Value)}
    (h : (slots.all fun m => m.2.all Value.isNumberless) = true) :
    Value.membersNumberless (present slots) = true := by
  induction slots with
  | nil => rfl
  | cons m slots ih =>
    obtain ⟨hm, hslots⟩ := Bool.and_eq_true_iff.1 h
    obtain ⟨name, none | v⟩ := m
    · exact ih hslots
    · exact Bool.and_eq_true_iff.2 ⟨hm, ih hslots⟩

section Reads

variable {σ : Type} {fields : List (Shape.Field σ)}
  {other : Nat → String → Doc → σ → Except Failure σ} {limit : Nat} {s s' : σ}

/-- A field that may be missing, and is not missed then. -/
theorem reads_optional {α : Type} {name : String} {shape : Shape α} {set : Option α → σ → σ}
    {toValue : α → Value} {x : Option α} {slots : List (String × Option Value)}
    (hfield : fields.find? (fun f => f.name = name) =
      some (.free name (Shape.optional shape) set))
    (hread : ∀ a, x = some a → Shape.optional shape limit (toValue a).doc = .ok (some a))
    (hstart : set none s = s) (h : Shape.Reads fields other limit (set x s) (present slots) s') :
    Shape.Reads fields other limit s (present ((name, x.map toValue) :: slots)) s' := by
  cases x with
  | none =>
    rw [hstart] at h
    exact h
  | some a =>
    refine .cons ?_ h
    have htake : Shape.take fields other limit s (name, toValue a) =
        (do return set (← Shape.optional shape limit (toValue a).doc) s) := by
      rw [Shape.take, hfield]
      rfl
    rw [htake, hread a rfl]
    rfl

end Reads

/-! ### Permissions -/

namespace Permissions

/-- The members of these permissions, granted in the set or not. -/
def flags (s : Permissions) (ps : List Permission) : List (String × Value) :=
  ps.map fun p => (memberName p, .bool (s.has p))

theorem members_eq_flags (s : Permissions) : s.members = s.flags (Permission.all.filter s.has) :=
  List.map_congr_left fun p hp => by rw [(List.mem_filter.1 hp).2]

/-- The members that a set of permissions can have. -/
def slots (s : Permissions) : List (String × Option Value) :=
  Permission.all.map fun p => (memberName p, if s.has p then some (.bool true) else Option.none)

theorem present_slots (s : Permissions) : present s.slots = s.members := by
  unfold slots members
  induction Permission.all with
  | nil => rfl
  | cons p ps ih =>
    rw [List.map_cons, List.filter_cons]
    cases s.has p with
    | true => exact congrArg _ ih
    | false => exact ih

theorem memberName_injective {p q : Permission} (h : memberName p = memberName q) : p = q :=
  Permission.letter_injective (List.cons.inj (String.ofList_injective h)).1

theorem keys_flags (s : Permissions) (ps : List Permission) :
    (s.flags ps).map Prod.fst = ps.map memberName := by
  rw [flags, List.map_map]
  rfl

theorem nodup_memberName {ps : List Permission} (h : ps.Nodup) : (ps.map memberName).Nodup :=
  List.pairwise_map.2 (h.imp fun hne heq => hne (memberName_injective heq))

theorem has_set (p q : Permission) (granted : Bool) (s : Permissions) :
    (s.set p granted).has q = if q = p then granted else s.has q := by
  cases p <;> cases q <;> rfl

/-- A set follows from what its members say, if the others are as before. -/
theorem foldl_set {s t : Permissions} {ps : List Permission}
    (h : ∀ p, p ∈ ps ∨ t.has p = s.has p) :
    ps.foldl (fun t p => t.set p (s.has p)) t = s := by
  induction ps generalizing t with
  | nil => exact ext_has fun p => (h p).resolve_left List.not_mem_nil
  | cons p ps ih =>
    refine ih fun q => ?_
    rw [has_set]
    split
    · rename_i hq
      exact .inr (congrArg s.has hq.symm)
    · rename_i hq
      exact (h q).imp_left fun hmem => (List.mem_cons.1 hmem).resolve_left hq

theorem reads_flags (s : Permissions) (limit : Nat) (ps : List Permission) (t : Permissions) :
    Shape.Reads fields Shape.ignore limit t (s.flags ps)
      (ps.foldl (fun t p => t.set p (s.has p)) t) := by
  induction ps generalizing t with
  | nil => exact .nil
  | cons p ps ih =>
    have hp : Shape.take fields Shape.ignore limit t (memberName p, .bool (s.has p)) =
        .ok (t.set p (s.has p)) := by
      cases p <;> rfl
    exact .cons hp (ih _)

/-- **A set of permissions** is read from members with all that it grants, whatever else they
refuse. -/
theorem members_flags {s : Permissions} {ps : List Permission} (hnodup : ps.Nodup)
    (hall : ∀ p, s.has p = true → p ∈ ps) (limit : Nat) :
    Shape.members fields Shape.ignore limit [] none (Value.memberDocs (s.flags ps)) = .ok s := by
  have hfree : ∀ f ∈ fields, f.required = false := by
    intro f hf
    obtain ⟨p, -, rfl⟩ := List.mem_map.1 hf
    rfl
  have hkeys : ((s.flags ps).map Prod.fst).Nodup := by
    rw [keys_flags]
    exact nodup_memberName hnodup
  have hset : ps.foldl (fun t p => t.set p (s.has p)) none = s := by
    refine foldl_set fun p => ?_
    cases hp : s.has p with
    | true => exact .inl (hall p hp)
    | false => exact .inr (has_none p)
  rw [Shape.members_memberDocs hfree hkeys fun _ _ => List.not_mem_nil]
  exact (reads_flags s limit ps none).trans (congrArg Except.ok hset)

end Permissions

namespace Node

open Permissions hiding none

/-! ### The members of a node -/

/-- The members before the permissions. -/
def firstSlots (n : Node) : List (String × Option Value) :=
  [ ("uid", some (.string n.uid)), ("ad", n.token.map .string),
    ("own", n.owner.map fun uid => .object [("uid", .string uid)]) ]

/-- The members behind the permissions. -/
def lastSlots (n : Node) : List (String × Option Value) :=
  [ ("sgi", n.group.map .string),
    ("e", if n.children.isEmpty then none else some (.array (allToJson n.children))),
    ("id", n.content.id.map .string), ("ty", n.content.type.map .string),
    ("p", n.content.privateData.map .string), ("s1", n.content.s1.map .string),
    ("s2", n.content.s2.map .string), ("s3", n.content.s3.map .string),
    ("s4", n.content.s4.map .string), ("b", n.content.blob.map .string),
    ("n1", n.content.n1.map fun x => .number (.double x)),
    ("n2", n.content.n2.map fun x => .number (.double x)),
    ("c", n.created.map timestampValue), ("m", n.modified.map timestampValue) ]

/-- All members that a node can have. -/
def slots (n : Node) : List (String × Option Value) :=
  n.firstSlots ++ n.permissions.slots ++ n.lastSlots

/-- The members of a node. -/
def members (n : Node) : List (String × Value) := present n.slots

theorem toJson_eq (n : Node) : n.toJson = .object n.members := by
  obtain ⟨uid, token, owner, permissions, group, children, content, created, modified⟩ := n
  have hchildren : childrenMember (allToJson children) =
      memberOf "e" (if children.isEmpty then none else some (.array (allToJson children))) := by
    cases children <;> rfl
  have huid : memberOf "uid" (some (.string uid)) = [("uid", .string uid)] := rfl
  rw [toJson, members, slots, present_append, present_append, present_slots, hchildren]
  simp only [present, firstSlots, lastSlots, contentMembers, stringMember, List.flatMap_cons,
    List.flatMap_nil, List.append_assoc, List.append_nil, List.cons_append, List.nil_append, huid]

theorem nodup_keys (n : Node) : (n.members.map Prod.fst).Nodup := by
  have hslots : (n.slots.map Prod.fst).Nodup := by
    have hnames : n.slots.map Prod.fst = (ofUid "").slots.map Prod.fst := rfl
    rw [hnames]
    decide
  exact (keys_present n.slots).nodup hslots

theorem mem_keys_memberName {n : Node} {p : Permission} :
    memberName p ∈ n.members.map Prod.fst ↔ n.permissions.has p = true := by
  unfold members
  rw [mem_keys_present]
  cases p <;> simp [slots, firstSlots, lastSlots, Permissions.slots, memberName,
    Permission.letter, Permission.all]

theorem mem_keys_children {n : Node} : "e" ∈ n.members.map Prod.fst ↔ n.children ≠ [] := by
  unfold members
  rw [mem_keys_present]
  simp [slots, firstSlots, lastSlots, Permissions.slots, memberName, Permission.letter,
    Permission.all]

/-! ### Plain nodes -/

mutual

/-- Whether a node, and all that hangs from it, has no numbers, and times in years of four digits
outside of leap seconds. -/
def isPlain : Node → Bool
  | ⟨_, _, _, _, _, children, content, created, modified⟩ =>
    content.n1.isNone && content.n2.isNone && created.all (fun t => decide t.IsOrdinary) &&
      modified.all (fun t => decide t.IsOrdinary) && arePlain children

/-- Whether these nodes are plain. -/
def arePlain : List Node → Bool
  | [] => true
  | n :: ns => isPlain n && arePlain ns

end

mutual

/-- How deep the children of a node are nested. -/
def depth : Node → Nat
  | ⟨_, _, _, _, _, children, _, _, _⟩ => depthOfAll children

/-- How deep these nodes are nested as children of another. -/
def depthOfAll : List Node → Nat
  | [] => 0
  | n :: ns => max (depth n + 1) (depthOfAll ns)

end

theorem depth_eq (n : Node) : n.depth = depthOfAll n.children := by
  cases n
  rfl

theorem isPlain_iff {n : Node} :
    n.isPlain = true ↔ (n.content.n1 = none ∧ n.content.n2 = none) ∧
      (∀ t, n.created = some t → t.IsOrdinary) ∧ (∀ t, n.modified = some t → t.IsOrdinary) ∧
        arePlain n.children = true := by
  obtain ⟨uid, token, owner, permissions, group, children, content, created, modified⟩ := n
  simp only [isPlain, Bool.and_eq_true, Option.isNone_iff_eq_none, Option.all_eq_true,
    decide_eq_true_eq, and_assoc]

theorem isNumberless_members {n : Node} (hn1 : n.content.n1 = none) (hn2 : n.content.n2 = none)
    (hchildren : Value.areNumberless (allToJson n.children) = true) :
    Value.membersNumberless n.members = true := by
  have hpermissions : (n.permissions.slots.all fun m => m.2.all Value.isNumberless) = true := by
    refine List.all_eq_true.2 fun m hm => ?_
    obtain ⟨p, -, rfl⟩ := List.mem_map.1 hm
    simp only
    split <;> rfl
  have hnested : (if n.children.isEmpty then none else
      some (Value.array (allToJson n.children))).all Value.isNumberless = true := by
    split
    · rfl
    · exact hchildren
  refine membersNumberless_present ?_
  rw [slots, List.all_append, List.all_append, hpermissions]
  have htext : ∀ x : Option String, (x.map .string).all Value.isNumberless = true :=
    all_isNumberless_map fun _ => rfl
  have htime : ∀ x : Option Timestamp, (x.map timestampValue).all Value.isNumberless = true :=
    all_isNumberless_map fun _ => rfl
  have howner := all_isNumberless_map
    (f := fun uid => .object [("uid", .string uid)]) (fun _ => rfl) n.owner
  simp only [firstSlots, lastSlots, List.all_cons, List.all_nil, Option.all_some, Option.map_none,
    Option.all_none, hn1, hn2, htext, htime, howner, hnested, Bool.and_true, Value.isNumberless]

mutual

/-- Plain nodes are written without numbers. -/
theorem isNumberless_toJson : ∀ n : Node, n.isPlain = true → n.toJson.isNumberless = true
  | ⟨uid, token, owner, permissions, group, children, content, created, modified⟩, h => by
    obtain ⟨⟨hn1, hn2⟩, -, -, hchildren⟩ := isPlain_iff.1 h
    rw [toJson_eq]
    exact isNumberless_members hn1 hn2 (areNumberless_allToJson children hchildren)

theorem areNumberless_allToJson : ∀ ns : List Node, arePlain ns = true →
    Value.areNumberless (allToJson ns) = true
  | [], _ => rfl
  | n :: ns, h => by
    obtain ⟨hn, hns⟩ := Bool.and_eq_true_iff.1 h
    exact Bool.and_eq_true_iff.2 ⟨isNumberless_toJson n hn, areNumberless_allToJson ns hns⟩

end

/-! ### Reading a node -/

section Reads

variable {children : Doc → Except Failure (List Node)} {limit : Nat} {d d' : Draft}
  {slots : List (String × Option Value)}

theorem reads_text {name : String} {set : Option String → Draft → Draft} {x : Option String}
    (hfield : (Draft.fields children).find? (fun f => f.name = name) =
      some (.free name (Shape.optional Shape.string) set))
    (hstart : set none d = d)
    (h : Shape.Reads (Draft.fields children) Draft.other limit (set x d) (present slots) d') :
    Shape.Reads (Draft.fields children) Draft.other limit d
      (present ((name, x.map .string) :: slots)) d' :=
  reads_optional hfield (fun _ _ => rfl) hstart h

theorem reads_time {name : String} {set : Option Timestamp → Draft → Draft} {x : Option Timestamp}
    (hfield : (Draft.fields children).find? (fun f => f.name = name) =
      some (.free name (Shape.optional (Shape.stringOf timestampOf)) set))
    (hx : ∀ t, x = some t → t.IsOrdinary) (hstart : set none d = d)
    (h : Shape.Reads (Draft.fields children) Draft.other limit (set x d) (present slots) d') :
    Shape.Reads (Draft.fields children) Draft.other limit d
      (present ((name, x.map timestampValue) :: slots)) d' := by
  refine reads_optional hfield (fun t ht => ?_) hstart h
  have hmeaning : timestampOf (String.ofList t.text) = some t := by
    rw [timestampOf, String.toList_ofList, Timestamp.parse?_text (hx t ht)]
  have hstring : Shape.stringOf timestampOf limit (timestampValue t).doc = .ok t := by
    have hdoc : Shape.string limit (timestampValue t).doc = .ok (String.ofList t.text) := rfl
    unfold Shape.stringOf
    rw [hdoc]
    simp only [bind, Except.bind, hmeaning]
  have hoptional : Shape.optional (Shape.stringOf timestampOf) limit (timestampValue t).doc =
      (do return some (← Shape.stringOf timestampOf limit (timestampValue t).doc)) := rfl
  rw [hoptional, hstring]
  rfl

theorem reads_children {cs : List Node}
    (hstart : { d with node := { d.node with children := [] } } = d)
    (hread : children (.array (Value.docs (allToJson cs))) = .ok cs)
    (h : Shape.Reads (Draft.fields children) Draft.other limit
      { d with node := { d.node with children := cs } } (present slots) d') :
    Shape.Reads (Draft.fields children) Draft.other limit d
      (present (("e", if cs.isEmpty then none else some (.array (allToJson cs))) :: slots)) d' := by
  cases cs with
  | nil =>
    rw [hstart] at h
    exact h
  | cons c cs =>
    refine .cons ?_ h
    have htake : Shape.take (Draft.fields children) Draft.other limit d
        ("e", .array (allToJson (c :: cs))) =
          (do return { d with node := { d.node with
            children := ← children (.array (Value.docs (allToJson (c :: cs)))) } }) := rfl
    rw [htake, hread]
    rfl

theorem reads_permissions (s : Permissions) (ps : List Permission) (d : Draft) :
    Shape.Reads (Draft.fields children) Draft.other limit d (s.flags ps)
      { d with permissions := d.permissions ++ Value.memberDocs (s.flags ps) } := by
  induction ps generalizing d with
  | nil =>
    simp only [flags, List.map_nil, Value.memberDocs, List.append_nil]
    exact .nil
  | cons p ps ih =>
    have hp : Shape.take (Draft.fields children) Draft.other limit d
        (memberName p, .bool (s.has p)) =
          .ok { d with permissions :=
            d.permissions ++ [(some (memberName p), .bool (s.has p))] } := by
      cases p <;> rfl
    have hrest := ih { d with permissions :=
      d.permissions ++ [(some (memberName p), .bool (s.has p))] }
    simp only [List.append_assoc] at hrest
    exact .cons hp hrest

/-- **The members of a node**, one after the other. -/
theorem reads_members {n : Node} (hplain : n.isPlain = true)
    (hread : children (.array (Value.docs (allToJson n.children))) = .ok n.children) :
    Shape.Reads (Draft.fields children) Draft.other (limit + 1) Draft.empty n.members
      ⟨{ n with permissions := .none }, Value.memberDocs n.permissions.members⟩ := by
  obtain ⟨⟨hn1, hn2⟩, hcreated, hmodified, -⟩ := isPlain_iff.1 hplain
  have hfirst : Shape.Reads (Draft.fields children) Draft.other (limit + 1) Draft.empty
      (present n.firstSlots) ⟨{ ofUid n.uid with token := n.token, owner := n.owner }, []⟩ :=
    .cons rfl (reads_text rfl rfl (reads_optional rfl (fun _ _ => rfl) rfl .nil))
  have hlast : ∀ docs, Shape.Reads (Draft.fields children) Draft.other (limit + 1)
      ⟨{ ofUid n.uid with token := n.token, owner := n.owner }, docs⟩ (present n.lastSlots)
      ⟨{ n with permissions := .none }, docs⟩ := by
    intro docs
    refine reads_text rfl rfl (reads_children rfl hread ?_)
    iterate 8
      refine reads_text rfl rfl ?_
    -- a number would have to come back from its decimal text; there is none
    refine reads_optional rfl (fun x hx => ?_) rfl (reads_optional rfl (fun x hx => ?_) rfl ?_)
    · rw [hn1] at hx
      cases hx
    · rw [hn2] at hx
      cases hx
    · exact reads_time rfl hcreated rfl (reads_time rfl hmodified rfl .nil)
  unfold members slots
  rw [present_append, present_append, present_slots, members_eq_flags]
  exact (hfirst.append (reads_permissions n.permissions _ _)).append (hlast _)

theorem required_fields : ∀ f ∈ Draft.fields children, f.required = false := by
  simp [Draft.fields, Draft.content?, Draft.node?, Shape.Field.free]

end Reads

/-! ### What could be left out -/

/-- Members that say what could be left out: permissions that are not granted, and, if `bare`, that
there are no children. -/
def idle (refused : List Permission) (bare : Bool) : List (String × Value) :=
  (refused.map fun p => (memberName p, .bool false)) ++ if bare then [("e", .array [])] else []

/-- The node leaves out these permissions and, if `bare`, its children. -/
structure LeavesOut (n : Node) (refused : List Permission) (bare : Bool) : Prop where
  nodup : refused.Nodup
  has : ∀ p ∈ refused, n.permissions.has p = false
  children : bare = true → n.children = []

theorem membersNumberless_idle (refused : List Permission) (bare : Bool) :
    Value.membersNumberless (idle refused bare) = true := by
  induction refused with
  | nil => cases bare <;> rfl
  | cons p refused ih => exact Bool.and_eq_true_iff.2 ⟨rfl, ih⟩

theorem keys_idle (refused : List Permission) (bare : Bool) :
    (idle refused bare).map Prod.fst = refused.map memberName ++ if bare then ["e"] else [] := by
  unfold idle
  rw [List.map_append, List.map_map]
  cases bare <;> rfl

namespace LeavesOut

variable {n : Node} {refused : List Permission} {bare : Bool}

theorem nodup_keys (h : n.LeavesOut refused bare) :
    ((n.members ++ idle refused bare).map Prod.fst).Nodup := by
  have hletters : ∀ p, memberName p ≠ "e" := by
    intro p
    cases p <;> decide
  have hempty : (if bare then ["e"] else []).Nodup := by
    cases bare <;> decide
  have hbare : ∀ k ∈ (if bare then ["e"] else []), bare = true ∧ k = "e" := by
    cases bare <;> simp
  rw [List.map_append, keys_idle, List.nodup_append, List.nodup_append]
  refine ⟨n.nodup_keys, ⟨nodup_memberName h.nodup, hempty, fun k hk l hl => ?_⟩,
    fun k hk l hl => ?_⟩
  · obtain ⟨p, -, rfl⟩ := List.mem_map.1 hk
    rw [(hbare l hl).2]
    exact hletters p
  · rintro rfl
    rcases List.mem_append.1 hl with hl | hl
    · obtain ⟨p, hp, rfl⟩ := List.mem_map.1 hl
      have hgranted := mem_keys_memberName.1 hk
      rw [h.has p hp] at hgranted
      cases hgranted
    · obtain ⟨hb, rfl⟩ := hbare k hl
      exact mem_keys_children.1 hk (h.children hb)

theorem nodup_permissions (h : n.LeavesOut refused bare) :
    (Permission.all.filter n.permissions.has ++ refused).Nodup := by
  have hdistinct : Permission.all.Nodup := by decide
  refine List.nodup_append.2 ⟨hdistinct.filter _, h.nodup, fun p hp q hq => ?_⟩
  rintro rfl
  have hp := (List.mem_filter.1 hp).2
  rw [h.has p hq] at hp
  cases hp

variable {children : Doc → Except Failure (List Node)} {limit : Nat}

theorem reads_idle (h : n.LeavesOut refused bare)
    (hread : children (.array (Value.docs (allToJson n.children))) = .ok n.children)
    (ps : List Permission) :
    Shape.Reads (Draft.fields children) Draft.other limit
      ⟨{ n with permissions := .none }, Value.memberDocs (n.permissions.flags ps)⟩
      (idle refused bare)
      ⟨{ n with permissions := .none },
        Value.memberDocs (n.permissions.flags (ps ++ refused))⟩ := by
  have hflags : refused.map (fun p => (memberName p, Value.bool false)) =
      n.permissions.flags refused :=
    List.map_congr_left fun p hp => by rw [h.has p hp]
  have hdocs : Value.memberDocs (n.permissions.flags (ps ++ refused)) =
      Value.memberDocs (n.permissions.flags ps) ++
        Value.memberDocs (n.permissions.flags refused) := by
    rw [flags, List.map_append, Value.memberDocs_append]
    rfl
  unfold idle
  rw [hflags, hdocs]
  refine (reads_permissions n.permissions refused _).append ?_
  cases bare with
  | false => exact .nil
  | true =>
    have hnone := h.children rfl
    have htake : ∀ docs, Shape.take (Draft.fields children) Draft.other limit
        ⟨{ n with permissions := .none }, docs⟩ ("e", .array []) =
          (do return ⟨{ n with permissions := .none, children := ← children (.array []) },
            docs⟩) := fun _ => rfl
    have hempty : children (.array []) = .ok [] := by
      rwa [hnone] at hread
    refine .cons ?_ .nil
    rw [htake, hempty, hnone]
    rfl

/-- A node is read from its members and any that could be left out. -/
theorem read_members (h : n.LeavesOut refused bare) (hplain : n.isPlain = true)
    (hread : children (.array (Value.docs (allToJson n.children))) = .ok n.children) :
    Draft.read (limit + 1) children (Value.memberDocs (n.members ++ idle refused bare)) =
      .ok n := by
  have hall : ∀ p, n.permissions.has p = true →
      p ∈ Permission.all.filter n.permissions.has ++ refused := fun p hp =>
    List.mem_append_left _ (List.mem_filter.2 ⟨Permission.mem_all p, hp⟩)
  have hfinish : Draft.finish ⟨{ n with permissions := .none }, Value.memberDocs
      (n.permissions.flags (Permission.all.filter n.permissions.has ++ refused))⟩ = .ok n := by
    unfold Draft.finish
    rw [members_flags h.nodup_permissions hall]
    cases n
    rfl
  have hmembers : Shape.Reads (Draft.fields children) Draft.other (limit + 1) Draft.empty n.members
      ⟨{ n with permissions := .none }, Value.memberDocs n.permissions.members⟩ :=
    reads_members hplain hread
  rw [members_eq_flags] at hmembers
  unfold Draft.read
  rw [Shape.members_memberDocs required_fields h.nodup_keys fun _ _ => List.not_mem_nil,
    hmembers.append (h.reads_idle hread _)]
  exact hfinish

/-- The same of a document, if the children are read with less nesting. -/
theorem shape_members (h : n.LeavesOut refused bare) (hplain : n.isPlain = true)
    (hread : (Value.docs (allToJson n.children)).mapM (shape limit) = .ok n.children) :
    shape (limit + 2) (Value.object (n.members ++ idle refused bare)).doc = .ok n := by
  rw [Value.doc, shape]
  exact h.read_members hplain hread

end LeavesOut

/-! ### Whole nodes -/

mutual

/-- **The document of a plain node** is read as that node, as far as the nesting is allowed. -/
theorem shape_doc : ∀ n : Node, n.isPlain = true → ∀ limit, 2 * n.depth ≤ limit →
    shape (limit + 2) n.toJson.doc = .ok n
  | ⟨uid, token, owner, permissions, group, children, content, created, modified⟩, h, limit,
      hlimit => by
    have hread : (Value.docs (allToJson children)).mapM (shape limit) = .ok children := by
      obtain ⟨-, -, -, hall⟩ := isPlain_iff.1 h
      exact mapM_doc children hall limit hlimit
    have hidle : idle [] false = [] := rfl
    have hnothing : LeavesOut ⟨uid, token, owner, permissions, group, children, content, created,
      modified⟩ [] false := ⟨List.nodup_nil, nofun, nofun⟩
    rw [toJson_eq, ← List.append_nil (members _), ← hidle]
    exact hnothing.shape_members h hread

/-- The documents of plain nodes, one after the other. -/
theorem mapM_doc : ∀ ns : List Node, arePlain ns = true → ∀ limit,
    2 * depthOfAll ns ≤ limit → (Value.docs (allToJson ns)).mapM (shape limit) = .ok ns
  | [], _, _, _ => rfl
  | n :: ns, h, limit, hlimit => by
    obtain ⟨hn, hns⟩ := Bool.and_eq_true_iff.1 h
    rw [depthOfAll] at hlimit
    -- the object of a node is one level of nesting, and the list that it is in another
    obtain ⟨less, rfl⟩ : ∃ less, limit = less + 2 := ⟨limit - 2, by omega⟩
    have hfirst := shape_doc n hn less (by omega)
    have hrest := mapM_doc ns hns (less + 2) (by omega)
    rw [allToJson, Value.docs, List.mapM_cons, hfirst, hrest]
    rfl

end

/-- **A plain node is read back** from its text as it was, with all that hangs from it, down to the
depth that a text may have. A permission has a member if and only if it is granted, and there is a
member for children if and only if there are some; to say otherwise in so many words, by `false` or
an empty list, is the same as to leave them out. -/
theorem json_exact {n : Node} (hplain : n.isPlain = true) (hdepth : n.depth ≤ 62) :
    read shape n.toJson.render = .ok n ∧
      ∃ members, n.toJson = .object members ∧
        (∀ p, memberName p ∈ members.map Prod.fst ↔ n.permissions.has p = true) ∧
        ("e" ∈ members.map Prod.fst ↔ n.children ≠ []) ∧
        ∀ refused bare, n.LeavesOut refused bare →
          read shape (Value.object (members ++ idle refused bare)).render = .ok n := by
  have hlimit : 2 * n.depth ≤ 125 := by omega
  have hnumberless := isNumberless_toJson n hplain
  have hmembers : Value.membersNumberless n.members = true := by
    rwa [toJson_eq] at hnumberless
  have hread : (Value.docs (allToJson n.children)).mapM (shape 125) = .ok n.children := by
    obtain ⟨-, -, -, hchildren⟩ := isPlain_iff.1 hplain
    rw [depth_eq] at hlimit
    exact mapM_doc n.children hchildren 125 hlimit
  refine ⟨read_render hnumberless (shape_doc n hplain 125 hlimit), n.members, toJson_eq n,
    fun p => mem_keys_memberName, mem_keys_children, fun refused bare h => ?_⟩
  refine read_render ?_ (h.shape_members hplain hread)
  rw [Value.isNumberless, Value.membersNumberless_append, hmembers, membersNumberless_idle]
  rfl

/-- A node with characters that need escapes, with times, and with children of its own kind. -/
def nested : Node :=
  { ofUid "\x01\"\\\u00e9" with
    token := some ""
    owner := some "u\n"
    permissions := ⟨true, false, true, false, false, true⟩
    children := [{ ofUid "a" with children := [ofUid "b"] }, { ofUid "c" with group := some "" }]
    content := { Content.empty with s1 := some "\t", blob := some "" }
    created := some ⟨-1, 1⟩
    modified := some ⟨253402300799, 999999999⟩ }

theorem json_exact_nested : nested.isPlain = true ∧ nested.depth = 2 ∧
    read shape nested.toJson.render = .ok nested :=
  ⟨by decide, by decide, (json_exact (by decide) (by decide)).1⟩

end Node

end SealedGraph
