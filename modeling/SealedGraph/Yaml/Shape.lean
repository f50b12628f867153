import SealedGraph.Yaml.Document
import SealedGraph.Yaml.Meaning

/-!
# Shapes of documents

What a value has to look like to be read as a value of some type. Where a text is wanted every
scalar is one; where something else is wanted the scalar has to be plain, or a block of lines with
the tag of that kind. A record is a mapping of known members, each at most once, whose other members
do not matter; a value that is left out is a record without members.
-/

namespace SealedGraph.Yaml

/-- How to read a value of a document. -/
abbrev Shape (α : Type) := Document → Tree Nat → Option α

/-- The tags of the kinds of scalars. -/
inductive Kind
  | null | truth | integer | decimal
  deriving DecidableEq

/-- The name of a tag. -/
def Kind.tag : Kind → String
  | null => "tag:yaml.org,2002:null"
  | truth => "tag:yaml.org,2002:bool"
  | integer => "tag:yaml.org,2002:int"
  | decimal => "tag:yaml.org,2002:float"

namespace Shape

variable {α : Type}

/-- A text. -/
def text : Shape String := fun d t =>
  match d.follow t with
  | .scalar _ _ _ s => some s
  | _ => none

/-- The text of a scalar of some kind. -/
def literal? (kind : Kind) (d : Document) (t : Tree Nat) : Option String :=
  match d.follow t with
  | .scalar _ tag style s =>
    if style = .plain ∨ style = .literal ∧ tag = some kind.tag then some s else none
  | _ => none

/-- A truth value. -/
def truth : Shape Bool := fun d t => (literal? .truth d t).bind Meaning.truth?

/-- A number that fits an unsigned word of `w` bits. -/
def word (w : Nat) : Shape Nat := fun d t => do
  let s ← literal? .integer d t
  let n ← match s.toList with
    | '+' :: cs => Meaning.natural? cs
    | cs => Meaning.natural? cs
  if n ≤ Text.maxUnsigned w then some n else none

/-- Whether a value is there: it is not if it is plain and empty or a spelling of nothing. With the
tag of nothing it has to be such a spelling. -/
def isThere? : Tree Nat → Option Bool
  | .scalar _ tag .plain s =>
    match tag with
    | some tag =>
      if tag ≠ Kind.null.tag then some true
      else if Meaning.nulls.contains s then some false
      else none
    | none => some (s ≠ "" && !Meaning.nulls.contains s)
  | _ => some true

/-- A value that need not be there. -/
def option (shape : Shape α) : Shape (Option α) := fun d t => do
  if ← isThere? (d.follow t) then return some (← shape d t) else return none

/-- The members of a record. -/
def members : Shape (List (String × Tree Nat)) := fun d t =>
  match d.follow t with
  | .mapping _ _ pairs => pairs.mapM fun (k, v) => do return (← text d k, v)
  | .scalar _ _ .plain "" => some []
  | _ => none

/-- The value of a member, which is at most once there, or else a default. -/
def member (ms : List (String × Tree Nat)) (name : String) (shape : Shape α) (default : α)
    (d : Document) : Option α :=
  match ms.filter fun m => m.1 = name with
  | [] => some default
  | [(_, t)] => shape d t
  | _ => none

/-! ## Any value -/

/-- How deep collections may be nested. -/
def maxNesting : Nat := 128

/-- How many aliases may be followed for each mark of a document. -/
def followsPerMark : Nat := 100

/-- A tag that stands for a kind of the document's own. -/
def isOwnTag (tag : Option String) : Bool := tag.any fun t => t.toList.head? = some '!'

/-- The meaning of a scalar, unless a tag asks for a kind that it is not of. -/
def meaning? (tag : Option String) (style : Style) (s : String) : Option Meaning :=
  if isOwnTag tag then none
  else if tag = some Kind.truth.tag then (Meaning.truth? s).map .truth
  else if tag = some Kind.integer.tag then
    match Meaning.integer? s.toList with
    | some i => if Meaning.fitsWords 1 i then some (.integer i) else none
    | none => none
  else if tag = some Kind.decimal.tag then
    if Meaning.isDecimal s.toList then some .decimal else none
  else if tag = some Kind.null.tag then if Meaning.nulls.contains s then some .null else none
  else if tag = none ∧ style = .plain then
    match Meaning.ofPlain s with
    | .wide => none
    | m => some m
  else some .text

mutual

/-- The number of aliases that may still be followed after a value with all that it holds was read:
collections are nested no deeper than `depth`, and every scalar has a meaning. -/
def sound (d : Document) : (depth : Nat) → (follows : Nat) → Tree Nat → Option Nat
  | depth, follows, t =>
    match t, depth with
    | .scalar _ tag style s, _ => (meaning? tag style s).map fun _ => follows
    | .sequence _ tag items, depth + 1 =>
      if isOwnTag tag then none else soundItems d depth follows items
    | .mapping _ tag pairs, depth + 1 =>
      if isOwnTag tag then none else soundPairs d depth follows pairs
    | .alias n, depth =>
      match follows, d.follow (.alias n), depth with
      | follows + 1, .scalar _ tag style s, _ => (meaning? tag style s).map fun _ => follows
      | follows + 1, .sequence _ tag items, depth + 1 =>
        if isOwnTag tag then none else soundItems d depth follows items
      | follows + 1, .mapping _ tag pairs, depth + 1 =>
        if isOwnTag tag then none else soundPairs d depth follows pairs
      | _, _, _ => none
    | _, _ => none
termination_by depth _ t => (depth, sizeOf t)

/-- `sound` for the items of a sequence. -/
def soundItems (d : Document) : (depth : Nat) → (follows : Nat) → List (Tree Nat) → Option Nat
  | _, follows, [] => some follows
  | depth, follows, t :: ts => do soundItems d depth (← sound d depth follows t) ts
termination_by depth _ ts => (depth, sizeOf ts)

/-- `sound` for the pairs of a mapping. -/
def soundPairs (d : Document) : (depth : Nat) → (follows : Nat) →
    List (Tree Nat × Tree Nat) → Option Nat
  | _, follows, [] => some follows
  | depth, follows, (k, v) :: ps => do
    soundPairs d depth (← sound d depth (← sound d depth follows k) v) ps
termination_by depth _ ps => (depth, sizeOf ps)

end

/-- The meaning of any value that lies `depth` collections deep; none for a collection. -/
def any (depth : Nat) : Shape (Option (Meaning × String)) := fun d t => do
  let _ ← sound d (maxNesting - depth) (followsPerMark * d.root.marks) t
  match d.follow t with
  | .scalar _ tag style s => return some (← meaning? tag style s, s)
  | _ => return none

end Shape

/-- The value of a text of some shape. -/
def read {α : Type} (shape : Shape α) (text : String) : Option α := do
  let d ← Document.ofText? text.toList
  shape d d.root

end SealedGraph.Yaml
