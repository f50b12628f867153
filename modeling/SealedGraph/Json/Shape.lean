import SealedGraph.Json.Doc
import SealedGraph.Json.Value

/-!
# Shapes

What a text has to look like to be read as a value of some type. A shape walks a document in the
order of the text, and the first problem decides: a fault of the text itself, or a value of the
wrong kind. Arrays and objects may be nested 127 deep in the parts that are read; parts that are
skipped may be nested to any depth, and may name what no string or number can be.

A record is an object of known members in any order, each at most once, or an array of their values
in the order of the fields, from whose end those may be missing that need not be there.
-/

namespace SealedGraph.Json

/-- Why a text is not read. -/
inductive Failure
  /-- the text is not JSON -/
  | malformed
  /-- the text is JSON so far, of another shape -/
  | mismatch
  deriving DecidableEq, Repr

/-- How to read a document, given how much deeper arrays and objects may be nested. -/
abbrev Shape (α : Type) := Nat → Doc → Except Failure α

/-- The nesting that a text may have in the parts that are read. -/
def maxNesting : Nat := 127

namespace Doc

mutual

/-- Whether the text is without fault in a part that is skipped. -/
def isWhole : Doc → Bool
  | .broken => false
  | .array items => areWhole items
  | .object members => membersWhole members
  | _ => true

/-- Whether the text is without fault in these items. -/
def areWhole : List Doc → Bool
  | [] => true
  | d :: ds => isWhole d && areWhole ds

/-- Whether the text is without fault in these members. -/
def membersWhole : List (Option String × Doc) → Bool
  | [] => true
  | (_, d) :: ms => isWhole d && membersWhole ms

end

/-- What is wrong with a document that has another shape than expected: strings and numbers have to
be in order before their kind can be. -/
def failure : Doc → Failure
  | .broken => .malformed
  | .number none => .malformed
  | .string none => .malformed
  | _ => .mismatch

end Doc

/-- The members with one more behind them, in the place of an earlier one of the same name. -/
def setMember (name : String) (v : Value) : List (String × Value) → List (String × Value)
  | [] => [(name, v)]
  | (k, w) :: ms => if k = name then (k, v) :: ms else (k, w) :: setMember name v ms

namespace Shape

mutual

/-- Any value. -/
def any : Nat → Doc → Except Failure Value
  | _, .null => .ok .null
  | _, .bool b => .ok (.bool b)
  | _, .number (some n) => .ok (.number n)
  | _, .string (some s) => .ok (.string s)
  | limit + 1, .array items => return .array (← anyItems limit items)
  | limit + 1, .object members => return .object (← anyMembers limit [] members)
  | _, _ => .error .malformed

/-- Any values, one after the other. -/
def anyItems : Nat → List Doc → Except Failure (List Value)
  | _, [] => .ok []
  | limit, d :: ds => do
    let v ← any limit d
    return v :: (← anyItems limit ds)

/-- Members with any values; of two with one name the later one counts. -/
def anyMembers : Nat → List (String × Value) → List (Option String × Doc) →
    Except Failure (List (String × Value))
  | _, before, [] => .ok before
  | limit, before, (some k, d) :: ms => do
    let v ← any limit d
    anyMembers limit (setMember k v before) ms
  | _, _, (none, _) :: _ => .error .malformed

end

/-- Any value, which is then forgotten. -/
def skip : Shape Unit := fun _ d => if d.isWhole then .ok () else .error .malformed

/-- A string. -/
def string : Shape String
  | _, .string (some s) => .ok s
  | _, d => .error d.failure

/-- A truth value. -/
def bool : Shape Bool
  | _, .bool b => .ok b
  | _, d => .error d.failure

/-- A natural number that fits an unsigned word of `w` bits. -/
def word (w : Nat) : Shape Nat
  | _, .number (some (.integer i)) =>
    if 0 ≤ i ∧ i ≤ Text.maxUnsigned w then .ok i.toNat else .error .mismatch
  | _, d => .error d.failure

/-- A number of double precision, for which an integer may stand. -/
def double : Shape Double
  | _, .number (some (.double x)) => .ok x
  | _, .number (some (.integer i)) =>
    .ok (if 0 ≤ i then .ofNat i.toNat else (Double.ofNat i.natAbs).neg)
  | _, d => .error d.failure

/-- A string with a meaning. -/
def stringOf {α : Type} (meaning : String → Option α) : Shape α := fun limit d => do
  match meaning (← string limit d) with
  | some x => .ok x
  | none => .error .mismatch

/-- A value, or `null` for none. -/
def optional {α : Type} (shape : Shape α) : Shape (Option α)
  | _, .null => .ok none
  | limit, d => return some (← shape limit d)

/-- An array. -/
def list {α : Type} (shape : Shape α) : Shape (List α)
  | limit + 1, .array items => items.mapM (shape limit)
  | 0, .array _ => .error .malformed
  | _, d => .error d.failure

/-- A member of a record, and what it does to a record under construction. -/
structure Field (σ : Type) where
  name : String
  required : Bool
  read : Nat → Doc → σ → Except Failure σ

namespace Field

variable {σ α : Type}

/-- A field that may be missing. -/
def free (name : String) (shape : Shape α) (set : α → σ → σ) : Field σ :=
  ⟨name, false, fun limit d s => return set (← shape limit d) s⟩

/-- A field that has to be there. -/
def needed (name : String) (shape : Shape α) (set : α → σ → σ) : Field σ :=
  ⟨name, true, fun limit d s => return set (← shape limit d) s⟩

end Field

section Record

variable {σ : Type}

/-- The members of an object, after members with the names `seen`; `other` takes those that are no
field. -/
def members (fields : List (Field σ)) (other : Nat → String → Doc → σ → Except Failure σ)
    (limit : Nat) : List String → σ → List (Option String × Doc) → Except Failure σ
  | seen, s, [] =>
    if fields.all fun f => !f.required || seen.contains f.name then .ok s else .error .mismatch
  | _, _, (none, _) :: _ => .error .malformed
  | seen, s, (some k, d) :: ms =>
    match fields.find? fun f => f.name = k with
    | some f =>
      if seen.contains k then .error .mismatch
      else do
        let s ← f.read limit d s
        members fields other limit (k :: seen) s ms
    | none => do
      let s ← other limit k d s
      members fields other limit seen s ms

/-- The items of an array that stands for an object. -/
def items (limit : Nat) : List (Field σ) → σ → List Doc → Except Failure σ
  | [], s, [] => .ok s
  | [], _, _ :: _ => .error .malformed
  | f :: fs, s, [] => if f.required then .error .mismatch else items limit fs s []
  | f :: fs, s, d :: ds => do
    let s ← f.read limit d s
    items limit fs s ds

/-- Skips a member that is no field. -/
def ignore (limit : Nat) (_ : String) (d : Doc) (s : σ) : Except Failure σ := do
  skip limit d
  return s

/-- A record with the given fields, built from `start`. -/
def record (fields : List (Field σ)) (start : σ) : Shape σ
  | limit + 1, .object ms => members fields ignore limit [] start ms
  | limit + 1, .array ds => items limit fields start ds
  | 0, .object _ => .error .malformed
  | 0, .array _ => .error .malformed
  | _, d => .error d.failure

end Record

end Shape

/-- The value of a text that has a shape and nothing behind it. -/
def read {α : Type} (shape : Shape α) (text : String) : Except Failure α := do
  let (doc, trailing) := Doc.build [] .value (Token.ofText text.toList)
  let x ← shape maxNesting doc
  if trailing then .error .malformed else .ok x

end SealedGraph.Json
