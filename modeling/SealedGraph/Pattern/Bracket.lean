import SealedGraph.Pattern.Escape

/-!
# Sets of characters in brackets

Single characters, ranges, classes by name and further sets, with operations between them that are
done from the left. A closing bracket that comes first is a member, and so is a hyphen that comes
first, last or before another one.
-/

namespace SealedGraph.Pattern

/-- The names of the classes of ASCII. -/
def asciiNames : List (List Char) :=
  ["alnum", "alpha", "ascii", "blank", "cntrl", "digit", "graph", "lower", "print", "punct",
    "space", "upper", "word", "xdigit"].map String.toList

/-- Reads a class by its name from behind the bracket, and answers whether it is negated. -/
def asciiClass? : List Char → Option (Bool × List Char)
  | ':' :: cs =>
    let (negated, cs) := match cs with
      | '^' :: cs => (true, cs)
      | cs => (false, cs)
    match cs.dropWhile (· ≠ ':') with
    | ':' :: ']' :: rest =>
      if asciiNames.contains (cs.takeWhile (· ≠ ':')) then some (negated, rest) else none
    | _ => none
  | _ => none

/-- A set that is being read. -/
structure Bracket where
  negated : Bool
  /-- what stands before the last operation -/
  left : Option Members
  /-- the members since then, last first -/
  members : List Members

namespace Bracket

/-- One more member. -/
def add (m : Members) (b : Bracket) : Bracket := { b with members := m :: b.members }

/-- All the members. -/
def all (b : Bracket) : Members :=
  let right := Members.ofList b.members.reverse
  match b.left with
  | none => right
  | some left => .combined left right

/-- An operation between the members so far and those to come. -/
def operate (b : Bracket) : Bracket := { b with left := some b.all, members := [] }

/-- Reads the hyphens in front of all other members. -/
def hyphens (spaced : Bool) (b : Bracket) : List Char → Bracket × List Char
  | '-' :: cs => hyphens spaced (b.add (.letter '-')) (skip spaced cs)
  | cs => (b, cs)
termination_by cs => cs.length
decreasing_by exact Nat.lt_succ_of_le (length_skip_le spaced cs)

/-- Reads the start of a set from behind its bracket. -/
def open? (spaced : Bool) (cs : List Char) : Option (Bracket × List Char) :=
  let (negated, cs) := match skip spaced cs with
    | '^' :: cs => (true, skip spaced cs)
    | cs => (false, cs)
  match hyphens spaced ⟨negated, none, []⟩ cs with
  | (_, []) => none
  | (b, ']' :: cs) =>
    if b.members.isEmpty then
      let cs := skip spaced cs
      if cs.isEmpty then none else some (b.add (.letter ']'), cs)
    else some (b, ']' :: cs)
  | (b, cs) => some (b, cs)

/-- Reads one character, or an escape. -/
def atom? (spaced : Bool) : List Char → Option (Atom × List Char)
  | [] => none
  | '\\' :: cs => escape? spaced cs
  | c :: cs => some (.letter c false, cs)

/-- What an atom is in a set. -/
def ofAtom? : Atom → Option Members
  | .letter c _ => some (.letter c)
  | .kind negated => some (.kind negated)
  | _ => none

/-- Reads a character, an escape or a range; something has to follow it. -/
def member? (spaced : Bool) (cs : List Char) : Option (Members × List Char) := do
  let (first, rest) ← atom? spaced cs
  match skip spaced rest with
  | [] => none
  | '-' :: cs =>
    if next? spaced cs = some ']' ∨ next? spaced cs = some '-' then
      return (← ofAtom? first, '-' :: cs)
    else
      let (last, rest) ← atom? spaced (skip spaced cs)
      match first, last with
      | .letter a _, .letter b _ => if a ≤ b then some (.range a b, rest) else none
      | _, _ => none
  | rest => return (← ofAtom? first, rest)

/-- Reads a set up to its end, within the sets `outer`, last first. Each step reads a character at
least. -/
def read? (spaced : Bool) : (steps : Nat) → (outer : List Bracket) → Bracket → List Char →
    Option (Bracket × List Char)
  | 0, _, _, _ => none
  | steps + 1, outer, b, cs =>
    match skip spaced cs with
    | [] => none
    | '[' :: cs =>
      match asciiClass? cs with
      | some (negated, rest) => read? spaced steps outer (b.add (.ascii negated)) rest
      | none => do
        let (inner, rest) ← open? spaced cs
        read? spaced steps (b :: outer) inner rest
    | ']' :: rest =>
      match outer with
      | [] => some (b, rest)
      | o :: outer => read? spaced steps outer (o.add (.set b.negated b.all)) rest
    | '&' :: '&' :: rest => read? spaced steps outer b.operate rest
    | '-' :: '-' :: rest => read? spaced steps outer b.operate rest
    | '~' :: '~' :: rest => read? spaced steps outer b.operate rest
    | cs => do
      let (m, rest) ← member? spaced cs
      read? spaced steps outer (b.add m) rest

end Bracket

/-- Reads a set from behind its bracket. -/
def bracket? (spaced : Bool) (cs : List Char) : Option (Pattern × List Char) := do
  let (b, rest) ← Bracket.open? spaced cs
  let (b, rest) ← Bracket.read? spaced (cs.length + 1) [] b rest
  return (.set b.negated b.all, rest)

end SealedGraph.Pattern
