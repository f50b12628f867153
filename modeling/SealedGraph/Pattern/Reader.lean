import SealedGraph.Pattern.Bracket
import SealedGraph.Text.Alphanumeric

/-!
# Reading patterns

Patterns from their text: groups with names or flags, choices, repetitions, sets, escapes and single
characters. The text stands between braces, so it holds no closing one; an opening brace would have
to be closed, and so it is a mistake outside of sets.
-/

namespace SealedGraph.Pattern

/-- Reads flags up to a colon or a closing parenthesis, behind the flags `fs`, last first: `on`
before the hyphen behind which they are taken back, `dangling` directly behind it. -/
def flags? : (on dangling : Bool) → (fs : Flags) → List Char → Option (Flags × List Char)
  | _, _, _, [] => none
  | on, dangling, fs, c :: cs =>
    if c = ':' ∨ c = ')' then if dangling then none else some (fs.reverse, c :: cs)
    else if c = '-' then if on then flags? false true fs cs else none
    else match Flag.of? c with
      | some f => if (fs.lookup f).isSome then none else flags? on false ((f, on) :: fs) cs
      | none => none

/-- The marks that may stand in the name of a group behind its first character. -/
def nameMarks : List Char := ['_', '.', '[', ']']

/-- Whether a text is the name of a group. -/
def isName : List Char → Bool
  | [] => false
  | c :: cs =>
    (c = '_' || Text.isAlphabetic c) &&
      cs.all fun d => nameMarks.contains d || Text.isAlphanumeric d

/-- What an opening parenthesis starts. -/
inductive Opening
  | group (fs : Flags)
  | named (name : List Char)
  /-- flags for the rest of the group around -/
  | flags (fs : Flags)
  deriving DecidableEq, Repr

/-- Reads the name of a group and the bracket behind it. -/
def name? (cs : List Char) : Option (Opening × List Char) :=
  let name := cs.takeWhile (· ≠ '>')
  match cs.dropWhile (· ≠ '>') with
  | [] => none
  | _ :: rest => if isName name then some (.named name, rest) else none

/-- Reads what stands behind an opening parenthesis. -/
def opening? (spaced : Bool) (cs : List Char) : Option (Opening × List Char) :=
  match skip spaced cs with
  | '?' :: 'P' :: '<' :: cs => name? cs
  | '?' :: '<' :: cs => name? cs
  | '?' :: cs => do
    let (fs, rest) ← flags? true false [] cs
    match rest with
    | ':' :: rest => return (.group fs, rest)
    | _ :: rest => if fs = [] then none else return (.flags fs, rest)
    | [] => none
  | cs => some (.group [], cs)

/-- A group that is being read. -/
structure Frame where
  flags : Flags
  /-- whether blanks mean nothing behind the group -/
  outside : Bool
  /-- the choices that are read, last first -/
  choices : List Pattern
  /-- the parts of the last choice so far, last first -/
  parts : List Pattern

namespace Frame

/-- The whole text. -/
def whole : Frame := ⟨[], false, [], []⟩

/-- One more part. -/
def add (p : Pattern) (f : Frame) : Frame := { f with parts := p :: f.parts }

/-- One more choice. -/
def choose (f : Frame) : Frame :=
  { f with choices := ofSequence f.parts.reverse :: f.choices, parts := [] }

/-- The pattern in the group. -/
def pattern (f : Frame) : Pattern := ofChoice (f.choose.choices.reverse)

/-- The last part repeated, if there is one. -/
def repeat? (f : Frame) : Option Frame :=
  match f.parts with
  | [] => none
  | .flags _ :: _ => none
  | p :: ps => some { f with parts := .repeated p :: ps }

end Frame

/-- How far a pattern is read. -/
structure Progress where
  /-- the groups around, last first -/
  outer : List Frame
  group : Frame
  /-- whether blanks mean nothing -/
  spaced : Bool
  /-- the names of groups so far -/
  names : List (List Char)

namespace Progress

/-- At the start. -/
def start : Progress := ⟨[], .whole, false, []⟩

/-- One more part. -/
def add (p : Pattern) (r : Progress) : Progress := { r with group := r.group.add p }

/-- Whether blanks mean nothing after a change of flags. -/
def spacedAfter (r : Progress) (fs : Flags) : Bool := (fs.lookup .spaced).getD r.spaced

/-- At the start of a group. -/
def enter (fs : Flags) (r : Progress) : Progress :=
  { r with
    outer := r.group :: r.outer, group := ⟨fs, r.spaced, [], []⟩, spaced := r.spacedAfter fs }

/-- Behind an opening parenthesis. -/
def open? (r : Progress) : Opening → Option Progress
  | .group fs => some (r.enter fs)
  | .named name =>
    if r.names.contains name then none else some { r.enter [] with names := name :: r.names }
  | .flags fs => some { r.add (.flags fs) with spaced := r.spacedAfter fs }

/-- Behind a closing parenthesis. -/
def close? (r : Progress) : Option Progress :=
  match r.outer with
  | [] => none
  | o :: outer =>
    some { r with
      outer := outer, group := o.add (.group r.group.flags r.group.pattern)
      spaced := r.group.outside }

/-- The pattern at the end of the text. -/
def finish? (r : Progress) : Option Pattern :=
  if r.outer.isEmpty then some r.group.pattern else none

/-- What is read behind a character that starts a part, and the rest. -/
def step? (r : Progress) (c : Char) (cs : List Char) : Option (Progress × List Char) :=
  match c with
  | '(' => do
    let (o, rest) ← opening? r.spaced cs
    return (← r.open? o, rest)
  | ')' => return (← r.close?, cs)
  | '|' => some ({ r with group := r.group.choose }, cs)
  | '[' => do
    let (p, rest) ← bracket? r.spaced cs
    return (r.add p, rest)
  | '?' | '*' | '+' => do
    let group ← r.group.repeat?
    return ({ r with group := group }, if cs.head? = some '?' then cs.drop 1 else cs)
  | '{' => none
  | '\\' => do
    let (a, rest) ← escape? r.spaced cs
    return (r.add (.atom a), rest)
  | '.' => some (r.add (.atom .any), cs)
  | '^' | '$' => some (r.add (.atom .edge), cs)
  | c => some (r.add (.atom (.letter c false)), cs)

/-- Reads up to the end of the text; each step reads a character at least. -/
def read? : (steps : Nat) → Progress → List Char → Option Pattern
  | 0, _, _ => none
  | steps + 1, r, cs =>
    match skip r.spaced cs with
    | [] => r.finish?
    | c :: cs => do
      let (r, rest) ← r.step? c cs
      read? steps r rest

end Progress

/-- The pattern of a text. -/
def ofText? (cs : List Char) : Option Pattern := Progress.read? (cs.length + 1) .start cs

end SealedGraph.Pattern
