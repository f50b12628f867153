/-!
# Patterns

Regular expressions by their structure, as far as it decides whether an automaton can be built for
one. The automaton is built without any table of characters. So a pattern must not ask which of all
characters are digits, blanks or parts of words, nor pass over the case of a letter, unless it keeps
to ASCII; and then it must not match a byte that is only part of a character.

* `depth_ofSequence_singleton`, `depth_ofChoice_singleton`: one pattern alone is no deeper as a
  sequence or a choice of one.
-/

namespace SealedGraph

namespace Pattern

/-- What changes the meaning of a pattern from some place on. -/
inductive Flag
  | caseless
  /-- the ends of lines count, not only those of the text -/
  | lines
  /-- a dot stands for the end of a line too -/
  | dots
  /-- repetitions are short if they may be -/
  | lazy
  /-- all characters count, not only those of ASCII -/
  | unicode
  | carriageReturns
  /-- blanks and comments mean nothing -/
  | spaced
  deriving DecidableEq, Repr

/-- The letter of a flag. -/
def Flag.of? : Char → Option Flag
  | 'i' => some .caseless
  | 'm' => some .lines
  | 's' => some .dots
  | 'U' => some .lazy
  | 'u' => some .unicode
  | 'R' => some .carriageReturns
  | 'x' => some .spaced
  | _ => none

/-- Some flags, each at most once, and whether they are set or taken back. -/
abbrev Flags := List (Flag × Bool)

/-- What one character or one escape stands for. -/
inductive Atom
  /-- a character; `byte` if it is written as the two digits of a byte -/
  | letter (c : Char) (byte : Bool)
  /-- digits, blanks or parts of words; `negated` for all other characters -/
  | kind (negated : Bool)
  | any
  /-- the start or the end of a line or of the text -/
  | edge
  /-- the start, the end or the inside of a word -/
  | wordEdge
  deriving DecidableEq, Repr

/-- The characters of a set. -/
inductive Members
  | letter (c : Char)
  | range (first last : Char)
  | kind (negated : Bool)
  /-- a class of ASCII by its name -/
  | ascii (negated : Bool)
  /-- a set in brackets -/
  | set (negated : Bool) (ms : Members)
  | union (ms : List Members)
  /-- what two sets have in common, or what only one of them has -/
  | combined (left right : Members)

/-- The members of one set or of several; one alone is itself. -/
def Members.ofList : List Members → Members
  | [m] => m
  | ms => .union ms

end Pattern

open Pattern in
/-- A regular expression. -/
inductive Pattern
  | atom (a : Atom)
  | set (negated : Bool) (ms : Members)
  /-- a change of flags up to the end of the group -/
  | flags (fs : Flags)
  | repeated (p : Pattern)
  | group (fs : Flags) (p : Pattern)
  | sequence (ps : List Pattern)
  | choice (ps : List Pattern)

namespace Pattern

/-- Patterns one after the other; one alone is itself. -/
def ofSequence : List Pattern → Pattern
  | [p] => p
  | ps => .sequence ps

/-- One of some patterns; one alone is itself. -/
def ofChoice : List Pattern → Pattern
  | [p] => p
  | ps => .choice ps

/-! ## Depth -/

mutual

/-- How deep the parts of a set lie in each other. -/
def Members.depth : Members → Nat
  | .letter _ | .range _ _ | .kind _ | .ascii _ => 0
  | .set _ ms => ms.depth + 1
  | .union [] => 0
  | .union (m :: ms) => Members.depthOfList (m :: ms) + 1
  | .combined l r => max l.depth r.depth + 1

/-- The depth of the deepest of some sets. -/
def Members.depthOfList : List Members → Nat
  | [] => 0
  | m :: ms => max m.depth (Members.depthOfList ms)

end

mutual

/-- How deep the parts of a pattern lie in each other. -/
def depth : Pattern → Nat
  | .atom _ | .flags _ => 0
  | .set _ ms => ms.depth + 1
  | .repeated p | .group _ p => p.depth + 1
  | .sequence [] | .choice [] => 0
  | .sequence (p :: ps) | .choice (p :: ps) => depthOfList (p :: ps) + 1

/-- The depth of the deepest of some patterns. -/
def depthOfList : List Pattern → Nat
  | [] => 0
  | p :: ps => max p.depth (depthOfList ps)

end

/-- How deep a pattern may be. -/
def maxDepth : Nat := 250

/-! ## Automata -/

/-- The flags that decide what an automaton would need. -/
structure Modes where
  unicode : Bool
  caseless : Bool
  deriving DecidableEq, Repr

/-- At the start of a pattern. -/
def Modes.start : Modes := ⟨true, false⟩

/-- After a change of flags. -/
def Modes.change (m : Modes) (fs : Flags) : Modes :=
  ⟨(fs.lookup .unicode).getD m.unicode, (fs.lookup .caseless).getD m.caseless⟩

/-- Whether a character is of ASCII. -/
def isAscii (c : Char) : Bool := c.toNat < 0x80

mutual

/-- Whether the characters of a set can be told without a table, and are whole ones. -/
def Members.isPlain (m : Modes) : Members → Bool
  | .letter c => if m.unicode then !m.caseless else isAscii c
  | .range a b => if m.unicode then !m.caseless else isAscii a && isAscii b
  | .kind negated => !m.unicode && !negated
  | .ascii negated => if m.unicode then !m.caseless else !negated
  | .set negated ms => (m.unicode || !negated) && ms.isPlain m
  | .union ms => Members.arePlain m ms
  | .combined l r => l.isPlain m && r.isPlain m

/-- `isPlain` for each of some sets. -/
def Members.arePlain (m : Modes) : List Members → Bool
  | [] => true
  | ms :: mss => ms.isPlain m && Members.arePlain m mss

end

/-- Whether an atom can be told without a table, and is a whole character. -/
def Atom.isPlain (m : Modes) : Atom → Bool
  | .letter c byte => if m.unicode then !m.caseless else !byte || isAscii c
  | .kind negated => !m.unicode && !negated
  | .any => m.unicode
  | .edge => true
  | .wordEdge => !m.unicode

mutual

/-- The modes behind a pattern, if an automaton can be built for it. -/
def modesAfter? (m : Modes) : Pattern → Option Modes
  | .atom a => if a.isPlain m then some m else none
  | .set negated ms => if (Members.set negated ms).isPlain m then some m else none
  | .flags fs => some (m.change fs)
  | .repeated p => modesAfter? m p
  | .group fs p => (modesAfter? (m.change fs) p).map fun _ => m
  | .sequence ps | .choice ps => modesAfterList? m ps

/-- The modes behind patterns one after the other, if an automaton can be built for each. -/
def modesAfterList? (m : Modes) : List Pattern → Option Modes
  | [] => some m
  | p :: ps => (modesAfter? m p).bind fun m => modesAfterList? m ps

end

/-- Whether an automaton can be built for a pattern. -/
def isUsable (p : Pattern) : Bool := p.depth ≤ maxDepth && (modesAfter? .start p).isSome

theorem depth_ofSequence_singleton (p : Pattern) : (ofSequence [p]).depth = p.depth := rfl

theorem depth_ofChoice_singleton (p : Pattern) : (ofChoice [p]).depth = p.depth := rfl

end Pattern

end SealedGraph
