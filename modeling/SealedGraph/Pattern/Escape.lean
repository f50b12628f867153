import SealedGraph.Pattern.Basic
import SealedGraph.Text.Blank
import SealedGraph.Text.Digits

/-!
# Escapes of patterns

What a backslash and the characters behind it stand for: a mark by itself, a character by a letter
or by its code, a class of characters, or an edge. Codes and names in braces are no escapes here,
nor are properties of characters, of which nothing is known. Readers start behind the backslash and
answer what is read with the rest.

* `length_skip_le`: what is skipped is never more than there is.
-/

namespace SealedGraph.Pattern

/-- The text behind blanks and comments; `comment` within one. -/
def skipBlanks : (comment : Bool) → List Char → List Char
  | _, [] => []
  | true, c :: cs => skipBlanks (c ≠ '\n') cs
  | false, c :: cs =>
    if Text.isBlank c then skipBlanks false cs
    else if c = '#' then skipBlanks true cs
    else c :: cs

/-- The text behind blanks and comments, where these mean nothing. -/
def skip (spaced : Bool) (cs : List Char) : List Char := if spaced then skipBlanks false cs else cs

theorem length_skipBlanks_le (comment : Bool) (cs : List Char) :
    (skipBlanks comment cs).length ≤ cs.length := by
  fun_induction skipBlanks comment cs <;> simp_all <;> omega

theorem length_skip_le (spaced : Bool) (cs : List Char) : (skip spaced cs).length ≤ cs.length := by
  unfold skip
  split
  · exact length_skipBlanks_le false cs
  · exact Nat.le_refl _

/-- The next character; where blanks mean nothing, behind some and one sign of a comment. -/
def next? (spaced : Bool) (cs : List Char) : Option Char :=
  if spaced then
    match cs.dropWhile Text.isBlank with
    | '#' :: cs => (cs.dropWhile Text.isBlank).head?
    | cs => cs.head?
  else cs.head?

/-- Reads a character by some hexadecimal digits, behind those with the value `value`. -/
def code? (spaced : Bool) : (digits value : Nat) → List Char → Option (Char × List Char)
  | 0, value, cs => if value.isValidChar then some (Char.ofNat value, skip spaced cs) else none
  | digits + 1, value, cs =>
    match skip spaced cs with
    | [] => none
    | c :: cs => (Text.hexDigit? c).bind fun d => code? spaced digits (value * 16 + d) cs

/-- The number of digits of a code behind its letter. -/
def codeDigits? : Char → Option Nat
  | 'x' => some 2
  | 'u' => some 4
  | 'U' => some 8
  | _ => none

/-- Whether a character stands for itself behind a backslash. -/
def isMark (c : Char) : Bool := isAscii c && !c.isAlphanum && c ≠ '<' && c ≠ '>'

/-- What a letter behind a backslash stands for. -/
def letterAtom? : Char → Option Atom
  | 'a' => some (.letter '\x07' false)
  | 'f' => some (.letter '\x0C' false)
  | 't' => some (.letter '\t' false)
  | 'n' => some (.letter '\n' false)
  | 'r' => some (.letter '\r' false)
  | 'v' => some (.letter '\x0B' false)
  | 'A' | 'z' => some .edge
  | 'b' | 'B' | '<' | '>' => some .wordEdge
  | 'd' | 's' | 'w' => some (.kind false)
  | 'D' | 'S' | 'W' => some (.kind true)
  | _ => none

/-- Reads an escape. -/
def escape? (spaced : Bool) : List Char → Option (Atom × List Char)
  | [] => none
  | c :: cs =>
    match codeDigits? c with
    | some digits => (code? spaced digits 0 cs).map fun (d, rest) => (.letter d (digits = 2), rest)
    | none =>
      if isMark c then some (.letter c false, cs) else (letterAtom? c).map fun a => (a, cs)

end SealedGraph.Pattern
