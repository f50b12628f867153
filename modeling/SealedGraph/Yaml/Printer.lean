import SealedGraph.Yaml.Meaning
import SealedGraph.Yaml.Scalar

/-!
# Texts of values

How a value of a mapping is written: a word as it is, and a text in the plainest form that is read
back as that text. A text of several lines is a block that keeps them; a text that would mean
something else without quotes has single quotes, and one with a character that cannot be seen, or
with spaces beside the end of a line, has double quotes.
-/

namespace SealedGraph.Yaml

/-- A value of a mapping. -/
inductive Leaf
  | text (s : String)
  /-- a word that is written as it is -/
  | word (s : String)
  deriving DecidableEq, Repr

namespace Leaf

/-- A number. -/
def number (n : Nat) : Leaf := word (decimal n)

/-- A truth value. -/
def truth (b : Bool) : Leaf := word (if b then "true" else "false")

/-- A text that need not be there. -/
def optional (s : Option String) : Leaf := s.elim (word "null") text

end Leaf

/-- The columns by which an inner line stands deeper. -/
def indentation : Nat := 2

/-- The spaces in front of a line at a depth. -/
def margin (depth : Nat) : List Char := List.replicate (depth * indentation) ' '

/-- A character that can be seen, a space, or the end of a line. -/
def isPrintable (c : Char) : Bool :=
  let n := c.toNat
  n = 0xA || (0x20 ≤ n && n ≤ 0x7E) || (0xA0 ≤ n && n ≤ 0xD7FF) ||
    (0xE000 ≤ n && n ≤ 0xFFFD && c ≠ byteOrderMark) || 0x10000 ≤ n

/-- The marks that mean something where a value starts. -/
def startMarks : List Char :=
  ['#', ',', '[', ']', '{', '}', '&', '*', '!', '|', '>', '\x27', '"', '%', '@', '\x60']

/-- The marks that mean something where a value starts, if a blank follows. -/
def startMarksBeforeBlank : List Char := ['?', ':', '-']

/-- Whether a blank or nothing is next. -/
def isBlankNext : List Char → Bool
  | [] => true
  | c :: _ => isGap c || isLineEnd c

/-- Whether a colon before a blank, or a hash behind one, stands in a text behind a character. -/
def hasMark : Char → List Char → Bool
  | _, [] => false
  | last, c :: cs =>
    c = ':' && isBlankNext cs || c = '#' && (isGap last || isLineEnd last) || hasMark c cs

/-- Whether the text as a whole or a part of it would be read as something else. -/
def isMarked : List Char → Bool
  | [] => false
  | c :: cs =>
    (c :: cs).take 3 = ['-', '-', '-'] || (c :: cs).take 3 = ['.', '.', '.'] ||
      startMarks.contains c || startMarksBeforeBlank.contains c && isBlankNext cs || hasMark c cs

/-- Whether a space stands next to the end of a line, behind it if `behind`, else before it. -/
def hasSpaceAtLineEnd (behind : Bool) : List Char → Bool
  | c :: d :: cs =>
    (if behind then isLineEnd c && d = ' ' else c = ' ' && isLineEnd d) ||
      hasSpaceAtLineEnd behind (d :: cs)
  | _ => false

/-- Whether a text starts or ends with a space or the end of a line. -/
def hasOpenEnds (cs : List Char) : Bool :=
  let isOpen (c : Char) := c = ' ' || isLineEnd c
  cs.head?.any isOpen || cs.getLast?.any isOpen

/-- A text that can be written only between double quotes. -/
def needsDouble (cs : List Char) : Bool :=
  hasSpaceAtLineEnd false cs || cs.any fun c => !isPrintable c

/-- The forms in which a text is written. -/
def styleOf (cs : List Char) : Style :=
  if cs.contains '\n' then
    if needsDouble cs || cs.getLast? = some ' ' then .double else .literal
  else if needsDouble cs || hasSpaceAtLineEnd true cs then .double
  else if Meaning.ofPlain (String.ofList cs) ≠ .text || Meaning.isPadded cs || isMarked cs ||
      hasOpenEnds cs || cs.any isLineEnd then .single
  else .plain

/-- The letter behind a backslash that stands for a character. -/
def letterOf? : Char → Option Char
  | '\x00' => some '0'
  | '\x07' => some 'a'
  | '\x08' => some 'b'
  | '\t' => some 't'
  | '\n' => some 'n'
  | '\x0B' => some 'v'
  | '\x0C' => some 'f'
  | '\r' => some 'r'
  | '\x1B' => some 'e'
  | '"' => some '"'
  | '\\' => some '\\'
  | '\u0085' => some 'N'
  | '\u00A0' => some '_'
  | '\u2028' => some 'L'
  | '\u2029' => some 'P'
  | _ => none

/-- A code point in hexadecimal, in upper case, with as many digits as its letter asks for. -/
def codeText (n : Nat) : List Char :=
  let digits (width : Nat) := Text.padZero width ((Text.hexText n).map Char.toUpper)
  if n ≤ 0xFF then 'x' :: digits 2 else if n ≤ 0xFFFF then 'u' :: digits 4 else 'U' :: digits 8

/-- A character between double quotes. -/
def escaped (c : Char) : List Char :=
  if isPrintable c && !isLineEnd c && c ≠ '"' && c ≠ '\\' then [c]
  else '\\' :: match letterOf? c with
    | some letter => [letter]
    | none => codeText c.toNat

/-- The lines of a text below a margin, which is left out on empty lines; `fresh` at the start of a
line. -/
def indented (depth : Nat) : (fresh : Bool) → List Char → List Char
  | _, [] => []
  | fresh, c :: cs =>
    if isLineEnd c then c :: indented depth true cs
    else (if fresh then margin depth else []) ++ c :: indented depth false cs

/-- The text between single quotes, where a single quote is written twice. -/
def singleQuoted (depth : Nat) (cs : List Char) : List Char :=
  let body := indented depth false cs
  let closing := if cs.getLast?.any isLineEnd then margin depth else []
  '\x27' :: body.flatMap (fun c => if c = '\x27' then [c, c] else [c]) ++ closing ++ ['\x27']

/-- The signs behind the mark of a block: the margin if the text does not show it, and what becomes
of the end. -/
def blockSigns (cs : List Char) : List Char :=
  let width := if cs.head?.any fun c => c = ' ' || isLineEnd c then Text.natText indentation else []
  let chomp := match cs.reverse with
    | [] => ['-']
    | [c] => if isLineEnd c then ['+'] else ['-']
    | c :: d :: _ => if !isLineEnd c then ['-'] else if isLineEnd d then ['+'] else []
  width ++ chomp

/-- A value with the end of its last line, at a depth. -/
def Leaf.write (depth : Nat) : Leaf → List Char
  | .word s => s.toList ++ ['\n']
  | .text s =>
    let cs := s.toList
    match styleOf cs with
    | .plain => cs ++ ['\n']
    | .single => singleQuoted depth cs ++ ['\n']
    | .double => '"' :: cs.flatMap escaped ++ ['"', '\n']
    | _ =>
      '|' :: blockSigns cs ++ '\n' :: indented depth true cs ++
        (if cs.getLast?.any isLineEnd then [] else ['\n'])

/-- A section of a mapping: its name, and its members one level deeper. -/
def writeSection (name : String) (members : List (String × Leaf)) : List Char :=
  name.toList ++ [':', '\n'] ++ members.flatMap fun (k, v) =>
    margin 1 ++ k.toList ++ [':', ' '] ++ v.write 2

end SealedGraph.Yaml
