import SealedGraph.Text.Utf8
import SealedGraph.Yaml.Scalar

/-!
# Anchors, tags and directives

What may stand in front of a value to name it or to say its kind, and the lines in front of a
document. Each reader starts behind the character that opens the form.
-/

namespace SealedGraph.Yaml

/-- A character of a name. -/
def isNameChar (c : Char) : Bool := c.isAlphanum || c = '_' || c = '-'

/-- The characters that may follow the name of an anchor or an alias, besides blanks. -/
def afterName : List Char := ['?', ':', ',', ']', '}', '%', '@', '\x60']

/-- Reads the name of an anchor or an alias. -/
def readName (cs : List Cell) : Option (String × List Cell) :=
  let (name, rest) := spanChars isNameChar cs
  if !name.isEmpty && (endsWord rest || rest.head?.any fun c => afterName.contains c.char) then
    some (String.ofList name, rest)
  else none

/-- A tag as it is written: a handle, which may be empty, and what follows it. -/
structure Tag where
  handle : String
  suffix : String
  deriving DecidableEq, Repr

/-- A character of a tag that stands for itself. -/
def isTagChar (c : Char) : Bool :=
  isNameChar c || [';', '/', '?', ':', '@', '&', '=', '+', '$', '.', '!', '~', '*', '\x27', '(',
    ')'].contains c

/-- The bytes of a character that starts with the byte `b`, if one does. -/
def widthOf? (b : Nat) : Option Nat :=
  if b < 0x80 then some 1
  else if 0xC0 ≤ b ∧ b < 0xE0 then some 2
  else if 0xE0 ≤ b ∧ b < 0xF0 then some 3
  else if 0xF0 ≤ b ∧ b < 0xF8 then some 4
  else none

/-- Reads the characters of a tag, with `%` before the hexadecimal digits of a byte. Read so far are
the bytes `done`, last first; `missing` bytes of a character are still to come. -/
def readTagChars (extra : List Char) : (missing : Nat) → (done : List UInt8) → List Cell →
    Option (List UInt8 × List Cell)
  | missing, done, p :: x :: y :: cs =>
    if p.char = '%' then
      match Text.hexDigit? x.char, Text.hexDigit? y.char with
      | some h, some l =>
        let b := h * 16 + l
        match missing with
        | 0 => match widthOf? b with
          | some width => readTagChars extra (width - 1) (UInt8.ofNat b :: done) cs
          | none => none
        | missing + 1 =>
          if 0x80 ≤ b ∧ b < 0xC0 then readTagChars extra missing (UInt8.ofNat b :: done) cs
          else none
      | _, _ => none
    else if missing ≠ 0 then none
    else if isTagChar p.char || extra.contains p.char then
      readTagChars extra 0 ((Utf8.encodeChar p.char).reverse ++ done) (x :: y :: cs)
    else some (done.reverse, p :: x :: y :: cs)
  | missing, done, p :: cs =>
    if p.char = '%' || missing ≠ 0 then none
    else if isTagChar p.char || extra.contains p.char then
      readTagChars extra 0 ((Utf8.encodeChar p.char).reverse ++ done) cs
    else some (done.reverse, p :: cs)
  | missing, done, [] => if missing = 0 then some (done.reverse, []) else none

/-- Reads the characters of a tag behind some that are read already. -/
def readTagText (extra : List Char) (before : List Char) (cs : List Cell) :
    Option (String × List Cell) := do
  let (bytes, rest) ← readTagChars extra 0 [] cs
  return (String.ofList before ++ (stringOf? bytes).getD "", rest)

/-- The characters that may stand in a tag where it is written in full. -/
def fullTagChars : List Char := [',', '[', ']']

/-- Reads a tag from behind its exclamation mark: in angle brackets in full, with a handle between
two exclamation marks, or with no more of a handle than the first one, which alone is a tag too. -/
def readTag (flow : Bool) (cs : List Cell) : Option (Tag × List Cell) := do
  let (tag, rest) ← (do
    if cs.head?.any fun c => c.char = '<' then
      let (suffix, rest) ← readTagText fullTagChars [] (cs.drop 1)
      if suffix = "" then none
      if rest.head?.any fun c => c.char = '>' then some (⟨"", suffix⟩, rest.drop 1) else none
    else
      let (name, rest) := spanChars isNameChar cs
      if rest.head?.any fun c => c.char = '!' then
        let (suffix, rest) ← readTagText [] [] (rest.drop 1)
        if suffix = "" then none
        some (⟨String.ofList ('!' :: name ++ ['!']), suffix⟩, rest)
      else
        let (suffix, rest) ← readTagText [] name rest
        some (if suffix = "" then ⟨"", "!"⟩ else ⟨"!", suffix⟩, rest))
  if endsWord rest || flow && rest.head?.any fun c => c.char = ',' then some (tag, rest) else none

/-- A line in front of a document. -/
inductive Directive
  | version (major minor : Nat)
  /-- what a handle of tags stands for -/
  | handle (handle meaning : String)
  deriving DecidableEq, Repr

/-- The most digits of a part of a version. -/
def maxVersionDigits : Nat := 9

/-- Reads a part of a version. -/
def readVersionPart (cs : List Cell) : Option (Nat × List Cell) := do
  let (digits, rest) := spanChars Char.isDigit cs
  if maxVersionDigits < digits.length then none
  return (← Text.readBase 10 digits, rest)

/-- Reads the handle of a directive: an exclamation mark, and perhaps a name and one more. -/
def readHandle (cs : List Cell) : Option (String × List Cell) :=
  match cs with
  | c :: cs =>
    if c.char ≠ '!' then none
    else
      let (name, rest) := spanChars isNameChar cs
      if rest.head?.any fun c => c.char = '!' then
        some (String.ofList ('!' :: name ++ ['!']), rest.drop 1)
      else if name.isEmpty then some ("!", rest)
      else none
  | [] => none

/-- Reads a directive from behind its percent sign, with the end of its line. -/
def readDirective (cs : List Cell) : Option (Directive × List Cell) := do
  let (name, rest) := spanChars isNameChar cs
  if !endsWord rest then none
  let rest := rest.dropWhile fun c => isGap c.char
  if name = "YAML".toList then
    let (major, rest) ← readVersionPart rest
    if !(rest.head?.any fun c => c.char = '.') then none
    let (minor, rest) ← readVersionPart (rest.drop 1)
    return (.version major minor, ← restOfLine rest)
  else if name = "TAG".toList then
    let (handle, rest) ← readHandle rest
    if !(rest.head?.any fun c => isGap c.char) then none
    let (meaning, rest) ← readTagText fullTagChars [] (rest.dropWhile fun c => isGap c.char)
    if meaning = "" ∨ !endsWord rest then none
    return (.handle handle meaning, ← restOfLine rest)
  else none

end SealedGraph.Yaml
