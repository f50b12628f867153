import SealedGraph.Text.Digits
import SealedGraph.Yaml.Cell

/-!
# Scalars in their written forms

The five ways to write a text: plain, between single or double quotes, and as a block of lines that
is kept or folded. Each reader takes the cells from the start of a scalar, or from behind the mark
that opens it, and answers its text with the cells behind it.
-/

namespace SealedGraph.Yaml

/-- The way in which a text is written. -/
inductive Style
  | plain | single | double | literal | folded
  deriving DecidableEq, Repr

/-! ## Quotes -/

/-- Reads up to a single quote that stands alone. Read so far are, last first, `done` and then the
blanks in `gap`. -/
def readSingle : (done gap : List Char) → List Cell → Option (List Char × List Cell)
  | _, _, [] => none
  | done, gap, [c] =>
    if c.char = '\x27' then some (done.reverse ++ fold gap.reverse, []) else none
  | done, gap, c :: d :: cs =>
    if isBoundary (c :: d :: cs) then none
    else if c.char = '\x27' then
      if d.char = '\x27' then readSingle ('\x27' :: (fold gap.reverse).reverse ++ done) [] cs
      else some (done.reverse ++ fold gap.reverse, d :: cs)
    else if isGap c.char || isLineEnd c.char then readSingle done (c.char :: gap) (d :: cs)
    else readSingle (c.char :: (fold gap.reverse).reverse ++ done) [] (d :: cs)

/-- What one character behind a backslash stands for. -/
inductive Escape
  | char (c : Char)
  /-- a code point, with the number of its hexadecimal digits -/
  | code (digits : Nat)

/-- The meaning of a character behind a backslash. -/
def Escape.of? : Char → Option Escape
  | '0' => some (.char '\x00')
  | 'a' => some (.char '\x07')
  | 'b' => some (.char '\x08')
  | 't' | '\t' => some (.char '\t')
  | 'n' => some (.char '\n')
  | 'v' => some (.char '\x0B')
  | 'f' => some (.char '\x0C')
  | 'r' => some (.char '\r')
  | 'e' => some (.char '\x1B')
  | ' ' => some (.char ' ')
  | '"' => some (.char '"')
  | '/' => some (.char '/')
  | '\\' => some (.char '\\')
  | 'N' => some (.char '\u0085')
  | '_' => some (.char '\u00A0')
  | 'L' => some (.char '\u2028')
  | 'P' => some (.char '\u2029')
  | 'x' => some (.code 2)
  | 'u' => some (.code 4)
  | 'U' => some (.code 8)
  | _ => none

/-- Where a reader stands between double quotes. -/
inductive Within
  /-- in the text, behind some blanks; `joined` if they follow an end of a line that is left out -/
  | text (joined : Bool) (gap : List Char)
  /-- behind a backslash -/
  | escape
  /-- in a code point: the digits that are missing after the next one, and the value so far -/
  | code (missing value : Nat)

/-- What some blanks between double quotes stand for. -/
def foldWithin (joined : Bool) (gap : List Char) : List Char :=
  if joined then gap.filter isLineEnd else fold gap

/-- Reads up to a double quote. Read so far is `done`, last first. -/
def readDouble : (done : List Char) → Within → List Cell → Option (List Char × List Cell)
  | _, _, [] => none
  | done, .text joined gap, c :: cs =>
    let before := (foldWithin joined gap.reverse).reverse ++ done
    if isBoundary (c :: cs) then none
    else if c.char = '"' then some (before.reverse, cs)
    else if isGap c.char || isLineEnd c.char then readDouble done (.text joined (c.char :: gap)) cs
    else if c.char = '\\' then readDouble before .escape cs
    else readDouble (c.char :: before) (.text false []) cs
  | done, .escape, c :: cs =>
    if isLineEnd c.char then readDouble done (.text true []) cs
    else match Escape.of? c.char with
      | some (.char e) => readDouble (e :: done) (.text false []) cs
      | some (.code digits) => readDouble done (.code (digits - 1) 0) cs
      | none => none
  | done, .code missing value, c :: cs =>
    match Text.hexDigit? c.char with
    | none => none
    | some d =>
      let value := value * 16 + d
      match missing with
      | missing + 1 => readDouble done (.code missing value) cs
      | 0 =>
        if value.isValidChar then readDouble (Char.ofNat value :: done) (.text false []) cs
        else none

/-! ## Plain scalars -/

/-- The marks that end a plain scalar between brackets. -/
def flowMarks : List Char := [',', '[', ']', '{', '}']

/-- The cells behind a plain scalar, its text, and whether a line ended between the two. -/
structure Plain where
  text : List Char
  newLine : Bool
  rest : List Cell

/-- A plain scalar that ends before some cells. Read are, last first, `done` and then the blanks in
`gap`. -/
def Plain.ending (done gap : List Char) (rest : List Cell) : Plain :=
  ⟨done.reverse, gap.any isLineEnd, rest⟩

/-- Reads a plain scalar as far as it goes: up to the end of a key, a mark between brackets, a
comment, a boundary, or a line that starts before the column `least` and not between brackets. Read
so far are, last first, `done` and then the blanks in `gap`. -/
def readPlain (flow : Bool) (least : Nat) : (done gap : List Char) → List Cell → Option Plain
  | done, gap, [] => some (.ending done gap [])
  | done, gap, c :: cs =>
    if isGap c.char || isLineEnd c.char then
      if c.char = '\t' && c.column < least && gap.any isLineEnd then none
      else readPlain flow least done (c.char :: gap) cs
    else if !gap.isEmpty && (c.char = '#' || !flow && c.column < least) || isBoundary (c :: cs) then
      some (.ending done gap (c :: cs))
    else if flow && c.char = ':' &&
        (cs.head?.any fun d => d.char = '?' || flowMarks.contains d.char) then none
    else if c.char = ':' && endsWord cs || flow && flowMarks.contains c.char then
      some (.ending done gap (c :: cs))
    else readPlain flow least (c.char :: (fold gap.reverse).reverse ++ done) [] cs

/-! ## Blocks of lines -/

/-- What becomes of the ends of lines at the end of a block. -/
inductive Chomp
  | strip | clip | keep
  deriving DecidableEq, Repr

/-- Which end of a block a sign asks for. -/
def Chomp.of? : Char → Option Chomp
  | '-' => some .strip
  | '+' => some .keep
  | _ => none

/-- The first line of a block: what becomes of its end, and by how much its lines are indented if
that is said. Zero is no number of columns. -/
def blockHead (cs : List Cell) : Option (Chomp × Option Nat × List Cell) :=
  let width? (c : Cell) : Option Nat := if c.char.isDigit then Text.digit? c.char else none
  let ready (chomp : Chomp) (width : Option Nat) (cs : List Cell) :=
    if width = some 0 then none else some (chomp, width, cs)
  match cs with
  | [] => ready .clip none []
  | c :: cs =>
    match Chomp.of? c.char, width? c, cs with
    | some chomp, _, d :: ds =>
      match width? d with
      | some w => ready chomp (some w) ds
      | none => ready chomp none (d :: ds)
    | some chomp, _, [] => ready chomp none []
    | none, some w, d :: ds =>
      match Chomp.of? d.char with
      | some chomp => ready chomp (some w) ds
      | none => ready .clip (some w) (d :: ds)
    | none, some w, [] => ready .clip (some w) []
    | none, none, cs => ready .clip none (c :: cs)

/-- The cells behind the end of a line on which nothing more stands but a comment. -/
def restOfLine (cs : List Cell) : Option (List Cell) :=
  let cs := cs.dropWhile fun c => isGap c.char
  let cs :=
    if cs.head?.any fun c => c.char = '#' then cs.dropWhile fun c => !isLineEnd c.char else cs
  match cs with
  | [] => some []
  | c :: cs => if isLineEnd c.char then some cs else none

/-- The empty lines at the start of a block whose indentation is not known: their ends, last first,
the widest indentation among them and on the line behind them, and the cells from its first
character on. -/
def leadingLines : (ends : List Char) → (widest : Nat) → List Cell →
    Option (List Char × Nat × List Cell)
  | ends, widest, [] => some (ends, widest, [])
  | ends, widest, c :: cs =>
    if c.char = ' ' then leadingLines ends (max widest (c.column + 1)) cs
    else if c.char = '\t' then none
    else if isLineEnd c.char then leadingLines (c.char :: ends) widest cs
    else some (ends, widest, c :: cs)

/-- How far a block is read. -/
structure Block where
  /-- the text so far, last first -/
  text : List Char
  /-- the end of the last line that has text -/
  lineEnd : List Char
  /-- the ends of the empty lines behind it, last first -/
  empty : List Char
  /-- whether the last line that has text starts with a blank -/
  blank : Bool
  /-- whether the reader stands on a line with text -/
  inLine : Bool

namespace Block

/-- What the ends of lines before another line with text stand for, last first. -/
def joint (folded blank : Bool) (b : Block) : List Char :=
  if folded && b.lineEnd = ['\n'] && !b.blank && !blank then
    if b.empty.isEmpty then [' '] else b.empty
  else b.empty ++ b.lineEnd

/-- Reads the lines of a block that start at the column `indent`. -/
def readLines (folded : Bool) (indent : Nat) : Block → List Cell → Option (Block × List Cell)
  | b, [] => some (b, [])
  | b, c :: cs =>
    if b.inLine then
      if isLineEnd c.char then
        readLines folded indent { b with inLine := false, lineEnd := [c.char], empty := [] } cs
      else readLines folded indent { b with text := c.char :: b.text } cs
    else if c.column < indent && c.char = ' ' then readLines folded indent b cs
    else if c.column < indent && c.char = '\t' then none
    else if isLineEnd c.char then readLines folded indent { b with empty := c.char :: b.empty } cs
    else if c.column = indent then
      let blank := isGap c.char
      readLines folded indent ⟨c.char :: b.joint folded blank ++ b.text, [], [], blank, true⟩ cs
    else some (b, c :: cs)

/-- The text of a block, with as much of its end as is asked for. -/
def chomped (b : Block) : Chomp → List Char
  | .strip => b.text.reverse
  | .clip => (b.lineEnd ++ b.text).reverse
  | .keep => (b.empty ++ b.lineEnd ++ b.text).reverse

end Block

/-- Reads a block from behind its mark. It stands deeper than the column `outer`, if there is
one. -/
def readBlock (folded : Bool) (outer : Option Nat) (cs : List Cell) :
    Option (List Char × List Cell) := do
  let (chomp, width, cs) ← blockHead cs
  let cs ← restOfLine cs
  match width with
  | some width =>
    let (b, cs) ← Block.readLines folded (outer.getD 0 + width) ⟨[], [], [], false, false⟩ cs
    return (b.chomped chomp, cs)
  | none =>
    let (ends, widest, cs) ← leadingLines [] 0 cs
    let least := match outer with
      | some column => column + 1
      | none => 1
    let (b, cs) ← Block.readLines folded (max widest (max least 1)) ⟨[], [], ends, false, false⟩ cs
    return (b.chomped chomp, cs)

end SealedGraph.Yaml
