/-!
# Characters in their places

The text of a document as cells: characters with the line and the column where they stand, because
in such a text the place of a character is part of its meaning. Every usual end of a line becomes a
line feed, and a text with a control character has no cells. A mark of byte order is a character
like any other here, so what follows it does not start its line.

* `map_char_place`: the cells hold the characters in their order.
-/

namespace SealedGraph.Yaml

/-- A character in its place. -/
structure Cell where
  char : Char
  line : Nat
  column : Nat
  /-- the number of bytes of its line in front of it -/
  offset : Nat
  deriving DecidableEq, Repr

/-- The mark of byte order. -/
def byteOrderMark : Char := '\uFEFF'

/-- A space or a tabulator. -/
def isGap (c : Char) : Bool := c = ' ' || c = '\t'

/-- The end of a line. -/
def isLineEnd (c : Char) : Bool := c = '\n' || c = '\u2028' || c = '\u2029'

/-- A character that may stand in a text. -/
def isAllowed (c : Char) : Bool :=
  let n := c.toNat
  n = 0x9 || n = 0xA || n = 0xD || (0x20 ≤ n && n ≤ 0x7E) || n = 0x85 || (0xA0 ≤ n && n ≤ 0xD7FF) ||
    (0xE000 ≤ n && n ≤ 0xFFFD) || 0x10000 ≤ n

/-- The text with a line feed for each of the usual ends of a line. -/
def unifyLines : List Char → List Char
  | [] => []
  | '\r' :: '\n' :: cs => '\n' :: unifyLines cs
  | c :: cs => (if c = '\r' ∨ c = '\u0085' then '\n' else c) :: unifyLines cs

/-- The cells of a text that starts in a line, at a column and an offset. -/
def place : (line column offset : Nat) → List Char → List Cell
  | _, _, _, [] => []
  | line, column, offset, c :: cs =>
    ⟨c, line, column, offset⟩ ::
      if isLineEnd c then place (line + 1) 0 0 cs
      else place line (column + 1) (offset + c.utf8Size) cs

/-- The cells of a text. -/
def cells? (text : List Char) : Option (List Cell) :=
  if text.all isAllowed then some (place 0 0 0 (unifyLines text)) else none

/-- Whether a word ends before these cells. -/
def endsWord : List Cell → Bool
  | [] => true
  | c :: _ => isGap c.char || isLineEnd c.char

/-- Whether the cells start a line with three times the same character and no more. -/
def isRule (mark : Char) : List Cell → Bool
  | a :: b :: c :: cs =>
    a.column = 0 && a.char = mark && b.char = mark && c.char = mark && endsWord cs
  | _ => false

/-- Whether a document starts or ends before these cells. -/
def isBoundary (cs : List Cell) : Bool := isRule '-' cs || isRule '.' cs

/-- The characters of cells that come first and have some property, and the cells behind them. -/
def spanChars (p : Char → Bool) (cs : List Cell) : List Char × List Cell :=
  ((cs.takeWhile fun c => p c.char).map Cell.char, cs.dropWhile fun c => p c.char)

/-- What the ends of lines among some blanks stand for: one becomes a space, of more the first goes;
without one the blanks stay. Ends of lines that separate paragraphs stay as they are. -/
def fold (gap : List Char) : List Char :=
  match gap.filter isLineEnd with
  | [] => gap
  | ['\n'] => [' ']
  | '\n' :: ends => ends
  | ends => ends

theorem map_char_place (line column offset : Nat) (cs : List Char) :
    (place line column offset cs).map Cell.char = cs := by
  induction cs generalizing line column offset with
  | nil => rfl
  | cons c cs ih => unfold place; split <;> simp [ih]

end SealedGraph.Yaml
