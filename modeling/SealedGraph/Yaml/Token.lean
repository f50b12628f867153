import SealedGraph.Yaml.Property

/-!
# Tokens

The marks, names and scalars of a text in their order, with marks of their own where a collection
without brackets starts and ends. Such a collection starts where its first entry or key stands
deeper than the lines around it, and it ends before the first line that stands less deep. Whether
something is a key shows only behind it, at a colon; so the place of what may turn out to be one is
kept, and the mark of the key goes there later. What starts a line of a mapping has to be a key.
-/

namespace SealedGraph.Yaml

/-- A part of a text. -/
inductive Token
  | directive (d : Directive)
  | documentStart
  | documentEnd
  | blockSequence
  | blockMapping
  | blockEnd
  | flowSequence
  | flowSequenceEnd
  | flowMapping
  | flowMappingEnd
  | entry
  | separator
  | key
  | value
  | alias (name : String)
  | anchor (name : String)
  | tag (t : Tag)
  | scalar (style : Style) (text : String)
  deriving DecidableEq, Repr

/-- What may turn out to be a key. -/
structure Candidate where
  /-- the number of tokens before it -/
  before : Nat
  line : Nat
  column : Nat
  /-- the number of bytes of its line in front of it -/
  offset : Nat
  /-- whether nothing but a key may stand there -/
  required : Bool
  deriving DecidableEq, Repr

/-- The most bytes of a key if its mark is to come later. -/
def maxKeyLength : Nat := 1024

/-- What is known of a text up to some place. -/
structure Layout where
  /-- the tokens so far, last first -/
  tokens : List Token
  /-- the columns of the open collections without brackets, last first -/
  columns : List Nat
  /-- whether a key may start here -/
  keyAllowed : Bool
  /-- the last thing that may be a key, since the last open bracket -/
  candidate : Option Candidate
  /-- the same before each open bracket, last first -/
  outer : List (Option Candidate)

namespace Layout

/-- At the start of a text. -/
def start : Layout := ⟨[], [], true, none, []⟩

/-- Within brackets. -/
def inFlow (l : Layout) : Bool := !l.outer.isEmpty

/-- One more token. -/
def add (t : Token) (l : Layout) : Layout := { l with tokens := t :: l.tokens }

/-- One more token, behind which a key may start or not. -/
def mark (t : Token) (keyAllowed : Bool) (l : Layout) : Layout :=
  { l with tokens := t :: l.tokens, keyAllowed := keyAllowed }

/-- Some tokens in the place behind the first `n`. -/
def insert (n : Nat) (ts : List Token) (l : Layout) : Layout :=
  let later := l.tokens.take (l.tokens.length - n)
  { l with tokens := later ++ ts.reverse ++ l.tokens.drop later.length }

/-- Whether a column lies deeper than the open collections. -/
def isDeeper (l : Layout) (column : Nat) : Bool :=
  match l.columns with
  | [] => true
  | c :: _ => c < column

/-- The first column that lies deeper than the open collections. -/
def least (l : Layout) : Nat :=
  match l.columns with
  | [] => 0
  | c :: _ => c + 1

/-- Opens a collection at a column that lies deeper, behind the first `n` tokens. -/
def open_ (t : Token) (column n : Nat) (l : Layout) : Layout :=
  if !l.inFlow && l.isDeeper column then
    { l.insert n [t] with columns := column :: l.columns }
  else l

/-- Ends the collections whose columns have some property, the last ones first. -/
def closeWhile (p : Nat → Bool) : List Token → List Nat → List Token × List Nat
  | ts, [] => (ts, [])
  | ts, c :: cs => if p c then closeWhile p (.blockEnd :: ts) cs else (ts, c :: cs)

/-- Ends the collections that stand deeper than a column; all, without one. -/
def close (column : Option Nat) (l : Layout) : Layout :=
  if l.inFlow then l
  else
    let (tokens, columns) := closeWhile (fun c => column.all (· < c)) l.tokens l.columns
    { l with tokens := tokens, columns := columns }

/-- Whether a candidate can no longer be a key at some place: its line is over, or it is too
long. -/
def isStale (here : Cell) (k : Candidate) : Bool :=
  k.line < here.line || k.offset + maxKeyLength < here.offset

/-- A candidate, unless it can no longer be a key; fails if it had to be one. -/
def refresh (here : Cell) : Option Candidate → Option (Option Candidate)
  | none => some none
  | some k =>
    if isStale here k then if k.required then none else some none
    else some (some k)

/-- The layout without the candidates that can no longer be keys. -/
def refreshAll (here : Cell) (l : Layout) : Option Layout := do
  let candidate ← refresh here l.candidate
  let outer ← l.outer.mapM (refresh here)
  return { l with candidate := candidate, outer := outer }

/-- The layout without its last candidate; fails if that had to be a key. -/
def dropCandidate (l : Layout) : Option Layout :=
  if l.candidate.any Candidate.required then none else some { l with candidate := none }

/-- The layout with a candidate here, if a key may start here. -/
def offerKey (here : Cell) (l : Layout) : Option Layout :=
  if l.keyAllowed then do
    let l ← l.dropCandidate
    let required := !l.inFlow && l.columns.head? = some here.column
    let key : Candidate := ⟨l.tokens.length, here.line, here.column, here.offset, required⟩
    return { l with candidate := some key }
  else some l

/-- Opens a bracket. -/
def openFlow (t : Token) (here : Cell) (l : Layout) : Option Layout := do
  let l ← l.offerKey here
  return { l with
    tokens := t :: l.tokens, keyAllowed := true, candidate := none,
    outer := l.candidate :: l.outer }

/-- Closes a bracket. -/
def closeFlow (t : Token) (l : Layout) : Option Layout := do
  let l ← l.dropCandidate
  let l := match l.outer with
    | [] => l
    | k :: outer => { l with candidate := k, outer := outer }
  return l.mark t false

/-- The mark of an entry without brackets, or a stray one within them. -/
def entry (here : Cell) (l : Layout) : Option Layout := do
  if !l.inFlow && !l.keyAllowed then none
  let l ← (l.open_ .blockSequence here.column l.tokens.length).dropCandidate
  return l.mark .entry true

/-- The mark in front of a key. -/
def key (here : Cell) (l : Layout) : Option Layout := do
  if !l.inFlow && !l.keyAllowed then none
  let l ← (l.open_ .blockMapping here.column l.tokens.length).dropCandidate
  return l.mark .key (!l.inFlow)

/-- The mark between a key and its value. -/
def value (here : Cell) (l : Layout) : Option Layout :=
  match l.candidate with
  | some k =>
    let l := (l.insert k.before [.key]).open_ .blockMapping k.column k.before
    some ({ l with candidate := none }.mark .value false)
  | none =>
    if !l.inFlow && !l.keyAllowed then none
    else
      let l := l.open_ .blockMapping here.column l.tokens.length
      some (l.mark .value !l.inFlow)

/-- A name, a tag or a scalar, which may be or start a key. -/
def leaf (here : Cell) (t : Token) (l : Layout) : Option Layout :=
  return (← l.offerKey here).mark t false

/-- A line in front of a document, or between two of them. -/
def line (t : Token) (l : Layout) : Option Layout :=
  return (← (l.close none).dropCandidate).mark t false

/-- A mark of byte order that starts a line, where it means nothing. -/
def isLeadingMark (c : Cell) : Bool := c.column = 0 && c.char = byteOrderMark

/-- Whether a key may start behind some blanks and comments, and the cells behind them. Where one
may start without brackets, a line must not be indented by tabulators. -/
def skip (flow : Bool) : (comment keyAllowed : Bool) → List Cell → Bool × List Cell
  | _, keyAllowed, [] => (keyAllowed, [])
  | comment, keyAllowed, c :: cs =>
    if isLineEnd c.char then skip flow false (keyAllowed || !flow) cs
    else if comment then skip flow true keyAllowed cs
    else if c.char = '#' then skip flow true keyAllowed cs
    else if c.char = ' ' || (flow || !keyAllowed) && c.char = '\t' ||
        isLeadingMark c then skip flow false keyAllowed cs
    else (keyAllowed, c :: cs)

/-- The marks that no plain scalar starts with. -/
def reserved : List Char :=
  ['-', '?', ':', ',', '[', ']', '{', '}', '#', '&', '*', '!', '|', '>', '\x27', '"', '%', '@',
    '\x60']

/-- Whether a plain scalar starts here. -/
def startsPlain (flow : Bool) (c : Char) (rest : List Cell) : Bool :=
  !(isGap c || isLineEnd c || reserved.contains c) ||
    c = '-' && !(rest.head?.any fun d => isGap d.char) ||
    !flow && (c = '?' || c = ':') && !endsWord rest

/-- The layout behind the token that starts with a cell, and the cells behind it. -/
def token (here : Cell) (rest : List Cell) (l : Layout) : Option (Layout × List Cell) := do
  let c := here.char
  let quoted (style : Style) (r : Option (List Char × List Cell)) := do
    let (text, rest) ← r
    return (← l.leaf here (.scalar style (String.ofList text)), rest)
  let block (folded : Bool) := do
    let l ← l.dropCandidate
    let (text, rest) ← readBlock folded l.columns.head? rest
    let style := if folded then Style.folded else .literal
    return (l.mark (.scalar style (String.ofList text)) true, rest)
  if here.column = 0 && c = '%' then
    let (d, rest) ← readDirective rest
    return (← l.line (.directive d), rest)
  else if isRule '-' (here :: rest) then return (← l.line .documentStart, rest.drop 2)
  else if isRule '.' (here :: rest) then return (← l.line .documentEnd, rest.drop 2)
  else if c = '[' then return (← l.openFlow .flowSequence here, rest)
  else if c = '{' then return (← l.openFlow .flowMapping here, rest)
  else if c = ']' then return (← l.closeFlow .flowSequenceEnd, rest)
  else if c = '}' then return (← l.closeFlow .flowMappingEnd, rest)
  else if c = ',' then return ((← l.dropCandidate).mark .separator true, rest)
  else if c = '-' && endsWord rest then return (← l.entry here, rest)
  else if c = '?' && (l.inFlow || endsWord rest) then return (← l.key here, rest)
  else if c = ':' && (l.inFlow || endsWord rest) then return (← l.value here, rest)
  else if c = '*' then
    let (name, rest) ← readName rest
    return (← l.leaf here (.alias name), rest)
  else if c = '&' then
    let (name, rest) ← readName rest
    return (← l.leaf here (.anchor name), rest)
  else if c = '!' then
    let (tag, rest) ← readTag l.inFlow rest
    return (← l.leaf here (.tag tag), rest)
  else if c = '|' && !l.inFlow then block false
  else if c = '>' && !l.inFlow then block true
  else if c = '\x27' then quoted .single (readSingle [] [] rest)
  else if c = '"' then quoted .double (readDouble [] (.text false []) rest)
  else if startsPlain l.inFlow c rest then
    let p ← readPlain l.inFlow l.least [] [] (here :: rest)
    let l ← l.leaf here (.scalar .plain (String.ofList p.text))
    return ({ l with keyAllowed := p.newLine }, p.rest)
  else none

/-- The layout at the end of a text. -/
def finish (l : Layout) : Option Layout := (l.close none).dropCandidate

/-- Reads tokens up to the end of the text; each one is at least a character long, so as many steps
as there are characters are enough. -/
def read : (steps : Nat) → Layout → List Cell → Option Layout
  | 0, _, _ => none
  | steps + 1, l, cs =>
    let (keyAllowed, cs) := skip l.inFlow false l.keyAllowed cs
    let l := { l with keyAllowed := keyAllowed }
    match cs with
    | [] => l.finish
    | here :: rest => do
      let l ← l.refreshAll here
      let (l, rest) ← (l.close (some here.column)).token here rest
      read steps l rest

end Layout

/-- The tokens of a text. -/
def tokens? (text : List Char) : Option (List Token) := do
  let cs ← cells? text
  return (← Layout.read (cs.length + 1) .start cs).tokens.reverse

end SealedGraph.Yaml
