import SealedGraph.Host.Work
import SealedGraph.Text.Alphanumeric
import SealedGraph.Text.Blank
import SealedGraph.Text.Utf8

/-!
# Files of settings

Settings in the lines of a file, as names and values with an equals sign between them. A line goes
on while a quote is open, and ends at a comment. A value may be quoted in parts; outside of single
quotes a dollar sign puts the value of another setting in its place. What the host has set stays as
it is, and the lines behind a faulty one do not count.
-/

namespace SealedGraph.Command.EnvFile

open Host (Work)

/-! ## Lines -/

/-- Where a line stands between two characters. -/
inductive Phase
  | word
  | blank
  | escape
  | single
  | singleEscape
  | double
  | doubleEscape
  deriving DecidableEq, Repr

/-- Where a line stands behind a character, unless a comment starts there. -/
def Phase.advance? : Phase → Char → Option Phase
  | .word, c =>
    if Text.isBlank c ∧ c ≠ '\n' ∧ c ≠ '\r' then some .blank
    else if c = '\\' then some .escape
    else if c = '"' then some .double
    else if c = '\x27' then some .single
    else some .word
  | .blank, c =>
    if c = '#' then none
    else if c = '\\' then some .escape
    else if c = '"' then some .double
    else if c = '\x27' then some .single
    else some .word
  | .escape, _ => some .word
  | .single, c =>
    if c = '\\' then some .singleEscape else if c = '\x27' then some .word else some .single
  | .singleEscape, _ => some .single
  | .double, c =>
    if c = '\\' then some .doubleEscape else if c = '"' then some .word else some .double
  | .doubleEscape, _ => some .double

/-- Where a line stands at the end of some characters, and those before a comment, last first. -/
def scan : Phase → (read : List Char) → List Char → Option Phase × List Char
  | phase, read, [] => (some phase, read)
  | phase, read, c :: cs =>
    match phase.advance? c with
    | some phase => scan phase (c :: read) cs
    | none => (none, read)

/-- The pieces of a text that end with a line feed, and what follows the last one if it is not
empty. -/
def pieces : List Char → List (List Char)
  | [] => []
  | '\n' :: cs => ['\n'] :: pieces cs
  | c :: cs => match pieces cs with
    | [] => [[c]]
    | p :: ps => (c :: p) :: ps

/-- The text without the end of its line, last character first. -/
def dropLineEnd : List Char → List Char
  | '\n' :: '\r' :: cs => cs
  | '\n' :: cs => cs
  | cs => cs

/-- The lines of some pieces, up to one that does not end; `open_` is what the last line has so far,
last character first. -/
def linesFrom : Phase → (open_ : List Char) → List (List Char) → List (Option (List Char))
  | phase, _, [] => if phase = .word then [] else [none]
  | phase, before, p :: ps =>
    if (Text.trimStart (before.reverse ++ p)).head? = some '#' then
      some [] :: linesFrom .word [] ps
    else match scan phase before p with
      | (none, read) => some read.reverse :: linesFrom .word [] ps
      | (some .word, read) => some (dropLineEnd read).reverse :: linesFrom .word [] ps
      | (some phase, read) => linesFrom phase read ps

/-- The lines of a text; none in place of one that does not end. -/
def lines (text : List Char) : List (Option (List Char)) :=
  linesFrom .word [] (pieces (if text.head? = some '\uFEFF' then text.drop 1 else text))

/-! ## Values -/

/-- A part of a value. -/
inductive Part
  | char (c : Char)
  /-- the value of another setting -/
  | setting (name : String)
  deriving DecidableEq, Repr

/-- The name of a setting that a value takes in. -/
inductive Naming
  | no
  /-- behind a dollar sign, the letters so far last first -/
  | bare (name : List Char)
  /-- the same in braces -/
  | braced (name : List Char)
  deriving DecidableEq, Repr

/-- How far a value is read. -/
structure Reader where
  /-- the parts so far, last first -/
  parts : List Part
  single : Bool
  double : Bool
  escaped : Bool
  /-- behind a blank outside of quotes -/
  ended : Bool
  naming : Naming
  deriving DecidableEq, Repr

namespace Reader

/-- At the start of a value. -/
def start : Reader := ⟨[], false, false, false, false, .no⟩

/-- One more character. -/
def add (c : Char) (r : Reader) : Reader := { r with parts := .char c :: r.parts }

/-- The value of a setting as one more part. -/
def take (name : List Char) (r : Reader) : Reader :=
  { r with parts := .setting (String.ofList name.reverse) :: r.parts, naming := .no }

/-- The characters that a backslash gives their plain meaning. -/
def quotable : List Char := ['\\', '\x27', '"', '$', ' ']

/-- Reads one character. -/
def next (c : Char) (r : Reader) : Option Reader :=
  if r.ended then if c = ' ' ∨ c = '\t' then some r else none
  else if r.escaped then
    if quotable.contains c then some { r.add c with escaped := false }
    else if c = 'n' then some { r.add '\n' with escaped := false }
    else none
  else if r.single then
    some (if c = '\x27' then { r with single := false } else r.add c)
  else match r.naming with
    | .bare name =>
      if Text.isAlphanumeric c then some { r with naming := .bare (c :: name) }
      else if c = '{' ∧ name = [] then some { r with naming := .braced [] }
      else if c = '$' then some { r.take name with naming := .bare [] }
      else some ((r.take name).add c)
    | .braced name =>
      some (if c = '}' then r.take name else { r with naming := .braced (c :: name) })
    | .no =>
      if c = '$' then some { r with naming := .bare [] }
      else if c = '\\' then some { r with escaped := true }
      else if c = '"' then some { r with double := !r.double }
      else if r.double then some (r.add c)
      else if c = '\x27' then some { r with single := true }
      else if c = ' ' ∨ c = '\t' then some { r with ended := true }
      else some (r.add c)

/-- The parts of a value that ends here, unless a quote or a brace is open. -/
def finish (r : Reader) : Option (List Part) :=
  if r.single || r.double then none
  else match r.naming with
    | .no => some r.parts.reverse
    | .bare name => some (r.take name).parts.reverse
    | .braced _ => none

end Reader

/-- The parts of a value, from where it starts; a comment may follow it. -/
def parts? : Reader → List Char → Option (List Part)
  | r, [] => r.finish
  | r, c :: cs => if r.ended && c = '#' then r.finish else (r.next c).bind fun r => parts? r cs

/-! ## Settings -/

/-- A line of a file. -/
inductive Line
  | empty
  | setting (name : String) (value : List Part)
  deriving DecidableEq, Repr

/-- A character of a name behind the first one. -/
def isNameChar (c : Char) : Bool := c.isAlphanum || c = '_' || c = '.'

/-- Reads the name of a setting, and the blanks behind it. -/
def name? (cs : List Char) : Option (List Char × List Char) :=
  match cs with
  | [] => none
  | c :: _ =>
    if c.isAlpha || c = '_' then
      some (cs.takeWhile isNameChar, Text.trimStart (cs.dropWhile isNameChar))
    else none

/-- The word that may stand in front of a setting. -/
def exportWord : List Char := ['e', 'x', 'p', 'o', 'r', 't']

/-- Reads the name of a setting and its equals sign. -/
def assignment? (cs : List Char) : Option (List Char × List Char) := do
  let (name, rest) ← name? cs
  match rest with
  | '=' :: rest => return (name, rest)
  | rest =>
    if name ≠ exportWord then none
    else match ← name? rest with
      | (name, '=' :: rest) => return (name, rest)
      | _ => none

/-- Reads a line; the blanks at its ends do not count, not even one behind a backslash. -/
def line? (cs : List Char) : Option Line :=
  match Text.trim cs with
  | [] => some .empty
  | '#' :: _ => some .empty
  | cs => do
    let (name, rest) ← assignment? cs
    let value ← match Text.trimStart rest with
      | [] => some []
      | '#' :: _ => some []
      | cs => parts? .start cs
    return .setting (String.ofList name) value

/-- The text of some parts, with the values of the host and else those of the file. -/
def resolve (known : List (String × String)) : List Part → Work String
  | [] => return ""
  | .char c :: ps => return String.singleton c ++ (← resolve known ps)
  | .setting name :: ps => do
    let value := (← Work.settingOf name).getD ((known.lookup name).getD "")
    return value ++ (← resolve known ps)

/-- Makes the settings of some lines that the host has not set, and answers whether that is done. No
setting can hold the null character. -/
def define (known : List (String × String)) : List (Option (List Char)) → Work Bool
  | [] => return true
  | none :: _ => return true
  | some l :: ls =>
    match line? l with
    | none => return true
    | some .empty => define known ls
    | some (.setting name value) => do
      let value ← resolve known value
      if (← Work.settingOf name).isNone then
        if value.toList.contains '\x00' then return false
        Work.defineSetting name value
      define ((name, value) :: known) ls

/-- The file of settings in the directory of a command. -/
def path : String := ".env"

/-- Makes the settings of the file, if there is one, and answers whether that is done. -/
def load : Work Bool := do
  match ← Work.entryAt path with
  | some (.file bytes _) => match stringOf? bytes with
    | some text => define [] (lines text.toList)
    | none => return true
  | _ => return true

end SealedGraph.Command.EnvFile
