/-!
# Media types

The header that says what a body is: a type and a subtype with a slash between them, and parameters
behind semicolons. Names are not told apart by case.
-/

namespace SealedGraph.Http.MediaType

/-- The characters besides letters and digits that a name can have. -/
def nameMarks : List Char :=
  ['!', '#', '$', '%', '&', '\x27', '*', '+', '-', '.', '^', '_', '\x60', '|', '~']

/-- A character of a name. -/
def isNameChar (c : Char) : Bool := c.isAlphanum || nameMarks.contains c

/-- A character between quotes. -/
def isQuotedChar (c : Char) : Bool := c.toNat > 31 && c.toNat ≠ 127

/-- How far the scan of the parameters has come. -/
inductive State
  /-- before the name of a parameter -/
  | before
  | name
  /-- behind the equals sign -/
  | equals
  | value
  | quoted (filled : Bool)
  /-- behind the closing quote -/
  | closed
  deriving DecidableEq, Repr

/-- The state after a character, if it may stand there. -/
def State.next : State → Char → Option State
  | .before, c => if c = ' ' then some .before else if isNameChar c then some .name else none
  | .name, c => if isNameChar c then some .name else if c = '=' then some .equals else none
  | .equals, c =>
    if c = '"' then some (.quoted false) else if isNameChar c then some .value else none
  | .value, c => if isNameChar c then some .value else if c = ';' then some .before else none
  | .quoted filled, c =>
    if c = '"' && filled then some .closed
    else if isQuotedChar c && c ≠ '"' then some (.quoted true)
    else if c = '"' then some (.quoted true)
    else none
  | .closed, c => if c = ';' then some .before else if c = ' ' then some .closed else none

/-- Whether the text may end in a state. -/
def State.isEnd : State → Bool
  | .before | .equals | .value | .closed => true
  | .name | .quoted _ => false

/-- Whether a text is a list of parameters from a state on. -/
def areParameters : State → List Char → Bool
  | s, [] => s.isEnd
  | s, c :: cs =>
    match s.next c with
    | some s => areParameters s cs
    | none => false

/-- Whether a subtype is JSON: as it is, before a plus sign, or behind the last one. -/
def isJsonSubtype (subtype : List Char) : Bool :=
  let suffix := (subtype.reverse.takeWhile (· ≠ '+')).reverse
  let stem := subtype.take (subtype.length - suffix.length - 1)
  if suffix.length = subtype.length ∨ stem = [] then subtype = "json".toList
  else stem = "json".toList || suffix = "json".toList

/-- Whether a header says that the body is JSON. -/
def isJson (header : String) : Bool :=
  let lower := header.toList.map Char.toLower
  let type := lower.takeWhile isNameChar
  match lower.drop type.length with
  | '/' :: rest =>
    let subtype := rest.takeWhile isNameChar
    let parameters := match rest.drop subtype.length with
      | [] => true
      | ';' :: cs => areParameters .before cs
      | _ => false
    type = "application".toList && isJsonSubtype subtype && parameters
  | _ => false

end SealedGraph.Http.MediaType
