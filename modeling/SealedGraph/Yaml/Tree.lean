import SealedGraph.Yaml.Token

/-!
# Trees of values

The values of a document: scalars, sequences and mappings, with the anchors that name them and the
aliases that stand for what has a name. A value that is left out is an empty plain scalar.

A tree is read from tokens by their grammar, where `…?` may be missing:

* value: alias, or properties? with a scalar or a collection; or properties alone;
* lines of entries: start (`-` value?)… end; under a key also without start and end;
* lines of pairs: start (key value? (`:` value?)?)… end;
* entries in brackets: `[` (item (`,` item)… `,`?)? `]`, where an item is a value or a single pair;
* pairs in brackets: `{` (pair (`,` pair)… `,`?)? `}`.
-/

namespace SealedGraph.Yaml

/-- A value whose anchors and aliases are of type `ρ`. -/
inductive Tree (ρ : Type) : Type
  | alias (target : ρ)
  | scalar (anchor : Option ρ) (tag : Option String) (style : Style) (text : String)
  | sequence (anchor : Option ρ) (tag : Option String) (items : List (Tree ρ))
  | mapping (anchor : Option ρ) (tag : Option String) (pairs : List (Tree ρ × Tree ρ))
  deriving Repr, Inhabited

namespace Tree

/-- A value that is left out. -/
def absent {ρ : Type} : Tree ρ := scalar none none .plain ""

/-- What handles of tags stand for. -/
abbrev Handles := List (String × String)

/-- What the handles stand for that need no directive. -/
def usualHandles : Handles := [("!", "!"), ("!!", "tag:yaml.org,2002:")]

/-- The name of a tag. -/
def tagName? (handles : Handles) (t : Tag) : Option String :=
  if t.handle = "" then some t.suffix else (handles.lookup t.handle).map (· ++ t.suffix)

/-- Reads the anchor and the tag in front of a value, in either order. -/
def properties? (handles : Handles) :
    List Token → Option ((Option String × Option String) × List Token)
  | .anchor a :: .tag t :: ts => do return ((some a, some (← tagName? handles t)), ts)
  | .tag t :: .anchor a :: ts => do return ((some a, some (← tagName? handles t)), ts)
  | .anchor a :: ts => some ((some a, none), ts)
  | .tag t :: ts => do return ((none, some (← tagName? handles t)), ts)
  | ts => some ((none, none), ts)

mutual

/-- Reads a value; `block` if it may be a collection of lines, `indentless` if such a collection of
entries may go without start and end. -/
def read (handles : Handles) :
    Nat → (block indentless : Bool) → List Token → Option (Tree String × List Token)
  | 0, _, _, _ => none
  | fuel + 1, block, indentless, ts =>
    match ts with
    | .alias name :: ts => some (.alias name, ts)
    | ts => do
      let ((anchor, tag), ts) ← properties? handles ts
      match ts with
      | .scalar style text :: ts => return (.scalar anchor tag style text, ts)
      | .flowSequence :: ts =>
        let (items, ts) ← readItems handles fuel true ts
        return (.sequence anchor tag items, ts)
      | .flowMapping :: ts =>
        let (pairs, ts) ← readPairs handles fuel true ts
        return (.mapping anchor tag pairs, ts)
      | .entry :: _ =>
        if indentless then
          let (items, ts) ← readEntries handles fuel false ts
          return (.sequence anchor tag items, ts)
        else if anchor.isSome || tag.isSome then return (.scalar anchor tag .plain "", ts)
        else none
      | .blockSequence :: rest =>
        if block then
          let (items, ts) ← readEntries handles fuel true rest
          return (.sequence anchor tag items, ts)
        else if anchor.isSome || tag.isSome then return (.scalar anchor tag .plain "", ts)
        else none
      | .blockMapping :: rest =>
        if block then
          let (pairs, ts) ← readLines handles fuel rest
          return (.mapping anchor tag pairs, ts)
        else if anchor.isSome || tag.isSome then return (.scalar anchor tag .plain "", ts)
        else none
      | ts =>
        if anchor.isSome || tag.isSome then return (.scalar anchor tag .plain "", ts) else none

/-- Reads entries behind the start of their lines, up to the end if there is a mark of it. -/
def readEntries (handles : Handles) : Nat → (ended : Bool) → List Token →
    Option (List (Tree String) × List Token)
  | 0, _, _ => none
  | fuel + 1, ended, ts =>
    match ts with
    | .entry :: ts => do
      let (item, ts) ← match ts with
        | .entry :: _ | .blockEnd :: _ => some (absent, ts)
        | .key :: _ | .value :: _ =>
          if ended then read handles fuel true false ts else some (absent, ts)
        | ts => read handles fuel true false ts
      let (items, ts) ← readEntries handles fuel ended ts
      return (item :: items, ts)
    | .blockEnd :: rest => if ended then some ([], rest) else some ([], ts)
    | ts => if ended then none else some ([], ts)

/-- Reads pairs behind the start of their lines, up to the end. -/
def readLines (handles : Handles) :
    Nat → List Token → Option (List (Tree String × Tree String) × List Token)
  | 0, _ => none
  | fuel + 1, ts =>
    match ts with
    | .key :: ts => do
      let part (ts : List Token) := match ts with
        | .key :: _ | .value :: _ | .blockEnd :: _ => some (absent, ts)
        | ts => read handles fuel true true ts
      let (key, ts) ← part ts
      let (value, ts) ← match ts with
        | .value :: ts => part ts
        | ts => some (absent, ts)
      let (pairs, ts) ← readLines handles fuel ts
      return ((key, value) :: pairs, ts)
    | .blockEnd :: ts => some ([], ts)
    | _ => none

/-- Reads the entries in brackets, up to the closing one. -/
def readItems (handles : Handles) : Nat → (first : Bool) → List Token →
    Option (List (Tree String) × List Token)
  | 0, _, _ => none
  | fuel + 1, first, ts => do
    let ts ← match first, ts with
      | true, ts => some ts
      | false, .separator :: ts => some ts
      | false, .flowSequenceEnd :: _ => some ts
      | false, _ => none
    match ts with
    | .flowSequenceEnd :: ts => return ([], ts)
    | .key :: ts =>
      let (key, ts) ← match ts with
        | .value :: rest | .separator :: rest | .flowSequenceEnd :: rest => some (absent, rest)
        | ts => read handles fuel false false ts
      let (value, ts) ← match ts with
        | .value :: ts => match ts with
          | .separator :: _ | .flowSequenceEnd :: _ => some (absent, ts)
          | ts => read handles fuel false false ts
        | ts => some (absent, ts)
      let (items, ts) ← readItems handles fuel false ts
      return (.mapping none none [(key, value)] :: items, ts)
    | ts =>
      let (item, ts) ← read handles fuel false false ts
      let (items, ts) ← readItems handles fuel false ts
      return (item :: items, ts)

/-- Reads the pairs in brackets, up to the closing one. -/
def readPairs (handles : Handles) : Nat → (first : Bool) → List Token →
    Option (List (Tree String × Tree String) × List Token)
  | 0, _, _ => none
  | fuel + 1, first, ts => do
    let ts ← match first, ts with
      | true, ts => some ts
      | false, .separator :: ts => some ts
      | false, .flowMappingEnd :: _ => some ts
      | false, _ => none
    match ts with
    | .flowMappingEnd :: ts => return ([], ts)
    | .key :: ts =>
      let (key, ts) ← match ts with
        | .value :: _ | .separator :: _ | .flowMappingEnd :: _ => some (absent, ts)
        | ts => read handles fuel false false ts
      let (value, ts) ← match ts with
        | .value :: ts => match ts with
          | .separator :: _ | .flowMappingEnd :: _ => some (absent, ts)
          | ts => read handles fuel false false ts
        | ts => some (absent, ts)
      let (pairs, ts) ← readPairs handles fuel false ts
      return ((key, value) :: pairs, ts)
    | ts =>
      let (key, ts) ← read handles fuel false false ts
      let (pairs, ts) ← readPairs handles fuel false ts
      return ((key, absent) :: pairs, ts)

end

/-- The handles of tags after the directives in front of a document, and the tokens behind them.
One version may be named, of the first major number, and no handle twice. -/
def readDirectives : (named : Bool) → Handles → List Token → Option (Handles × List Token)
  | named, handles, .directive (.version major minor) :: ts =>
    if named || major ≠ 1 || (minor ≠ 1 && minor ≠ 2) then none
    else readDirectives true handles ts
  | named, handles, .directive (.handle handle meaning) :: ts =>
    if (handles.lookup handle).isSome then none
    else readDirectives named (handles ++ [(handle, meaning)]) ts
  | _, handles, ts => some (handles ++ usualHandles, ts)

/-- Reads the value of a document. -/
def readValue (handles : Handles) (ts : List Token) : Option (Tree String × List Token) :=
  read handles (2 * ts.length + 1) true false ts

/-- The value of a text of one document; a text of none has one that is left out. -/
def ofTokens? (ts : List Token) : Option (Tree String) := do
  let (tree, ts) ← match ts with
    | [] => some (absent, [])
    | .documentStart :: _ | .directive _ :: _ => do
      let (handles, ts) ← readDirectives false [] ts
      match ts with
      | .documentStart :: ts => match ts with
        | [] | .documentStart :: _ | .documentEnd :: _ | .directive _ :: _ => some (absent, ts)
        | ts => readValue handles ts
      | _ => none
    | ts => readValue usualHandles ts
  if ts.all (· = .documentEnd) then some tree else none

end Tree

end SealedGraph.Yaml
