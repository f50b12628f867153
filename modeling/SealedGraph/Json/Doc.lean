import SealedGraph.Json.Token

/-!
# Documents

A text as a tree that keeps what a reader can see of it before it stops being JSON: the place of
the first fault is a leaf `broken`, and everything behind it is cut off. A typed reader walks the
tree in the order of the text and so meets the first problem of the text first, be it a fault of
the text or a value of the wrong kind.

The tree is built by a machine that keeps the arrays and objects that are still open.
-/

namespace SealedGraph.Json

/-- A tree over the tokens of a text. -/
inductive Doc
  /-- the text is at fault here, and nothing follows -/
  | broken
  | null
  | bool (b : Bool)
  /-- `none` is a number out of range -/
  | number (value : Option Number)
  /-- `none` is a string with a surrogate that has no partner -/
  | string (value : Option String)
  | array (items : List Doc)
  /-- a key is `none` where the text is at fault before a key is complete -/
  | object (members : List (Option String × Doc))
  deriving Repr, Inhabited

namespace Doc

/-- Something open around the place of reading, with what it holds so far, the latest first. -/
inductive Frame
  | array (before : List Doc)
  /-- an object at the value of `key` -/
  | object (before : List (Option String × Doc)) (key : Option String)
  deriving Repr

/-- The tree of a frame that ends with `last`. -/
def Frame.close (last : Doc) : Frame → Doc
  | .array before => .array (last :: before).reverse
  | .object before key => .object ((key, last) :: before).reverse

/-- The whole tree, if all that is open ends with `last`. -/
def plug (last : Doc) (frames : List Frame) : Doc := frames.foldl Frame.close last

/-- What may come next. -/
inductive Place
  | value
  /-- a value, or the end of an array without items -/
  | firstItem
  /-- a key of the object with these members -/
  | key (before : List (Option String × Doc))
  /-- a key, or the end of an object without members -/
  | firstKey
  /-- the colon behind a key -/
  | colon (before : List (Option String × Doc)) (key : Option String)
  /-- behind this value -/
  | after (done : Doc)
  deriving Repr

/-- The tree that is left when the text is at fault at a place. -/
def cut (frames : List Frame) : Place → Doc
  | .value => plug broken frames
  | .firstItem => plug (.array [broken]) frames
  | .key before => plug (.object ((none, broken) :: before).reverse) frames
  | .firstKey => plug (.object [(none, broken)]) frames
  | .colon before key => plug (.object ((key, broken) :: before).reverse) frames
  | .after done =>
    match frames with
    | [] => done
    | .array before :: frames => plug (.array (broken :: done :: before).reverse) frames
    | .object before key :: frames =>
      plug (.object ((none, broken) :: (key, done) :: before).reverse) frames

/-- What the token that begins a value does: the place after it, with the frames then open. -/
def beginValue (frames : List Frame) : Token → Option (Place × List Frame)
  | .null => some (.after .null, frames)
  | .bool b => some (.after (.bool b), frames)
  | .number n => some (.after (.number n), frames)
  | .string s => some (.after (.string s), frames)
  | .openArray => some (.firstItem, frames)
  | .openObject => some (.firstKey, frames)
  | _ => none

/-- What a token does at a place. -/
def step (frames : List Frame) : Place → Token → Option (Place × List Frame)
  | .value, t => beginValue frames t
  | .firstItem, .closeArray => some (.after (.array []), frames)
  | .firstItem, t => beginValue (.array [] :: frames) t
  | .key before, .string s => some (.colon before s, frames)
  | .key _, _ => none
  | .firstKey, .string s => some (.colon [] s, frames)
  | .firstKey, .closeObject => some (.after (.object []), frames)
  | .firstKey, _ => none
  | .colon before key, .colon => some (.value, .object before key :: frames)
  | .colon _ _, _ => none
  | .after done, t =>
    match frames, t with
    | .array before :: frames, .comma => some (.value, .array (done :: before) :: frames)
    | .array before :: frames, .closeArray =>
      some (.after (.array (done :: before).reverse), frames)
    | .object before key :: frames, .comma => some (.key ((key, done) :: before), frames)
    | .object before key :: frames, .closeObject =>
      some (.after (.object ((key, done) :: before).reverse), frames)
    | _, _ => none

/-- The tree of the tokens from a place on, and whether it is followed by anything. -/
def build : List Frame → Place → List Token → Doc × Bool
  | frames, place, [] => (cut frames place, false)
  | frames, place, t :: ts =>
    match step frames place t with
    | some (place, frames) => build frames place ts
    | none => (cut frames place, true)

end Doc

end SealedGraph.Json
