import SealedGraph.Text.Split

/-!
# Files

The files and directories of a host, and paths as the ways to them. A path is read one name after
the other, from the root if it starts with a slash and else from the directory of work. It may go up
again, at the root to no avail, and what stands before a slash has to be a directory. Nothing has a
name or a path that is too long for a disk.

* `find?_put`, `find?_put_ne`: what is put behind a way is found there, and nothing else moves.
-/

namespace SealedGraph.Host

/-- What a way can lead to. -/
inductive Entry
  | directory
  /-- a file, and whether only its owner may read it -/
  | file (bytes : List UInt8) (guarded : Bool)
  deriving DecidableEq, Repr

/-- The entries of a host by the names that lead to them from its root. -/
structure Files where
  entries : List (List String × Entry)
  /-- the directory of work -/
  here : List String
  deriving DecidableEq, Repr

namespace Files

/-- An empty directory of work, and those that it lies in. -/
def within (here : List String) : Files :=
  ⟨(List.range here.length).map fun n => (here.take (n + 1), .directory), here⟩

/-- The entry behind some names; without a name, the root. -/
def find? (f : Files) (way : List String) : Option Entry :=
  if way = [] then some .directory else f.entries.lookup way

/-- The files with an entry behind some names. -/
def put (f : Files) (way : List String) (e : Entry) : Files :=
  { f with entries := (way, e) :: f.entries.filter fun x => x.1 ≠ way }

/-- What stands between the slashes of a path. -/
def steps (path : String) : List String := (Text.split '/' path.toList).map String.ofList

/-- Steps that stay where they are. -/
def isStill (step : String) : Bool := step = "" || step = "."

/-- The most bytes of a name. -/
def maxNameBytes : Nat := 255

/-- The most bytes of a path. -/
def maxPathBytes : Nat := 4095

/-- Whether a step is too long to be a name. -/
def isTooLong (step : String) : Bool := maxNameBytes < step.utf8ByteSize

/-- The names that lead to the end of some steps, if there is something. -/
def walk (f : Files) : List String → List String → Option (List String)
  | way, [] => if (f.find? way).isSome then some way else none
  | way, step :: rest =>
    if f.find? way ≠ some .directory ∨ isTooLong step = true then none
    else if isStill step then walk f way rest
    else if step = ".." then walk f way.dropLast rest
    else walk f (way ++ [step]) rest

/-- Whether a text can be a path at all. -/
def isPath (path : String) : Bool :=
  path ≠ "" && !path.toList.contains '\x00' && path.utf8ByteSize ≤ maxPathBytes

/-- The names that lead to where a path starts. -/
def origin (f : Files) (path : String) : List String :=
  if path.toList.head? = some '/' then [] else f.here

/-- The names that lead to the end of a path, if there is something. -/
def resolve (f : Files) (path : String) : Option (List String) :=
  if isPath path then f.walk (f.origin path) (steps path) else none

/-- What a path leads to. -/
def entry? (f : Files) (path : String) : Option Entry := (f.resolve path).bind f.find?

/-- The bytes of the file that a path leads to. -/
def read? (f : Files) (path : String) : Option (List UInt8) :=
  match f.entry? path with
  | some (.file bytes _) => some bytes
  | _ => none

/-- The files with all directories on the way along some steps, up to a file that is in the way or a
name that is too long, and whether there is neither. -/
def makeAlong (f : Files) : List String → List String → Bool × Files
  | _, [] => (true, f)
  | way, step :: rest =>
    if isStill step then makeAlong f way rest
    else if step = ".." then makeAlong f way.dropLast rest
    else if isTooLong step then (false, f)
    else match f.find? (way ++ [step]) with
      | some .directory => makeAlong f (way ++ [step]) rest
      | some (.file _ _) => (false, f)
      | none => makeAlong (f.put (way ++ [step]) .directory) (way ++ [step]) rest

/-- The files with the directory of a path and all that it lies in, as far as they can be made, and
whether that is all of them. -/
def makeDirectories (f : Files) (path : String) : Bool × Files :=
  if isPath path then f.makeAlong (f.origin path) (steps path) else (false, f)

/-- The names behind which a new entry of a path would stand: its directory is there, it is not, and
the path ends in a name. -/
def vacancy? (f : Files) (path : String) : Option (List String) :=
  match (steps path).getLast? with
  | some name =>
    if isPath path && !isStill name && name ≠ ".." && !isTooLong name then
      (f.walk (f.origin path) (steps path).dropLast).bind fun way =>
        if f.find? way = some .directory ∧ f.find? (way ++ [name]) = none then some (way ++ [name])
        else none
    else none
  | none => none

/-- The files with a new file that only its owner may read. -/
def create (f : Files) (path : String) (bytes : List UInt8) : Option Files :=
  (f.vacancy? path).map fun way => f.put way (.file bytes true)

/-- The files with other bytes in a file, which is new if it was not there. -/
def write (f : Files) (path : String) (bytes : List UInt8) : Option Files :=
  match f.resolve path with
  | some way => match f.find? way with
    | some (.file _ guarded) => some (f.put way (.file bytes guarded))
    | _ => none
  | none => (f.vacancy? path).map fun way => f.put way (.file bytes false)

theorem find?_put (f : Files) {way : List String} (h : way ≠ []) (e : Entry) :
    (f.put way e).find? way = some e := by
  simp [find?, put, h]

theorem lookup_filter_ne {way other : List String} (h : other ≠ way)
    (l : List (List String × Entry)) :
    (l.filter fun x => x.1 ≠ way).lookup other = l.lookup other := by
  induction l with
  | nil => rfl
  | cons x l ih =>
    obtain ⟨k, e⟩ := x
    by_cases hx : k = way
    · have hb : (other == k) = false := by simp [hx, h]
      rw [List.filter_cons_of_neg (by simp [hx]), ih, List.lookup_cons, hb]
    · rw [List.filter_cons_of_pos (by simp [hx]), List.lookup_cons, List.lookup_cons, ih]

theorem find?_put_ne (f : Files) {way other : List String} (h : other ≠ way) (e : Entry) :
    (f.put way e).find? other = f.find? other := by
  have hb : (other == way) = false := by simp [h]
  have := lookup_filter_ne h f.entries
  simp only [ne_eq, decide_not] at this
  simp [find?, put, List.lookup_cons, hb, this]

/-! ## Paths as texts -/

/-- A path, read from its end, without the slashes at its end and without the steps there that stay
where they are. -/
def trimEnd : List Char → List Char
  | ['/'] => ['/']
  | '/' :: cs => trimEnd cs
  | '.' :: '/' :: cs => trimEnd ('/' :: cs)
  | cs => cs

/-- The path of the directory that a path lies in: all but its last step. -/
def parent (path : String) : String :=
  String.ofList (trimEnd ((trimEnd path.toList.reverse).dropWhile (· ≠ '/'))).reverse

end Files

end SealedGraph.Host
