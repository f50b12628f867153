import SealedGraph.Registry.Operation

/-!
# A registry as its callers see it

Calls one after the other. A call may fail, and then the operation may still have been done: a link
carries what will happen to its next calls, none of which fails once that list has come to its end.
A registry that is closed does nothing any more.
-/

namespace SealedGraph.Registry

/-- What happens to a call. -/
inductive Fate
  | answered
  /-- the caller gets an error; `done` says whether the operation is done all the same -/
  | failed (error : Error) (done : Bool)
  deriving DecidableEq, Repr

/-- A registry and what will happen to the calls to it. -/
structure Link where
  table : Table
  closed : Bool
  fates : List Fate
  deriving DecidableEq, Repr

namespace Link

/-- A registry that answers every call. -/
def responsive (table : Table) : Link := ⟨table, false, []⟩

/-- Whether every call from now on is answered. -/
def isResponsive (l : Link) : Bool := !l.closed && l.fates.all (· = .answered)

/-- What happens to the next call. -/
def nextFate (l : Link) : Fate :=
  if l.closed then .failed .closed false else l.fates.headD .answered

/-- The outcome of a call at a time, and the registry after it. -/
def call {k : Kind} (l : Link) (now : Nat) (op : Operation k) : Except Error k.Value × Link :=
  let (answer, table) := op.apply now l.table
  let fates := l.fates.drop 1
  match l.nextFate with
  | .answered => (.ok answer, { l with table := table, fates := fates })
  | .failed e true => (.error e, { l with table := table, fates := fates })
  | .failed e false => (.error e, { l with fates := fates })

/-- The registry once it is closed. -/
def close (l : Link) : Link := { l with closed := true }

end Link

end SealedGraph.Registry
