import SealedGraph.Host.Files

/-!
# Work on a host

What a command may ask of the machine that it runs on, one request after the other, and what comes
of it in given surroundings. A command itself is only the plan; the same plan can be carried out in
surroundings that are a value, or on a machine.

* `perform_bind`: the plan of two parts is carried out part by part.
-/

namespace SealedGraph.Host

/-- A plan that ends with an `α`. Behind each request stands what to do with its answer. -/
inductive Work (α : Type) : Type
  | done (a : α)
  /-- the value of a setting of the machine -/
  | setting (name : String) (next : Option String → Work α)
  /-- give a setting a value until the work is done -/
  | define (name value : String) (next : Unit → Work α)
  /-- what a path leads to -/
  | entry (path : String) (next : Option Entry → Work α)
  /-- make a directory and all that it lies in -/
  | makeDirectories (path : String) (next : Bool → Work α)
  /-- make a file for its owner only, where none is yet -/
  | create (path : String) (bytes : List UInt8) (next : Bool → Work α)
  /-- make a file, or change the one that is there -/
  | write (path : String) (bytes : List UInt8) (next : Bool → Work α)
  /-- some random bytes -/
  | random (count : Nat) (next : List UInt8 → Work α)
  /-- print a line -/
  | say (line : String) (next : Unit → Work α)
  /-- take requests at an address -/
  | listen (address : String) (next : Bool → Work α)

namespace Work

variable {α β : Type}

/-- One plan after the other. -/
def andThen (f : α → Work β) : Work α → Work β
  | done a => f a
  | setting name next => setting name fun v => (next v).andThen f
  | define name value next => define name value fun v => (next v).andThen f
  | entry path next => entry path fun v => (next v).andThen f
  | makeDirectories path next => makeDirectories path fun v => (next v).andThen f
  | create path bytes next => create path bytes fun v => (next v).andThen f
  | write path bytes next => write path bytes fun v => (next v).andThen f
  | random count next => random count fun v => (next v).andThen f
  | say line next => say line fun v => (next v).andThen f
  | listen address next => listen address fun v => (next v).andThen f

instance : Monad Work where
  pure := done
  bind x f := x.andThen f

end Work

/-- The surroundings of a command. -/
structure Surroundings where
  files : Files
  settings : String → Option String
  /-- the random bytes of a draw, by its number and their count -/
  random : Nat → Nat → List UInt8
  /-- the number of draws so far -/
  drawn : Nat
  /-- the lines printed so far -/
  said : List String
  /-- whether requests can be taken at an address -/
  listens : String → Bool

namespace Surroundings

/-- The surroundings after work on the files that may not succeed. -/
def withFiles (s : Surroundings) : Option Files → Bool × Surroundings
  | some f => (true, { s with files := f })
  | none => (false, s)

/-- The bytes of the next draw. -/
def draw (s : Surroundings) (count : Nat) : List UInt8 × Surroundings :=
  (s.random s.drawn count, { s with drawn := s.drawn + 1 })

/-- The surroundings with a value for a setting. -/
def define (s : Surroundings) (name value : String) : Surroundings :=
  { s with settings := fun n => if n = name then some value else s.settings n }

/-- The surroundings with one more line printed. -/
def say (s : Surroundings) (line : String) : Surroundings := { s with said := s.said ++ [line] }

end Surroundings

namespace Work

variable {α β : Type}

/-- Carries a plan out in surroundings. -/
def perform : Work α → Surroundings → α × Surroundings
  | done a, s => (a, s)
  | setting name next, s => (next (s.settings name)).perform s
  | define name value next, s => (next ()).perform (s.define name value)
  | entry path next, s => (next (s.files.entry? path)).perform s
  | makeDirectories path next, s =>
    let (ok, files) := s.files.makeDirectories path
    (next ok).perform { s with files := files }
  | create path bytes next, s =>
    let (ok, s) := s.withFiles (s.files.create path bytes)
    (next ok).perform s
  | write path bytes next, s =>
    let (ok, s) := s.withFiles (s.files.write path bytes)
    (next ok).perform s
  | random count next, s =>
    let (bytes, s) := s.draw count
    (next bytes).perform s
  | say line next, s => (next ()).perform (s.say line)
  | listen address next, s => (next (s.listens address)).perform s

theorem perform_bind (x : Work α) (f : α → Work β) (s : Surroundings) :
    (x >>= f).perform s = (f (x.perform s).1).perform (x.perform s).2 := by
  show (x.andThen f).perform s = _
  induction x generalizing s with
  | done a => rfl
  | setting _ _ ih | entry _ _ ih | say _ _ ih | listen _ _ ih => exact ih _ _
  | define _ _ _ ih | makeDirectories _ _ ih | create _ _ _ ih | write _ _ _ ih | random _ _ ih =>
    exact ih _ _

/-! ## The single requests -/

/-- The value of a setting of the machine. -/
def settingOf (name : String) : Work (Option String) := setting name done

/-- Gives a setting a value until the work is done. -/
def defineSetting (name value : String) : Work Unit := define name value done

/-- What a path leads to. -/
def entryAt (path : String) : Work (Option Entry) := entry path done

/-- Makes a directory and all that it lies in. -/
def makeDirectoriesAt (path : String) : Work Bool := makeDirectories path done

/-- Makes a file for its owner only, where none is yet. -/
def createAt (path : String) (bytes : List UInt8) : Work Bool := create path bytes done

/-- Makes a file, or changes the one that is there. -/
def writeAt (path : String) (bytes : List UInt8) : Work Bool := write path bytes done

/-- Some random bytes. -/
def randomBytes (count : Nat) : Work (List UInt8) := random count done

/-- Prints a line. -/
def sayLine (line : String) : Work Unit := say line done

/-- Takes requests at an address, and answers whether that succeeds. -/
def listenAt (address : String) : Work Bool := listen address done

end Work

end SealedGraph.Host
