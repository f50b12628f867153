import SealedGraph.Command.Run

/-!
# The program

The plan of a command, carried out on the machine. Nothing here decides anything: each request of a
plan is one action, and its answer goes back into the plan. There are no sockets, so no address can
be listened on.
-/

namespace SealedGraph

open Host (Work Entry)

/-- Whether an action succeeds. -/
def succeeds (action : IO Unit) : IO Bool := do
  try
    action
    return true
  catch _ => return false

/-- What an open handle reads from: a file, or else a directory. -/
def entryBehind (handle : IO.FS.Handle) : IO Entry := do
  try
    return .file (← handle.readBinToEnd).toList false
  catch _ => return .directory

/-- What a path of the machine leads to. -/
def entryOnHost (path : String) : IO (Option Entry) := do
  try
    return some (← entryBehind (← IO.FS.Handle.mk path .read))
  catch _ => return none

/-- Makes a file for its owner only, where none is yet. -/
def createOnHost (path : String) (bytes : List UInt8) : IO Bool := succeeds do
  let handle ← IO.FS.Handle.mk path .writeNew
  IO.setAccessRights path { user := { read := true, write := true } }
  handle.write ⟨bytes.toArray⟩

/-- Carries a plan out on the machine, with some settings put over those of the machine. -/
def carryOut {α : Type} (defined : List (String × String)) : Work α → IO α
  | .done a => return a
  | .setting name next => do
    let value ← match defined.lookup name with
      | some value => pure (some value)
      | none => IO.getEnv name
    carryOut defined (next value)
  | .define name value next => carryOut ((name, value) :: defined) (next ())
  | .entry path next => do carryOut defined (next (← entryOnHost path))
  | .makeDirectories path next => do
    carryOut defined (next (← succeeds (IO.FS.createDirAll path)))
  | .create path bytes next => do carryOut defined (next (← createOnHost path bytes))
  | .write path bytes next => do
    carryOut defined (next (← succeeds (IO.FS.writeBinFile path ⟨bytes.toArray⟩)))
  | .random count next => do
    carryOut defined (next (← IO.getRandomBytes (USize.ofNat count)).toList)
  | .say line next => do
    IO.println line
    carryOut defined (next ())
  | .listen _ next => carryOut defined (next false)

end SealedGraph

/-- Runs the program on some arguments. -/
def main (args : List String) : IO UInt32 := do
  let ending ← SealedGraph.carryOut [] (SealedGraph.Command.run args)
  if let some complaint := ending.complaint then
    IO.eprintln complaint
  return UInt32.ofNat ending.status
