import SealedGraph.Host.Work
import SealedGraph.Identity

/-!
# The master secret of a server

Where the secret comes from: a passphrase if there is one, else a key file if it is there, else
random bytes that are forgotten with the process. And the making of a key file, which never writes
over anything.
-/

namespace SealedGraph

open Host (Work)

/-- Where a master secret came from. -/
inductive SecretSource
  | passphrase
  | keyFile (path : String)
  | generated
  deriving DecidableEq, Repr

/-- The source in words. -/
def SecretSource.text : SecretSource → String
  | .passphrase => "passphrase"
  | .keyFile path => "key file " ++ path
  | .generated => "generated (ephemeral)"

/-- Why there is no master secret. -/
inductive SecretError
  | unreadable (path : String)
  | empty (path : String)
  deriving DecidableEq, Repr

/-- The error in words. -/
def SecretError.message : SecretError → String
  | .unreadable path => "Failed to read key file: " ++ path
  | .empty path => "Key file is empty: " ++ path

/-- Why a key file was not written. -/
inductive KeyFileError
  | taken (path : String)
  | directory (path : String)
  | file (path : String)
  deriving DecidableEq, Repr

/-- The error in words. -/
def KeyFileError.message : KeyFileError → String
  | .taken path => "Refusing to overwrite existing key file: " ++ path
  | .directory path => "Failed to create directory: " ++ path
  | .file path => "Failed to create key file: " ++ path

namespace MasterSecret

/-- The number of bytes of a secret that is made and not given. -/
def freshLength : Nat := 32

/-- The secret of a key file, if something is there. -/
def ofEntry (path : String) : Host.Entry → Except SecretError MasterSecret
  | .directory => .error (.unreadable path)
  | .file bytes _ => match ofBytes? bytes with
    | some secret => .ok secret
    | none => .error (.empty path)

/-- The secret of a draw of random bytes; a zero stands in for a draw of none. -/
def ofRandom (bytes : List UInt8) : MasterSecret :=
  if h : bytes = [] then ⟨[0], by simp⟩ else ⟨bytes, h⟩

/-- A secret of random bytes. -/
def generate : Work MasterSecret := return ofRandom (← Work.randomBytes freshLength)

/-- The secret of a server, and where it came from. -/
def load (passphrase keyFile : Option String) :
    Work (Except SecretError (MasterSecret × SecretSource)) := do
  if let some secret := passphrase.bind ofPassphrase? then
    return .ok (secret, .passphrase)
  if let some path := keyFile then
    if let some entry ← Work.entryAt path then
      return (ofEntry path entry).map fun secret => (secret, .keyFile path)
  return .ok (← generate, .generated)

/-- Writes a fresh secret into a new file. -/
def writeKeyFile (path : String) : Work (Except KeyFileError Unit) := do
  if (← Work.entryAt path).isSome then
    return .error (.taken path)
  let parent := Host.Files.parent path
  if parent ≠ "" then
    unless ← Work.makeDirectoriesAt parent do
      return .error (.directory parent)
  if ← Work.createAt path (← generate).bytes then
    return .ok ()
  else
    return .error (.file path)

end MasterSecret

end SealedGraph
