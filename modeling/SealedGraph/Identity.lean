import SealedGraph.Hash.Sha2
import SealedGraph.Text.Blank
import SealedGraph.Text.Digits
import SealedGraph.Text.Utf8

/-!
# Identities and keys

Who makes a request, and the keys that belong to an identity. One master secret seals sessions;
every pair of uid and role has a key of its own, derived from it, that seals the descriptors handed
to that identity.
-/

namespace SealedGraph

/-- The role that needs neither ownership nor permissions. -/
def adminRole : String := "sys"

/-- The characters that no role may contain: they separate fields, uid and role, and entries of
lists. -/
def reservedInRole : List Char := ['.', ':', ',']

/-- The character that no username may start with. -/
def reservedUsernameStart : Char := '~'

/-- A role that can stand in a descriptor. -/
def isValidRole (role : String) : Bool :=
  !role.isEmpty && !role.toList.any fun c => reservedInRole.contains c || Text.isBlank c

/-- A name that an account can have. -/
def isValidUsername (name : String) : Bool :=
  !(Text.trim name.toList).isEmpty && name.toList.head? != some reservedUsernameStart

/-- A uid that a client chose for a node that does not exist yet: a dollar sign and more. -/
def isPlaceholder (uid : String) : Bool :=
  match uid.toList with
  | c :: _ :: _ => c = '$'
  | _ => false

/-- A uid of the store's own form: `0x` and hexadecimal digits, in either case. -/
def isStoreUid (uid : String) : Bool :=
  match uid.toList with
  | '0' :: x :: d :: ds => (x = 'x' || x = 'X') && (d :: ds).all fun c => (Text.hexDigit? c).isSome
  | _ => false

/-- The secret that seals sessions and seeds every key. -/
structure MasterSecret where
  bytes : List UInt8
  nonempty : bytes ≠ []
  deriving DecidableEq

namespace MasterSecret

/-- The secret with the given bytes, unless there are none. -/
def ofBytes? (bytes : List UInt8) : Option MasterSecret :=
  if h : bytes = [] then none else some ⟨bytes, h⟩

/-- The secret of a passphrase: its hash. -/
def ofPassphrase? (passphrase : String) : Option MasterSecret :=
  if passphrase.isEmpty then none else ofBytes? (sha512_256 (bytesOf passphrase))

/-- What may be printed of a secret: its length. -/
def redacted (secret : MasterSecret) : String :=
  "MasterSecret(<" ++ decimal secret.bytes.length ++ " bytes redacted>)"

end MasterSecret

/-- The key of one identity. -/
structure IdentityKey where
  bytes : List UInt8
  deriving DecidableEq, Repr

namespace IdentityKey

/-- What stands between uid and role when a key is derived. -/
def separator : List UInt8 := bytesOf "::"

/-- The bytes whose hash is the key of an identity. -/
def seed (master : MasterSecret) (uid role : String) : List UInt8 :=
  master.bytes ++ bytesOf uid ++ separator ++ bytesOf role

/-- The key of an identity. -/
def derive (master : MasterSecret) (uid role : String) : IdentityKey :=
  ⟨sha512_256 (seed master uid role)⟩

/-- What may be printed of a key. -/
def redacted (_ : IdentityKey) : String := "IdentityKey(<redacted>)"

end IdentityKey

/-- Who makes a request, with the key of that identity. -/
structure Caller where
  uid : String
  role : String
  session : String
  key : IdentityKey
  deriving DecidableEq, Repr

namespace Caller

/-- The caller with an identity and a session. -/
def of (master : MasterSecret) (uid role session : String) : Caller :=
  ⟨uid, role, session, .derive master uid role⟩

/-- Whether the caller is an administrator. -/
def isAdmin (c : Caller) : Bool := c.role = adminRole

/-- Whether the caller is the given owner. -/
def isOwner (c : Caller) (owner : Option String) : Bool := owner = some c.uid

/-- Whether the caller needs no permissions, as an administrator or as the owner. -/
def bypasses (c : Caller) (owner : Option String) : Bool := c.isAdmin || c.isOwner owner

end Caller

end SealedGraph
