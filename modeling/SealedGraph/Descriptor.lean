import SealedGraph.Envelope
import SealedGraph.Permissions
import SealedGraph.Text.Digits

/-!
# Descriptors

What a token vouches for: a node with its owner and permissions, a user with a role, or a session
with its time of issue. As a payload, the fields stand in order with dots between them:

* a node: `uid.owner.letters`
* a user: `uid.role.` with an empty last field
* a session: `uid.role.session.timestamp`

There is no escaping. A payload with another number of fields, or with an empty uid, is none of
them.
-/

namespace SealedGraph

/-- The dot between the fields of a payload. -/
def fieldSeparator : Char := '.'

/-- The fields of a payload. -/
def payloadFields (payload : String) : List String :=
  (Text.split fieldSeparator payload.toList).map String.ofList

/-- The payload with the given fields. -/
def payloadOf (fields : List String) : String :=
  String.ofList (Text.join fieldSeparator (fields.map String.toList))

/-- A node's identity, owner and permissions. -/
structure NodeDescriptor where
  uid : String
  /-- empty if no owner is known -/
  owner : String
  permissions : Permissions
  deriving DecidableEq, Repr

/-- Another user, such as the recipient of a share. -/
structure UserDescriptor where
  uid : String
  role : String
  deriving DecidableEq, Repr

/-- The claims of a session. -/
structure SessionDescriptor where
  uid : String
  role : String
  session : String
  /-- seconds since 1970 at the time of issue -/
  timestamp : Int64
  deriving DecidableEq, Repr

namespace NodeDescriptor

/-- The payload of a node descriptor. -/
def payload (d : NodeDescriptor) : String := payloadOf [d.uid, d.owner, d.permissions.letters]

/-- The node descriptor with a payload. -/
def parse? (payload : String) : Option NodeDescriptor :=
  match payloadFields payload with
  | [uid, owner, letters] =>
    if uid.isEmpty then none else some ⟨uid, owner, .ofLetters letters⟩
  | _ => none

/-- Whether an owner is known. -/
def hasOwner (d : NodeDescriptor) : Bool := !d.owner.isEmpty

/-- The owner, if one is known. -/
def owner? (d : NodeDescriptor) : Option String := if d.hasOwner then some d.owner else none

/-- The token of a descriptor under a key. -/
def pack (key : List UInt8) (d : NodeDescriptor) : String := Envelope.sign key d.payload

/-- The descriptor of a token that was packed under the key. -/
def unpack (key : List UInt8) (token : String) : Except Envelope.Error NodeDescriptor := do
  match parse? (← Envelope.verify key token) with
  | some d => .ok d
  | none => .error .invalid

end NodeDescriptor

namespace UserDescriptor

/-- The payload of a user descriptor. -/
def payload (d : UserDescriptor) : String := payloadOf [d.uid, d.role, ""]

/-- The user descriptor with a payload; what the last field holds does not matter. -/
def parse? (payload : String) : Option UserDescriptor :=
  match payloadFields payload with
  | [uid, role, _] => if uid.isEmpty then none else some ⟨uid, role⟩
  | _ => none

/-- The token of a descriptor under a key. -/
def pack (key : List UInt8) (d : UserDescriptor) : String := Envelope.sign key d.payload

/-- The descriptor of a token that was packed under the key. -/
def unpack (key : List UInt8) (token : String) : Except Envelope.Error UserDescriptor := do
  match parse? (← Envelope.verify key token) with
  | some d => .ok d
  | none => .error .invalid

end UserDescriptor

namespace SessionDescriptor

/-- The payload of a session descriptor. -/
def payload (d : SessionDescriptor) : String :=
  payloadOf [d.uid, d.role, d.session, String.ofList (Text.int64Text d.timestamp)]

/-- The session descriptor with a payload. -/
def parse? (payload : String) : Option SessionDescriptor :=
  match payloadFields payload with
  | [uid, role, session, timestamp] =>
    if uid.isEmpty || session.isEmpty then none
    else (Text.readInt64 timestamp.toList).map fun t => ⟨uid, role, session, t⟩
  | _ => none

/-- Whole seconds between the issue and `now`, kept within a signed word. -/
def age (d : SessionDescriptor) (now : Int64) : Int :=
  max (Text.minSigned 64) (min (Text.maxSigned 64) (now.toInt - d.timestamp.toInt))

/-- The token of a descriptor under a key. -/
def pack (key : List UInt8) (d : SessionDescriptor) : String := Envelope.sign key d.payload

/-- The descriptor of a token that was packed under the key. -/
def unpack (key : List UInt8) (token : String) : Except Envelope.Error SessionDescriptor := do
  match parse? (← Envelope.verify key token) with
  | some d => .ok d
  | none => .error .invalid

end SessionDescriptor

end SealedGraph
