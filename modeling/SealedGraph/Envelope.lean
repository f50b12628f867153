import SealedGraph.Base64Url
import SealedGraph.Hash.Hmac
import SealedGraph.Text.Split
import SealedGraph.Text.Utf8

/-!
# Signed payloads

A payload travels as two segments with a dot between them: the payload in base64, and the tag of
that first segment under a key. The tag covers the written segment and not the payload's bytes,
and whatever is wrong with a token it is refused in the same way.
-/

namespace SealedGraph.Envelope

/-- A token that is not the token of any payload under the key. -/
inductive Error
  | invalid
  deriving DecidableEq, Repr

/-- The text of the error, which does not say what was wrong. -/
def Error.message : Error → String
  | .invalid => "invalid descriptor"

/-- The dot between the two segments. -/
def separator : Char := '.'

/-- The first segment: the payload in base64. -/
def body (payload : String) : List Char := Base64Url.encode (bytesOf payload)

/-- The tag of a first segment under a key, the key first made one block. -/
def tag (key : List UInt8) (body : List Char) : List UInt8 :=
  Hmac.mac (Hmac.keyBlock key) (Utf8.encode body)

/-- The token of a payload. -/
def sign (key : List UInt8) (payload : String) : String :=
  let body := body payload
  String.ofList (body ++ separator :: Base64Url.encode (tag key body))

/-- The payload of two segments, if the second is the tag of the first. -/
def openSegments (key : List UInt8) (body mac : List Char) : Option String := do
  let mac ← Base64Url.decode mac
  if mac = tag key body then
    let payload ← stringOf? (← Base64Url.decode body)
    if payload.isEmpty then none else some payload
  else none

/-- The payload of a token, if the token was signed with the key. -/
def verify (key : List UInt8) (token : String) : Except Error String :=
  match Text.split separator token.toList with
  | [body, mac] =>
    match openSegments key body mac with
    | some payload => .ok payload
    | none => .error .invalid
  | _ => .error .invalid

end SealedGraph.Envelope
