import SealedGraph.Access.Error
import SealedGraph.Descriptor
import SealedGraph.Identity
import SealedGraph.Registry.Link
import SealedGraph.Text.Blank
import SealedGraph.Text.Start

/-!
# Sessions

Who a token lets in. A session token is sealed with the master secret; it is good for a time, and as
long as the registry knows the session. A token that is too old takes its session with it.
-/

namespace SealedGraph

/-- What stands before the token in a header. -/
def bearerMark : List Char := "Bearer ".toList

/-- The token of a header. -/
def bearerToken? (header : Option String) : Option String := do
  let token := Text.trim (← Text.after? bearerMark (← header).toList)
  if token.isEmpty then none else some (String.ofList token)

/-- What sessions are checked against. -/
structure Gate where
  master : MasterSecret
  /-- for how many seconds a session is good -/
  ttl : Nat
  deriving DecidableEq

namespace Gate

/-- The caller with an identity. -/
def caller (g : Gate) (uid role session : String) : Caller := .of g.master uid role session

/-- The age from which a session is too old, in seconds; it fits a signed word. -/
def maxAge (g : Gate) : Int := min g.ttl (Text.maxSigned 64)

/-- The caller whom a token lets in. `now` is the second on the clock, `instant` the time at which
the registry is asked. -/
def validate (g : Gate) (token : String) (now : Int64) (instant : Nat) (link : Registry.Link) :
    Except AccessError Caller × Registry.Link :=
  match SessionDescriptor.unpack g.master.bytes token with
  | .error _ => (.error .unauthenticated, link)
  | .ok d =>
    if g.maxAge ≤ d.age now then
      (.error .expired, (link.call instant (.deleteSession d.uid d.session)).2)
    else
      match link.call instant (.hasSession d.uid d.session) with
      | (.error e, link) => (.error (.unavailable e), link)
      | (.ok false, link) => (.error .revoked, link)
      | (.ok true, link) => (.ok (g.caller d.uid d.role d.session), link)

/-- The caller whom a header lets in. -/
def authenticate (g : Gate) (header : Option String) (now : Int64) (instant : Nat)
    (link : Registry.Link) : Except AccessError Caller × Registry.Link :=
  match bearerToken? header with
  | some token => g.validate token now instant link
  | none => (.error .unauthenticated, link)

end Gate

end SealedGraph
