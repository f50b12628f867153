import SealedGraph.Registry.Operation

/-!
# Refusals

Why access is refused. A caller learns whether to log in again, and nothing about what was wrong
with a reference.
-/

namespace SealedGraph

/-- Why access is refused. -/
inductive AccessError
  /-- there is no token, or none that was issued here -/
  | unauthenticated
  /-- the session is too old -/
  | expired
  /-- the session was ended -/
  | revoked
  /-- a reference is not the caller's, or does not permit what is asked -/
  | forbidden
  /-- the registry could not be asked -/
  | unavailable (error : Registry.Error)
  deriving DecidableEq, Repr

namespace AccessError

/-- The text of a refusal. -/
def message : AccessError → String
  | .unauthenticated => "missing or invalid auth token"
  | .expired => "token expired"
  | .revoked => "session revoked"
  | .forbidden => "forbidden"
  | .unavailable e => e.message

/-- The short reason, as it is counted and told to the caller. -/
def reason : AccessError → String
  | .unauthenticated => "unauthenticated"
  | .expired => "expired"
  | .revoked => "revoked"
  | .forbidden => "forbidden"
  | .unavailable _ => "internal"

/-- Whether the caller has to log in again. -/
def needsLogin : AccessError → Bool
  | .unauthenticated => true
  | .expired => true
  | .revoked => true
  | .forbidden => false
  | .unavailable _ => false

end AccessError

end SealedGraph
