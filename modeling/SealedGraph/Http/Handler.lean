import SealedGraph.Http.MediaType
import SealedGraph.Http.Route
import SealedGraph.Server.Call

/-!
# The answer to a request

A path that names nothing is answered first; then, but for the resources that are there for
everyone, the caller has to be let in; then comes the method, then the parameter in the path, then
the body, and only then the call itself. Refusals are plain texts, which say no more than the caller
may know.
-/

namespace SealedGraph

open Http Json

namespace ServiceError

/-- The status and the text of a refusal by the store. -/
def ofStore (e : StoreError) : Nat × String :=
  match e.classOf with
  | .notFound => (404, e.detail)
  | .invalid => (400, e.detail)
  | .backend => (500, "internal error")

/-- The status and the text of a refusal. -/
def statusAndText : ServiceError → Nat × String
  | .access .forbidden => (403, AccessError.forbidden.reason)
  | .access (.unavailable _) => (500, "internal error")
  | .access e => (401, e.reason)
  | .request (.denied _) => (403, AccessError.forbidden.reason)
  | .request .adminOnly => (403, AccessError.forbidden.reason)
  | .request (.invalid flaw) => (400, flaw.message)
  | .store e => ofStore e
  | .userNotFound => (404, "user not found")
  | .invalidLogin => (401, "invalid login")
  | .throttled => (429, "too many failed login attempts")

end ServiceError

namespace Http

/-- Why a request is answered with a refusal. -/
inductive Refusal
  /-- a parameter of the path, given by its name, that is no text -/
  | badParameter (name : String)
  /-- a body that is not said to be JSON -/
  | notJson
  /-- a body that is not what the call needs -/
  | badBody (failure : Failure)
  | service (error : ServiceError)
  deriving DecidableEq, Repr

namespace Refusal

/-- The status and the text of a refusal. -/
def statusAndText : Refusal → Nat × String
  | .badParameter name => (400, "Invalid URL: Invalid UTF-8 in `" ++ name ++ "`")
  | .notJson => (400, "Expected request with `Content-Type: application/json`")
  | .badBody .mismatch => (400, "Failed to deserialize the JSON body into the target type")
  | .badBody .malformed => (400, "Failed to parse the request body as JSON")
  | .service e => e.statusAndText

/-- The response of a refusal. -/
def response (r : Refusal) : Response := ⟨r.statusAndText.1, .text r.statusAndText.2⟩

end Refusal

/-- The body of a request as a value of some type. -/
def readBody {α : Type} (shape : Shape α) (r : Request) : Except Refusal α :=
  if r.mediaType.any MediaType.isJson then
    match Json.read shape r.body with
    | .ok a => .ok a
    | .error e => .error (.badBody e)
  else .error .notJson

/-- The text of a parameter. -/
def readParameter (name parameter : String) : Except Refusal String :=
  match decodeParameter parameter with
  | some s => .ok s
  | none => .error (.badParameter name)

/-- How to make the call that a request is for, if the resource has the method. -/
def callOf (r : Request) : Resource → Method → Option (Except Refusal Call)
  | .logout, .post => some (.ok .logout)
  | .logoutEverywhere, .post => some (.ok .logoutEverywhere)
  | .check, .get => some (.ok .check)
  | .nodes, .post => some (.query <$> readBody QueryRequest.shape r)
  | .nodes, .patch => some (.update <$> readBody UpdateRequest.shape r)
  | .nodesUnder parent, .put => some do
    let parent ← readParameter "parent" parent
    let request ← readBody CreateRequest.shape r
    return .create { request with parent := parent }
  | .edges, .put => some (.addEdges <$> readBody EdgesRequest.shape r)
  | .edges, .delete => some (.removeEdges <$> readBody EdgesRequest.shape r)
  | .rootNode, .put => some (.createRoot <$> readBody RootRequest.shape r)
  | .list relation, .post => some (.list <$> readParameter "relation" relation)
  | .share, .put => some (.share <$> readBody ShareRequest.shape r)
  | .share, .delete => some (.unshare <$> readBody ShareRequest.shape r)
  | .userByName username, .get => some (.userByName <$> readParameter "username" username)
  | .userByUid uid, .get => some (.userByUid <$> readParameter "uid" uid)
  | .account, .put => some (.createAccount <$> readBody AccountRequest.shape r)
  | .accounts, .patch => some (.updateAccounts <$> readBody AccountsRequest.shape r)
  | _, _ => none

/-! ## Answers as values -/

/-- An answer about nodes. Lists without nodes are left out, and new nodes come in the order of
their placeholders. -/
def graphValue (a : GraphAnswer) : Value :=
  let nodes := if a.nodes.isEmpty then [] else [("result_nodes", .array (a.nodes.map Node.toJson))]
  let created := (a.created.mergeSort fun x y => x.1 ≤ y.1).map fun (p, n) => (p, n.toJson)
  .object (nodes ++ (if created.isEmpty then [] else [("created_nodes", .object created)]) ++
    [("timestamp", timestampValue a.time)])

/-- The body of an answer. -/
def answerBody : Answer → Body
  | .ok => .text "OK"
  | .ended n => .json (.object [("sessions", .number (.integer n))])
  | .graph a => .json (graphValue a)
  | .user u => .json (.object [("user", u.toJson)])
  | .users us => .json (.object [("users", .array (us.map User.toJson))])

/-- The body of a new session. -/
def sessionBody (s : IssuedSession) : Body :=
  .json (.object [("token", .string s.token), ("expires", .number (.integer s.expires))])

/-- The body that says that the server is well. -/
def healthBody : Body := .json (.object [("status", .string "ok")])

/-- The response with an outcome. -/
def respond {α : Type} (body : α → Body) : Except ServiceError α → Response
  | .ok a => ⟨200, body a⟩
  | .error e => (Refusal.service e).response

/-! ## Handling -/

/-- A path that names nothing. -/
def notFound : Response := ⟨404, .text ""⟩

/-- A method that the resource does not have. -/
def notAllowed : Response := ⟨405, .text ""⟩

/-- Answers a request to log in. -/
def handleLogin (m : Moment) (r : Request) (s : Server) : Response × Server :=
  match readBody LoginRequest.shape r with
  | .error e => (e.response, s)
  | .ok request =>
    match request.validate with
    | .error e => ((Refusal.service (.request e)).response, s)
    | .ok () =>
      let (outcome, s) := (login m request).run s
      (respond sessionBody outcome, s)

/-- Answers a request of a caller who has been let in. -/
def handleCall (m : Moment) (c : Caller) (resource : Resource) (method : Method) (r : Request)
    (s : Server) : Response × Server :=
  match callOf r resource method with
  | none => (notAllowed, s)
  | some (.error e) => (e.response, s)
  | some (.ok call) =>
    let (outcome, s) := (call.perform m c).run s
    (respond answerBody outcome, s)

/-- The method by which a resource is served: to ask for the head of a response is to get it. -/
def Method.served : Method → Method
  | .head => .get
  | method => method

/-- Answers a request with the full response. -/
def handleFull (m : Moment) (r : Request) (s : Server) : Response × Server :=
  match Resource.ofPath r.path with
  | none => (notFound, s)
  | some .login => if r.method = .post then handleLogin m r s else (notAllowed, s)
  | some .health => if r.method.served = .get then (⟨200, healthBody⟩, s) else (notAllowed, s)
  | some resource =>
    match (Service.authenticate m r.credentials).run s with
    | (.error e, s) => ((Refusal.service e).response, s)
    | (.ok c, s) => handleCall m c resource r.method.served r s

/-- Answers a request. -/
def handle (m : Moment) (r : Request) (s : Server) : Response × Server :=
  let (response, s) := handleFull m r s
  (if r.method = .head then response.withoutBody else response, s)

end Http

end SealedGraph
