import SealedGraph.Json.Value
import SealedGraph.Text.Split

/-!
# Requests and responses

What the server sees of a request, and what it sends back: a status with a text or with a value of
JSON.
-/

namespace SealedGraph.Http

/-- A method. -/
inductive Method
  | get
  | head
  | post
  | put
  | patch
  | delete
  | other (name : String)
  deriving DecidableEq, Repr

/-- The method with a name. -/
def Method.ofName (name : String) : Method :=
  match name with
  | "GET" => .get
  | "HEAD" => .head
  | "POST" => .post
  | "PUT" => .put
  | "PATCH" => .patch
  | "DELETE" => .delete
  | name => .other name

/-- A request. -/
structure Request where
  method : Method
  /-- the path, with a query behind it or without -/
  target : String
  /-- the header that says who asks -/
  authorization : Option String
  /-- the header that says what the body is -/
  contentType : Option String
  body : String
  deriving DecidableEq, Repr

/-- The part of the target that names a resource. -/
def Request.path (r : Request) : String :=
  String.ofList (r.target.toList.takeWhile fun c => c ≠ '?' && c ≠ '#')

/-- Whether a header is text: visible characters of ASCII, blanks and tabs. -/
def isHeaderText (header : String) : Bool :=
  header.toList.all fun c => c = '\t' || (' ' ≤ c && c ≤ '~')

/-- The header that says who asks, if it is text. -/
def Request.credentials (r : Request) : Option String := r.authorization.filter isHeaderText

/-- The header that says what the body is, if it is text. -/
def Request.mediaType (r : Request) : Option String := r.contentType.filter isHeaderText

/-- The body of a response. -/
inductive Body
  | text (s : String)
  | json (v : Json.Value)
  /-- the place of a value of JSON that was asked not to be sent -/
  | omitted
  deriving Repr

/-- A response. -/
structure Response where
  status : Nat
  body : Body
  deriving Repr

/-- The bytes of a body as text. -/
def Body.render : Body → String
  | .text s => s
  | .json v => v.render
  | .omitted => ""

/-- The response without its body. -/
def Response.withoutBody (r : Response) : Response :=
  { r with body := match r.body with
    | .text _ => .text ""
    | _ => .omitted }

end SealedGraph.Http
