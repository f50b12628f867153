import SealedGraph.Http.Message
import SealedGraph.Text.Percent
import SealedGraph.Text.Utf8

/-!
# Routes

Which resource a path names. A path is compared as it is written; only a parameter, which is one
segment and not empty, is decoded, and that not before it is needed.
-/

namespace SealedGraph.Http

/-- What a path names; parameters are as they are written. -/
inductive Resource
  | login
  | health
  | logout
  | logoutEverywhere
  | check
  | nodes
  | nodesUnder (parent : String)
  | edges
  | rootNode
  | list (relation : String)
  | share
  | userByName (username : String)
  | userByUid (uid : String)
  | account
  | accounts
  deriving DecidableEq, Repr

/-- The segments of a path: what stands behind each slash. -/
def segments (path : String) : List String :=
  ((Text.split '/' path.toList).drop 1).map String.ofList

/-- A resource with a parameter that is not empty. -/
def withParameter (resource : String → Resource) (parameter : String) : Option Resource :=
  if parameter.isEmpty then none else some (resource parameter)

namespace Resource

/-- The resource that a path names. -/
def ofPath (path : String) : Option Resource :=
  match segments path with
  | ["auth", "login"] => some .login
  | ["auth", "logout"] => some .logout
  | ["auth", "logout", "all"] => some .logoutEverywhere
  | ["auth", "check"] => some .check
  | ["health", "status"] => some .health
  | ["graph", "nodes"] => some .nodes
  | ["graph", "nodes", parent] => withParameter .nodesUnder parent
  | ["graph", "edges"] => some .edges
  | ["user", "node"] => some .rootNode
  | ["user", "nodes", relation] => withParameter .list relation
  | ["user", "share"] => some .share
  | ["user", "name", username] => withParameter .userByName username
  | ["user", "uid", uid] => withParameter .userByUid uid
  | ["admin", "user"] => some .account
  | ["admin", "users"] => some .accounts
  | _ => none

/-- Whether a resource is there for everyone. -/
def isPublic : Resource → Bool
  | .login => true
  | .health => true
  | _ => false

end Resource

/-- The text that a parameter stands for, if it stands for one. -/
def decodeParameter (parameter : String) : Option String :=
  stringOf? (Percent.decode (bytesOf parameter))

end SealedGraph.Http
