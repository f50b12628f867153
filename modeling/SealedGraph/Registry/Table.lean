import SealedGraph.Index
import SealedGraph.Text.Digits
import SealedGraph.Text.Split

/-!
# The registry's table

Which sessions are active, which groups a user may see, and how often logins of a username failed
of late. A key has an entry only as long as there is something to say about it, and empty texts are
nobody's session, nobody's group and nobody's name.

Failures count together while each comes within a window of the one before it. Times are counted in
milliseconds from a start of one's own.
-/

namespace SealedGraph.Registry

/-- The comma between the entries of a list of groups. -/
def listSeparator : Char := ','

/-- The entries of a list of groups that are not empty. -/
def listEntries (list : String) : List String :=
  ((Text.split listSeparator list.toList).filter fun e => !e.isEmpty).map String.ofList

/-- A list of groups as one text. -/
def listOf (groups : List String) : String :=
  String.ofList (Text.join listSeparator (groups.map String.toList))

/-- Failed logins with one username since the count last started. -/
structure Failures where
  count : Nat
  /-- the time of the last one -/
  last : Nat
  deriving DecidableEq, Repr

/-- The largest count of failures; there it stays. -/
def maxCount : Nat := Text.maxUnsigned 32

/-- The state of the registry. -/
structure Table where
  /-- the sessions of each uid -/
  sessions : Index (List String)
  /-- the groups that each uid may see -/
  groups : Index (List String)
  /-- the failed logins with each username -/
  failures : Index Failures
  /-- the time after which a failure without another one no longer counts -/
  window : Nat
  deriving DecidableEq, Repr

/-- The set with one element more. -/
def addTo (x : String) (set : List String) : List String :=
  if set.contains x then set else set ++ [x]

/-- The sets of an index with one of them changed, and gone if nothing is left in it. -/
def shrink (key : String) (f : List String → List String) (m : Index (List String)) :
    Index (List String) :=
  match m.find? key with
  | some set => if (f set).isEmpty then m.erase key else m.insert key (f set)
  | none => m

namespace Table

/-- The table without entries. -/
def empty (window : Nat) : Table := ⟨∅, ∅, ∅, window⟩

/-! ## Sessions -/

/-- Whether a session of a user is active. -/
def hasSession (t : Table) (uid session : String) : Bool :=
  ((t.sessions.find? uid).getD []).contains session

/-- The table with a session active. -/
def addSession (t : Table) (uid session : String) : Table :=
  if uid.isEmpty || session.isEmpty then t
  else { t with sessions := t.sessions.insert uid (addTo session ((t.sessions.find? uid).getD [])) }

/-- The table with a session no longer active. -/
def deleteSession (t : Table) (uid session : String) : Table :=
  { t with sessions := shrink uid (·.filter (· ≠ session)) t.sessions }

/-- The number of active sessions of a user. -/
def sessionsOf (t : Table) (uid : String) : Nat := ((t.sessions.find? uid).getD []).length

/-- The table without any session of a user. -/
def purgeSessions (t : Table) (uid : String) : Table := { t with sessions := t.sessions.erase uid }

/-- The number of active sessions of all users. -/
def sessionCount (t : Table) : Nat := t.sessions.values.foldr (fun s n => s.length + n) 0

/-! ## Groups -/

/-- Whether a user may see a group. -/
def hasGroup (t : Table) (uid group : String) : Bool :=
  !group.isEmpty && ((t.groups.find? uid).getD []).contains group

/-- The table with the groups of a list open to a user. -/
def allow (t : Table) (uid list : String) : Table :=
  let entries := listEntries list
  if uid.isEmpty || entries.isEmpty then t
  else
    let groups := entries.foldl (fun set g => addTo g set) ((t.groups.find? uid).getD [])
    { t with groups := t.groups.insert uid groups }

/-- The table with the groups of a list closed to a user. -/
def revoke (t : Table) (uid list : String) : Table :=
  let entries := listEntries list
  { t with groups := shrink uid (·.filter fun g => !entries.contains g) t.groups }

/-! ## Failed logins -/

/-- Whether failures still count at a time. -/
def isCurrent (t : Table) (now : Nat) (f : Failures) : Bool := now - f.last < t.window

/-- The number of failures with a username that count at a time. -/
def failureCount (t : Table) (username : String) (now : Nat) : Nat :=
  match t.failures.find? username with
  | some f => if t.isCurrent now f then f.count else 0
  | none => 0

/-- The number of failures with a username once there is one more at a time. -/
def nextCount (t : Table) (username : String) (now : Nat) : Nat :=
  if username.isEmpty then 0
  else match t.failures.find? username with
    | some f => if t.isCurrent now f then min (f.count + 1) maxCount else 1
    | none => 1

/-- The table with one failure more with a username. -/
def recordFailure (t : Table) (username : String) (now : Nat) : Table :=
  if username.isEmpty then t
  else { t with failures := t.failures.insert username ⟨t.nextCount username now, now⟩ }

/-- The table without the failures that no longer count. -/
def prune (t : Table) (now : Nat) : Table :=
  { t with failures := t.failures.keep (t.isCurrent now) }

/-- The table without any failure with a username. -/
def resetFailures (t : Table) (username : String) : Table :=
  { t with failures := t.failures.erase username }

/-- The number of usernames with failures. -/
def trackedFailures (t : Table) : Nat := t.failures.size

end Table

end SealedGraph.Registry
