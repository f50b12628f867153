import SealedGraph.Access.Reference
import SealedGraph.Attempt
import SealedGraph.Registry.Link

/-!
# Visibility

Which nodes of an answer a caller gets to see: one's own, for an administrator all, and otherwise
those that are readable and belong to a group that is open to the caller. Nodes that stay hidden are
left out, and so are hidden children of nodes that are shown; both are counted.

Groups are opened and closed to a recipient when nodes are shared.
-/

namespace SealedGraph

/-- Work that asks the registry, and ends at the first call that fails. -/
abbrev Inquiry (α : Type) := Attempt Registry.Link Registry.Error α

/-- One call at a time. -/
def ask {k : Registry.Kind} (now : Nat) (op : Registry.Operation k) : Inquiry k.Value :=
  .of fun link => link.call now op

namespace Caller

/-- Whether the caller may see a node. -/
def canSee (c : Caller) (now : Nat) (n : Node) : Inquiry Bool :=
  if c.bypasses n.owner then return true
  else if !n.permissions.read then return false
  else match n.group? with
    | some group => ask now (.hasGroup c.uid group)
    | none => return false

/-- The nodes that the caller may see, without regard to their children, and the number of the
others. -/
def seen (c : Caller) (now : Nat) : List Node → Inquiry (List Node × Nat)
  | [] => return ([], 0)
  | n :: ns => do
    let visible ← c.canSee now n
    let (shown, hidden) ← c.seen now ns
    return if visible then (n :: shown, hidden) else (shown, hidden + 1)

/-- The nodes that the caller may see, each with those of its children that the caller may see, and
the number of the nodes and children that are left out. -/
def filterVisible (c : Caller) (now : Nat) : List Node → Inquiry (List Node × Nat)
  | [] => return ([], 0)
  | n :: ns => do
    if ← c.canSee now n then
      let (children, below) ← c.seen now n.children
      let (shown, hidden) ← c.filterVisible now ns
      return ({ n with children := children } :: shown, below + hidden)
    else
      let (shown, hidden) ← c.filterVisible now ns
      return (shown, hidden + 1)

/-- The nodes that the caller may see, with tokens that the caller can use, and the number of nodes
and children left out. -/
def pack (c : Caller) (now : Nat) (nodes : List Node) : Inquiry (List Node × Nat) := do
  let (shown, hidden) ← c.filterVisible now nodes
  return (shown.map (Node.stamp c.key), hidden)

/-- Opens the groups of what is shared to a recipient. Gives their number. -/
def grant (c : Caller) (now : Nat) (recipient : String) (members : List Node) : Inquiry Nat :=
  let groups := c.groupsFor recipient members
  if groups.isEmpty then return 0
  else do
    ask now (.allow recipient (Registry.listOf groups))
    return groups.length

/-- Closes the groups of what was shared to a recipient. Gives their number. -/
def withdraw (c : Caller) (now : Nat) (recipient : String) (members : List Node) : Inquiry Nat :=
  let groups := c.groupsFor recipient members
  if groups.isEmpty then return 0
  else do
    ask now (.revoke recipient (Registry.listOf groups))
    return groups.length

end Caller

end SealedGraph
