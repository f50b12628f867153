import SealedGraph.Yaml.Tree

/-!
# Documents

A tree whose aliases lead to values. An anchor gets a number, the count of the different names seen
before it, and an alias the number that its name has at that place. If two anchors have one number,
because a name was given again and another one followed, the later value in the text counts.
-/

namespace SealedGraph.Yaml

/-- The numbers of the names seen so far. -/
abbrev Numbers := List (String × Nat)

namespace Tree

/-- The number of an anchor, and the numbers after it. -/
def numberOf (names : Numbers) : Option String → Option Nat × Numbers
  | none => (none, names)
  | some name =>
    let n := names.length
    (some n, if (names.lookup name).isSome then
        names.map fun x => if x.1 = name then (name, n) else x
      else (name, n) :: names)

mutual

/-- The tree with numbers for names, if every alias has one. -/
def link (names : Numbers) : Tree String → Option (Tree Nat × Numbers)
  | .alias name => do return (.alias (← names.lookup name), names)
  | .scalar anchor tag style text =>
    let (anchor, names) := numberOf names anchor
    some (.scalar anchor tag style text, names)
  | .sequence anchor tag items => do
    let (anchor, names) := numberOf names anchor
    let (items, names) ← linkItems names items
    return (.sequence anchor tag items, names)
  | .mapping anchor tag pairs => do
    let (anchor, names) := numberOf names anchor
    let (pairs, names) ← linkPairs names pairs
    return (.mapping anchor tag pairs, names)

/-- `link` for the items of a sequence. -/
def linkItems (names : Numbers) : List (Tree String) → Option (List (Tree Nat) × Numbers)
  | [] => some ([], names)
  | t :: ts => do
    let (t, names) ← link names t
    let (ts, names) ← linkItems names ts
    return (t :: ts, names)

/-- `link` for the pairs of a mapping. -/
def linkPairs (names : Numbers) :
    List (Tree String × Tree String) → Option (List (Tree Nat × Tree Nat) × Numbers)
  | [] => some ([], names)
  | (k, v) :: ps => do
    let (k, names) ← link names k
    let (v, names) ← link names v
    let (ps, names) ← linkPairs names ps
    return ((k, v) :: ps, names)

end

mutual

/-- The values with anchors, in the order of the text. -/
def anchored : Tree Nat → List (Nat × Tree Nat)
  | .alias _ => []
  | .scalar anchor tag style text => anchor.toList.map fun n => (n, .scalar anchor tag style text)
  | .sequence anchor tag items =>
    (anchor.toList.map fun n => (n, .sequence anchor tag items)) ++ anchoredItems items
  | .mapping anchor tag pairs =>
    (anchor.toList.map fun n => (n, .mapping anchor tag pairs)) ++ anchoredPairs pairs

/-- `anchored` for the items of a sequence. -/
def anchoredItems : List (Tree Nat) → List (Nat × Tree Nat)
  | [] => []
  | t :: ts => anchored t ++ anchoredItems ts

/-- `anchored` for the pairs of a mapping. -/
def anchoredPairs : List (Tree Nat × Tree Nat) → List (Nat × Tree Nat)
  | [] => []
  | (k, v) :: ps => anchored k ++ anchored v ++ anchoredPairs ps

end

mutual

/-- The number of marks in a tree: one for each leaf, and two for each collection. -/
def marks {ρ : Type} : Tree ρ → Nat
  | .alias _ => 1
  | .scalar .. => 1
  | .sequence _ _ items => 2 + marksOfItems items
  | .mapping _ _ pairs => 2 + marksOfPairs pairs

/-- `marks` for the items of a sequence. -/
def marksOfItems {ρ : Type} : List (Tree ρ) → Nat
  | [] => 0
  | t :: ts => marks t + marksOfItems ts

/-- `marks` for the pairs of a mapping. -/
def marksOfPairs {ρ : Type} : List (Tree ρ × Tree ρ) → Nat
  | [] => 0
  | (k, v) :: ps => marks k + marks v + marksOfPairs ps

end

end Tree

/-- A value, and the values that its aliases lead to. -/
structure Document where
  root : Tree Nat
  /-- the values with anchors, the last first -/
  anchors : List (Nat × Tree Nat)

namespace Document

/-- The document of a text. -/
def ofText? (text : List Char) : Option Document := do
  let tree ← Tree.ofTokens? (← tokens? text)
  let (root, _) ← tree.link []
  return ⟨root, root.anchored.reverse⟩

/-- The value that a tree stands for. -/
def follow (d : Document) : Tree Nat → Tree Nat
  | .alias n => (d.anchors.lookup n).getD .absent
  | t => t

end Document

end SealedGraph.Yaml
