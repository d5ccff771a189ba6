import Runbooks.Document.Yaml.Node
import Runbooks.Document.Yaml.Scalar

/-!
The tree of a YAML text. Aliases are replaced by the nodes they name; a node that names itself is
unfolded a number of times that no record reaches.
-/

namespace Runbooks.Yaml

namespace Node

mutual

/-- The nodes with an anchor, in the order of the text. -/
def anchored : Node → List (Nat × Node)
  | .scalar tag anchor style text => here anchor (.scalar tag anchor style text)
  | .sequence tag anchor items => here anchor (.sequence tag anchor items) ++ anchoredItems items
  | .mapping tag anchor entries =>
    here anchor (.mapping tag anchor entries) ++ anchoredEntries entries
  | .alias _ => []

def anchoredItems : List Node → List (Nat × Node)
  | [] => []
  | n :: rest => anchored n ++ anchoredItems rest

def anchoredEntries : List (Node × Node) → List (Nat × Node)
  | [] => []
  | (k, v) :: rest => anchored k ++ anchored v ++ anchoredEntries rest

def here (anchor : Option Nat) (n : Node) : List (Nat × Node) :=
  match anchor with
  | some id => [(id, n)]
  | none => []

end

mutual

/-- The tree of a node, with the trees of the anchors given. -/
def tree (known : List (Nat × Tree)) : Node → Tree
  | .scalar tag _ style text => .leaf (localTag? tag) (leaf tag style text)
  | .sequence tag _ items => .list (localTag? tag) .never (itemTrees known items)
  | .mapping tag _ entries => .table (localTag? tag) none (entryTrees known entries)
  | .alias id => .alias ((known.lookup id).getD Tree.broken)

def itemTrees (known : List (Nat × Tree)) : List Node → List Tree
  | [] => []
  | n :: rest => tree known n :: itemTrees known rest

def entryTrees (known : List (Nat × Tree)) : List (Node × Node) → List (Tree × Tree)
  | [] => []
  | (k, v) :: rest => (tree known k, tree known v) :: entryTrees known rest

end

mutual

/-- The marks that a node consists of: one for a scalar or an alias, two around a collection. -/
def marks : Node → Nat
  | .scalar .. => 1
  | .sequence _ _ items => 2 + marksOfItems items
  | .mapping _ _ entries => 2 + marksOfEntries entries
  | .alias _ => 1

def marksOfItems : List Node → Nat
  | [] => 0
  | n :: rest => marks n + marksOfItems rest

def marksOfEntries : List (Node × Node) → Nat
  | [] => 0
  | (k, v) :: rest => marks k + marks v + marksOfEntries rest

end

/-- Unfolds the anchors a number of times; of nodes with one number the last counts. -/
def unfold (nodes : List (Nat × Node)) : Nat → List (Nat × Tree)
  | 0 => []
  | n + 1 =>
    let known := unfold nodes n
    nodes.reverse.map fun (id, node) => (id, tree known node)

end Node

/-- The tree of a text without nodes. -/
def voidTree : Tree :=
  .leaf none { presence := .absent, hollow := true, atom? := some .null }

/-- How often a node that names itself is unfolded, beyond the number of anchors. -/
def unfoldings : Nat := 4

/-- How many aliases may be followed for each mark of a document. -/
def followingsPerMark : Nat := 100

/-- The tree of a text that holds one document at most, and how many aliases may be followed in
reading it. -/
def readWithLimit? (s : String) : Option (Tree × Nat) := do
  match ← Node.ofText? s with
  | none => some (voidTree, 0)
  | some n =>
    let nodes := n.anchored
    let rounds := if nodes.isEmpty then 0 else nodes.length + unfoldings
    some (n.tree (Node.unfold nodes rounds), followingsPerMark * n.marks)

/-- The tree of a text that holds one document at most. -/
def readTree? (s : String) : Option Tree :=
  (readWithLimit? s).map Prod.fst

end Runbooks.Yaml
