import HealthCheck.Yaml.Token

/-!
# Nodes of YAML

A document as a tree. Aliases stay in the tree as references to anchored nodes, which may contain
them, so that a document may describe an infinite value.
-/

namespace HealthCheck.Yaml

/-- A node. Tags are kept where they are written. -/
inductive Node where
  | scalar (tag : Option Text) (style : Style) (text : Text)
  | sequence (tag : Option Text) (items : List Node)
  | mapping (tag : Option Text) (entries : List (Node × Node))
  | aliasOf (slot : Nat)
deriving Repr

namespace Node

/-- The node where nothing is written. -/
def empty : Node := .scalar none .plain []

mutual

/-- The size of a node: two for a collection and one for all else in it. -/
def size : Node → Nat
  | scalar _ _ _ => 1
  | sequence _ items => 2 + sizeItems items
  | mapping _ entries => 2 + sizeEntries entries
  | aliasOf _ => 1

/-- The size of several nodes. -/
def sizeItems : List Node → Nat
  | [] => 0
  | n :: ns => n.size + sizeItems ns

/-- The size of several pairs of nodes. -/
def sizeEntries : List (Node × Node) → Nat
  | [] => 0
  | (k, v) :: es => k.size + v.size + sizeEntries es

end

end Node

/-- A node with an anchor. -/
structure Anchored where
  /-- What aliases refer to. -/
  slot : Nat
  /-- How many anchors stand before this one. -/
  order : Nat
  node : Node

/-- A document. -/
structure Document where
  root : Node
  anchored : List Anchored

/-- The later of two anchored nodes. -/
def Anchored.later (best : Option Anchored) (a : Anchored) : Option Anchored :=
  if best.all (·.order < a.order) then some a else best

/-- The node that aliases of a slot refer to: of several, the one whose anchor is written last. -/
def Document.target? (d : Document) (slot : Nat) : Option Node :=
  ((d.anchored.filter (·.slot == slot)).foldl Anchored.later none).map (·.node)

end HealthCheck.Yaml
