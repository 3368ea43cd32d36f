import Schemata.Yaml.Token

/-!
# YAML nodes

The tree of a YAML document.  A node that is referred to has a number, and an alias carries the
number of its target, so a document is a finite tree even if an alias stands inside its own target.
-/

namespace Schemata.Yaml

/-- What may stand before the content of a node: a tag, and an anchor, here as a number. -/
structure Label where
  tag : Option String
  anchor : Option Nat
  deriving DecidableEq, Repr

/-- A node of a document. -/
inductive Node where
  | reference (target : Nat)
  | scalar (label : Label) (text : String) (style : Style)
  | sequence (label : Label) (items : List Node)
  | mapping (label : Label) (entries : List (Node × Node))
  deriving Repr, Inhabited

namespace Node

/-- The label of a node; an alias has none. -/
def label : Node → Label
  | reference _ => ⟨none, none⟩
  | scalar label _ _ => label
  | sequence label _ => label
  | mapping label _ => label

/-- The node with its number, if it has one. -/
def numbered (node : Node) : List (Nat × Node) :=
  match node.label.anchor with
  | some n => [(n, node)]
  | none => []

mutual

/-- The nodes that have a number, each one before those inside it. -/
def anchored : Node → List (Nat × Node)
  | reference _ => []
  | scalar label text style => (scalar label text style).numbered
  | sequence label items => (sequence label items).numbered ++ anchoredItems items
  | mapping label entries => (mapping label entries).numbered ++ anchoredEntries entries

/-- The numbered nodes of a list. -/
def anchoredItems : List Node → List (Nat × Node)
  | [] => []
  | n :: rest => anchored n ++ anchoredItems rest

/-- The numbered nodes of the entries of a mapping. -/
def anchoredEntries : List (Node × Node) → List (Nat × Node)
  | [] => []
  | (k, v) :: rest => anchored k ++ anchored v ++ anchoredEntries rest

end

mutual

/-- The size of a tree: one for a leaf, and two for the ends of a collection. -/
def weight : Node → Nat
  | reference _ => 1
  | scalar _ _ _ => 1
  | sequence _ items => 2 + weightItems items
  | mapping _ entries => 2 + weightEntries entries

/-- The size of a list of trees. -/
def weightItems : List Node → Nat
  | [] => 0
  | n :: rest => weight n + weightItems rest

/-- The size of the entries of a mapping. -/
def weightEntries : List (Node × Node) → Nat
  | [] => 0
  | (k, v) :: rest => weight k + weight v + weightEntries rest

end

end Node

/-- A document; one without any content has no root. -/
structure Document where
  root : Option Node
  deriving Repr

namespace Document

/-- The size of a document. -/
def weight (d : Document) : Nat :=
  match d.root with
  | some node => node.weight
  | none => 1

/-- The target of an alias.  When a number has been given twice, the later node has it. -/
def target? (d : Document) (n : Nat) : Option Node :=
  let nodes := match d.root with
    | some node => node.anchored
    | none => []
  nodes.foldl (fun found (m, node) => if m = n then some node else found) none

end Document
end Schemata.Yaml
