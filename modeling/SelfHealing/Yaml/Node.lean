import SelfHealing.Yaml.Token

/-!
YAML documents as trees. An alias stands for the node of an anchor, which may be around it.
-/

namespace SelfHealing.Yaml

structure Scalar where
  text : String
  style : Style
  tag : Option String
  deriving DecidableEq, Repr

inductive Node
  | reference (anchor : Nat)
  | scalar (s : Scalar)
  | sequence (tag : Option String) (items : List Node)
  | mapping (tag : Option String) (entries : List (Node × Node))
  deriving Repr, Inhabited

namespace Node

def empty : Node := scalar ⟨"", .plain, none⟩

mutual

/-- How many marks a node leaves in its document: one for a scalar or alias, two for a collection beside those
of its parts. -/
def marks : Node → Nat
  | reference _ | scalar _ => 1
  | sequence _ items => 2 + itemMarks items
  | mapping _ entries => 2 + entryMarks entries

def itemMarks : List Node → Nat
  | [] => 0
  | n :: rest => n.marks + itemMarks rest

def entryMarks : List (Node × Node) → Nat
  | [] => 0
  | (key, value) :: rest => key.marks + value.marks + entryMarks rest

end

end Node

/-- A document: its root unless it is empty, and the nodes that aliases stand for. -/
structure Document where
  root : Option Node
  anchored : List (Nat × Node)
  deriving Repr

namespace Document

def marks (d : Document) : Nat := (d.root.map Node.marks).getD 1

def anchor? (d : Document) (id : Nat) : Option Node := d.anchored.lookup id

end Document

end SelfHealing.Yaml
