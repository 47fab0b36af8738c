import ModuleAtlas.Hierarchy.Basic

/-!
# Linear order

A greater node has more nodes below it than each of them has, so sorting by that number puts
smaller nodes first.  Nodes with equally many below them are sorted by value.
-/

namespace ModuleAtlas

namespace Hierarchy

variable {α : Type} [LT α] [DecidableEq α]

/-- Number of nodes below a node; an unregistered node has none. -/
def weight (hierarchy : Hierarchy α) (node : α) : Nat :=
  match hierarchy.get? node with
  | some entry => entry.below.size
  | none => 0

variable [LE α] [DecidableLE α]

def precedes (hierarchy : Hierarchy α) (first second : α) : Bool :=
  hierarchy.weight first < hierarchy.weight second ||
    (hierarchy.weight first == hierarchy.weight second && decide (first ≤ second))

/-- Sort a list so that smaller nodes come first.  Repeated and unregistered nodes are kept. -/
def linearize (hierarchy : Hierarchy α) (items : List α) : List α :=
  items.mergeSort hierarchy.precedes

end Hierarchy

end ModuleAtlas
