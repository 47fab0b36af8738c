import ModuleAtlas.Hierarchy.Basic

/-!
# Direct edges as a graph

The nodes of a hierarchy in registration order with its direct edges between their positions.
-/

namespace ModuleAtlas

structure Graph (α : Type) where
  nodes : List α
  edges : List (Nat × Nat)
  deriving DecidableEq

def Graph.map {α β : Type} (label : α → β) (graph : Graph α) : Graph β :=
  ⟨graph.nodes.map label, graph.edges⟩

namespace Hierarchy

variable {α : Type} [LT α] [DecidableEq α]

def position? (hierarchy : Hierarchy α) (node : α) : Option Nat :=
  hierarchy.entries.findIdx? fun entry => entry.node = node

/-- The direct edges that leave the node at `source`, by ascending target. -/
def edgesFrom (hierarchy : Hierarchy α) (entry : Entry α) (source : Nat) : List (Nat × Nat) :=
  entry.directBelow.toList.filterMap fun target =>
    (hierarchy.position? target).map fun position => (source, position)

def toGraph (hierarchy : Hierarchy α) : Graph α where
  nodes := hierarchy.nodes
  edges := hierarchy.entries.zipIdx.flatMap fun (entry, source) =>
    hierarchy.edgesFrom entry source

end Hierarchy

end ModuleAtlas
