import ModuleAtlas.Event
import ModuleAtlas.Hierarchy.Basic

/-!
# Edits of a hierarchy

The operations that change a hierarchy as data.  A refused edit changes nothing; an edit that
extends the closure reports how far.
-/

namespace ModuleAtlas

namespace Hierarchy

inductive Edit (α : Type) where
  | register (node : α)
  | relate (greater smaller : α)
  | checkAcyclic (enabled : Bool)
  deriving DecidableEq

variable {α : Type} [LT α] [DecidableEq α]

/-- The event of a new edge; an edge that is there already reports nothing. -/
def extension (hierarchy : Hierarchy α) (greater smaller : α) : List Event :=
  match hierarchy.growth? greater smaller with
  | some growth => [.closureExtended hierarchy.name growth.upper growth.lower]
  | none => []

variable [DecidableLT α] [LE α] [Std.IsLinearOrder α] [Std.LawfulOrderLT α]

def edit (hierarchy : Hierarchy α) : Edit α → Except (Refusal α) (Hierarchy α)
  | .register node => .ok (hierarchy.register node)
  | .relate greater smaller => hierarchy.relate greater smaller
  | .checkAcyclic enabled => .ok (hierarchy.withAcyclicCheck enabled)

/-- The hierarchy after an edit, which is the same one if the edit is refused. -/
def after (hierarchy : Hierarchy α) (edit : Edit α) : Hierarchy α :=
  match hierarchy.edit edit with
  | .ok next => next
  | .error _ => hierarchy

def eventsOf (hierarchy : Hierarchy α) (edit : Edit α) : List Event :=
  match edit, hierarchy.edit edit with
  | .relate greater smaller, .ok _ => hierarchy.extension greater smaller
  | _, _ => []

def run (hierarchy : Hierarchy α) (edits : List (Edit α)) : Hierarchy α :=
  edits.foldl after hierarchy

end Hierarchy

end ModuleAtlas
