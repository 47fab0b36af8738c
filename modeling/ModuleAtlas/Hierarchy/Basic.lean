import ModuleAtlas.Fault
import ModuleAtlas.NodeSet.Lemmas

/-!
# Hierarchies

A hierarchy relates nodes by direct edges from a greater node to a smaller one and keeps, for each
node, everything above it and below it along such edges.  Edges are only ever added, and adding one
joins what is at or above its greater end to what is at or below its smaller end: the closure is
never computed anew.  A hierarchy may refuse edges that would close a cycle.
-/

namespace ModuleAtlas

namespace Hierarchy

structure Entry (α : Type) [LT α] where
  node : α
  /-- The nodes that this one was declared greater than. -/
  directBelow : NodeSet α
  /-- The nodes that this one is greater than, directly or through others. -/
  below : NodeSet α
  /-- The nodes that were declared greater than this one. -/
  directAbove : NodeSet α
  /-- The nodes that are greater than this one, directly or through others. -/
  above : NodeSet α
  deriving DecidableEq

namespace Entry

def isolated {α : Type} [LT α] (node : α) : Entry α := ⟨node, ∅, ∅, ∅, ∅⟩

end Entry

inductive Refusal (α : Type) where
  /-- The node was never registered. -/
  | unknown (node : α)
  /-- The edge would close a cycle. -/
  | cycle (greater smaller : α)
  deriving DecidableEq

def Refusal.fault {α : Type} (order : String) (text : α → String) : Refusal α → Fault
  | unknown node => .unknownNode order (text node)
  | cycle greater smaller => .cycle order (text greater) (text smaller)

/-- How many nodes an edge joins: those at or above its upper end, those at or below its lower. -/
structure Growth where
  upper : Nat
  lower : Nat
  deriving DecidableEq

end Hierarchy

/-- A transitively closed relation between nodes, in the order in which they were registered. -/
structure Hierarchy (α : Type) [LT α] where
  /-- The name of the hierarchy occurs in faults and events only. -/
  name : String
  /-- Whether edges that would close a cycle are refused. -/
  checkAcyclic : Bool := true
  entries : List (Hierarchy.Entry α) := []
  deriving DecidableEq

namespace Hierarchy

variable {α : Type} [LT α]

def empty (name : String) : Hierarchy α := { name }

def defaultName : String := "poset"

def withAcyclicCheck (hierarchy : Hierarchy α) (enabled : Bool) : Hierarchy α :=
  { hierarchy with checkAcyclic := enabled }

def nodes (hierarchy : Hierarchy α) : List α := hierarchy.entries.map Entry.node

def size (hierarchy : Hierarchy α) : Nat := hierarchy.entries.length

def isEmpty (hierarchy : Hierarchy α) : Bool := hierarchy.entries.isEmpty

/-! ## Nodes -/

variable [DecidableEq α]

def get? (hierarchy : Hierarchy α) (node : α) : Option (Entry α) :=
  hierarchy.entries.find? fun entry => entry.node = node

def contains (hierarchy : Hierarchy α) (node : α) : Bool := (hierarchy.get? node).isSome

def entry (hierarchy : Hierarchy α) (node : α) : Except (Refusal α) (Entry α) :=
  match hierarchy.get? node with
  | some entry => .ok entry
  | none => .error (.unknown node)

/-- Register a node; nothing changes if it is registered already. -/
def register (hierarchy : Hierarchy α) (node : α) : Hierarchy α :=
  if hierarchy.contains node then hierarchy
  else { hierarchy with entries := hierarchy.entries ++ [.isolated node] }

/-! ## Comparison -/

def hasDirectEdge (hierarchy : Hierarchy α) (greater smaller : α) : Bool :=
  (hierarchy.get? greater).any fun entry => smaller ∈ entry.directBelow

/-- Whether `greater` is greater than `smaller`; nothing is below an unregistered node. -/
def gt (hierarchy : Hierarchy α) (greater smaller : α) : Bool :=
  (hierarchy.get? greater).any fun entry => smaller ∈ entry.below

def ge (hierarchy : Hierarchy α) (greater smaller : α) : Bool :=
  greater = smaller || hierarchy.gt greater smaller

namespace Entry

def isAbove (entry : Entry α) (other : α) : Bool := other ∈ entry.below

def isAtOrAbove (entry : Entry α) (other : α) : Bool :=
  entry.node = other || other ∈ entry.below

end Entry

/-! ## Edges -/

variable [DecidableLT α] [LE α] [Std.IsLinearOrder α] [Std.LawfulOrderLT α]

namespace Entry

def atOrAbove (entry : Entry α) : NodeSet α := entry.above.insert entry.node

def atOrBelow (entry : Entry α) : NodeSet α := entry.below.insert entry.node

/--
The entry after an edge from `upper` to `lower`, both as they were before the edge: what is at or
above the upper end gains everything at or below the lower end, and the other way round.
-/
def joined (upper lower entry : Entry α) : Entry α where
  node := entry.node
  directBelow :=
    if entry.node = upper.node then entry.directBelow.insert lower.node else entry.directBelow
  below :=
    if entry.node ∈ upper.atOrAbove then entry.below ∪ lower.atOrBelow else entry.below
  directAbove :=
    if entry.node = lower.node then entry.directAbove.insert upper.node else entry.directAbove
  above :=
    if entry.node ∈ lower.atOrBelow then entry.above ∪ upper.atOrAbove else entry.above

end Entry

def join (hierarchy : Hierarchy α) (upper lower : Entry α) : Hierarchy α :=
  { hierarchy with entries := hierarchy.entries.map (Entry.joined upper lower) }

/--
Declare `greater` directly greater than `smaller`.  Both have to be registered.  An edge that is
there already changes nothing; any other edge is refused if cycles are checked for and it would
close one.
-/
def relate (hierarchy : Hierarchy α) (greater smaller : α) :
    Except (Refusal α) (Hierarchy α) := do
  let upper ← hierarchy.entry greater
  let lower ← hierarchy.entry smaller
  if smaller ∈ upper.directBelow then
    return hierarchy
  else if hierarchy.checkAcyclic ∧ (greater = smaller ∨ greater ∈ lower.below) then
    throw (.cycle greater smaller)
  else
    return hierarchy.join upper lower

omit [DecidableLT α] [LE α] [Std.IsLinearOrder α] [Std.LawfulOrderLT α] in
/--
How many nodes a new edge joins, the ends included; an end that already is above or below itself
counts twice.  An edge between unregistered nodes or one that is there already joins nothing.
-/
def growth? (hierarchy : Hierarchy α) (greater smaller : α) : Option Growth := do
  let upper ← hierarchy.get? greater
  let lower ← hierarchy.get? smaller
  if smaller ∈ upper.directBelow then none
  else some ⟨1 + upper.above.size, 1 + lower.below.size⟩

end Hierarchy

end ModuleAtlas
