import ModuleAtlas.Handle
import ModuleAtlas.Visibility.Level

/-!
# Faults

Why an operation on an atlas is refused.  A fault is a cause with the names that describe it; its
category and its wording are functions of the cause.
-/

namespace ModuleAtlas

inductive Category where
  /-- A handle or node that was never registered. -/
  | lookup
  /-- A value or write-once condition that does not hold. -/
  | precondition
  /-- Operations invoked out of dependency order. -/
  | ordering
  /-- Text that cannot be interpreted. -/
  | input
  deriving DecidableEq

namespace Category

def word : Category → String
  | lookup => "Lookup"
  | precondition => "Precondition"
  | ordering => "Ordering"
  | input => "Input"

end Category

inductive Fault where
  | unknownNode (order node : String)
  | unknownModule (id : ModuleId)
  | unknownGroup (id : GroupId)
  | unknownProject (id : ProjectId)
  | arenaFull (arena : String)
  | importsAlreadySet (module : String)
  | defaultConflict (group existing requested : String)
  | notMember (group module : String)
  | invalidVisibility (module target : String) (level : Visibility)
  | cycle (order greater smaller : String)
  | missingImport (module target : String)
  | premature (module target : String)
  | unknownKeyword (word : String)
  deriving DecidableEq

namespace Fault

def category : Fault → Category
  | unknownNode .. | unknownModule _ | unknownGroup _ | unknownProject _ => .lookup
  | arenaFull _ | importsAlreadySet _ | defaultConflict .. | notMember ..
  | invalidVisibility .. | cycle .. => .precondition
  | missingImport .. | premature .. => .ordering
  | unknownKeyword _ => .input

/-- Loading must stop on every fault but malformed input. -/
def isFatal (fault : Fault) : Bool := fault.category != .input

def message : Fault → String
  | unknownNode order node => s!"Node {node} is not registered in the {order} order"
  | unknownModule id => s!"Unknown module: {id.text}"
  | unknownGroup id => s!"Unknown group: {id.text}"
  | unknownProject id => s!"Unknown project: {id.text}"
  | arenaFull arena => s!"No {arena} handle left: the registry arena is full"
  | importsAlreadySet module =>
    s!"Imports of module {module} are already set (unique invocation)"
  | defaultConflict group existing requested =>
    s!"Group {group} already has default module {existing}, cannot assign {requested}"
  | notMember group module =>
    s!"Module {module} is not a member of group {group} and cannot be its default module"
  | invalidVisibility module target level =>
    s!"{module} visibility for {target} = {level.keyword}"
  | cycle order greater smaller =>
    s!"Edge {greater} > {smaller} would close a cycle in the {order} order"
  | missingImport module target =>
    s!"Module {module} does not import {target}; set its imports before its visibility"
  | premature module target =>
    s!"Visibility of {target} is not final yet; {module} cannot propagate through it"
  | unknownKeyword word => s!"Unknown visibility keyword: {word}"

end Fault

def Visibility.parse (word : String) : Except Fault Visibility :=
  match ofKeyword? word with
  | .some level => .ok level
  | .none => .error (.unknownKeyword word)

/-- The handle of the entity that will be number `position` of its arena. -/
def Handle.next (kind : Kind) (position : Nat) : Except Fault (Handle kind) :=
  if position < capacity then .ok ⟨position⟩ else .error (.arenaFull kind.noun)

end ModuleAtlas
