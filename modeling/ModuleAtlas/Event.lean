import ModuleAtlas.Fault
import ModuleAtlas.Settings

/-!
# Events

What the operations on an atlas report while they work.  An event has a severity, a message and
named details; the settings decide which severities are recorded.
-/

namespace ModuleAtlas

inductive Severity where
  | trace
  | debug
  | warn
  | error
  deriving DecidableEq

/-- Steps of the closure and faults are always recorded, the other severities on request. -/
def Settings.records (settings : Settings) : Severity → Bool
  | .trace => true
  | .debug => settings.isDebug
  | .warn => settings.isVerbose
  | .error => true

inductive Detail where
  | text (value : String)
  | count (value : Nat)
  deriving DecidableEq

inductive Event where
  /-- An edge joined `upper` nodes above it to `lower` nodes below it. -/
  | closureExtended (order : String) (upper lower : Nat)
  /-- An operation was refused. -/
  | violation (fault : Fault)
  /-- A propagation went on although the fault would refuse it under strict ordering. -/
  | anomaly (fault : Fault)
  /-- A new module was nested under its owner. -/
  | nested (owner module : String)
  /-- A default module became the owner of another member of its group. -/
  | adopted (owner module : String)
  /-- The imports of a module were wired. -/
  | importsSet (module : String) (count : Nat)
  /-- The scope of a target was folded into the scope of a module. -/
  | propagated (module target : String) (level : Visibility) (added : Nat)
  deriving DecidableEq

namespace Event

def severity : Event → Severity
  | closureExtended .. => .trace
  | violation _ => .error
  | anomaly _ => .warn
  | nested .. | adopted .. | importsSet .. | propagated .. => .debug

def message : Event → String
  | closureExtended .. => "extending closure"
  | violation fault => s!"model invariant violated: {fault.message}"
  | anomaly fault => fault.message
  | nested .. => "nested module"
  | adopted .. => "adopted module"
  | importsSet .. => "imports set"
  | propagated .. => "visibility propagated"

def details : Event → List (String × Detail)
  | closureExtended order upper lower =>
    [("order", .text order), ("upper", .count upper), ("lower", .count lower)]
  | violation fault => [("category", .text fault.category.word)]
  | anomaly _ => []
  | nested owner module | adopted owner module =>
    [("owner", .text owner), ("module", .text module)]
  | importsSet module count => [("module", .text module), ("count", .count count)]
  | propagated module target level added =>
    [("module", .text module), ("target", .text target),
      ("visibility", .text level.keyword), ("added", .count added)]

end Event

end ModuleAtlas
