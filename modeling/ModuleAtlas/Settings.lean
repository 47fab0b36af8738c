/-!
# Settings

What an atlas checks while it is loaded and how much it reports.
-/

namespace ModuleAtlas

/-- Settings of an atlas, fixed when it is created. -/
structure Settings where
  /-- Refuse edges that would close a cycle in either hierarchy. -/
  checkAcyclic : Bool := true
  /-- Refuse visibility that is propagated out of order instead of noting it. -/
  strictOrdering : Bool := false
  /-- How much is reported: 0 is quiet, 1 notes anomalies, 2 and up follow every step. -/
  verbosity : UInt8 := 1
  deriving DecidableEq

namespace Settings

def default : Settings := {}

instance : Inhabited Settings := ⟨default⟩

def isVerbose (settings : Settings) : Bool := 0 < settings.verbosity

def isDebug (settings : Settings) : Bool := 1 < settings.verbosity

def withAcyclicCheck (settings : Settings) (enabled : Bool) : Settings :=
  { settings with checkAcyclic := enabled }

def withStrictOrdering (settings : Settings) (enabled : Bool) : Settings :=
  { settings with strictOrdering := enabled }

def withVerbosity (settings : Settings) (verbosity : UInt8) : Settings :=
  { settings with verbosity := verbosity }

end Settings

end ModuleAtlas
