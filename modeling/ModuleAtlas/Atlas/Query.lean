import ModuleAtlas.Atlas.Basic
import ModuleAtlas.Hierarchy.Linear

/-!
# Queries

What an atlas answers once it is loaded, or at any moment before.
-/

namespace ModuleAtlas

namespace Atlas

/-! ## Names -/

def modulesNamed (atlas : Atlas) (name : String) : List ModuleId := atlas.names.find name

/-! ## Nesting -/

/-- Number of modules that own a module, directly or through others. -/
def nestingDepth (atlas : Atlas) (id : ModuleId) : Nat :=
  match atlas.nesting.get? id with
  | some entry => entry.above.size
  | none => 0

/--
The module that a module is directly nested in: of several direct owners the most deeply nested
one, and of those the one created first.
-/
def directOwner (atlas : Atlas) (id : ModuleId) : Except Fault (Option ModuleId) := do
  let entry ← atlas.entry .nesting id
  return entry.directAbove.toList.maxOn? atlas.nestingDepth

def nestedModules (atlas : Atlas) (id : ModuleId) : Except Fault (List ModuleId) := do
  let entry ← atlas.entry .nesting id
  return entry.directBelow.toList

/-! ## Importation -/

def importedModules (atlas : Atlas) (id : ModuleId) : Except Fault (List ModuleId) := do
  let entry ← atlas.entry .importation id
  return entry.below.toList

/-- All modules, imports before their importers. -/
def importOrder (atlas : Atlas) : List ModuleId :=
  atlas.importation.linearize (atlas.modules.map Module.id)

/-! ## Visibility -/

/-- The level at which a module sees another one, which need not be known. -/
def visibilityFor (atlas : Atlas) (id target : ModuleId) : Except Fault Visibility := do
  let module ← atlas.findModule id
  return module.visibilityFor target

def isVisible (atlas : Atlas) (id origin : ModuleId) (required : Visibility) :
    Except Fault Bool := do
  let module ← atlas.findModule id
  return module.isVisible origin required

end Atlas

end ModuleAtlas
