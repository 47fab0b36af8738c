import ModuleAtlas.Comment
import ModuleAtlas.Visibility.Scope

/-!
# Projects, groups and modules

A project holds a forest of groups and a group holds modules.  One member of a group may stand for
the whole group: its default module.  Modules are what both hierarchies relate.
-/

namespace ModuleAtlas

structure Project where
  id : ProjectId
  name : String
  /-- The group without parent that was created first. -/
  root : Option GroupId := none
  deriving DecidableEq

structure Group where
  id : GroupId
  name : String
  project : ProjectId
  parent : Option GroupId
  /-- The groups right below this one, first created first. -/
  children : List GroupId := []
  /-- The modules of this group, first created first. -/
  members : List ModuleId := []
  /-- The member that stands for the group. -/
  defaultModule : Option ModuleId := none
  deriving DecidableEq

/-- A compilation unit, or a placeholder for one. -/
structure Module where
  id : ModuleId
  name : String
  /-- The name with the project in front, unless the module is named like its project. -/
  fullName : String
  location : Location
  group : Option GroupId
  /-- A placeholder is not backed by source text. -/
  fictive : Bool := false
  /-- What this module sees of others. -/
  scope : Scope := .empty
  /-- The imports whose scopes were already absorbed. -/
  propagated : NodeSet ModuleId := ∅
  comment : Option Comment := none
  deprecation : Option Deprecation := none
  deriving DecidableEq

namespace Module

def qualified (project name : String) : String :=
  if project = name then name else project ++ "::" ++ name

def isDeprecated (module : Module) : Bool := module.deprecation.isSome

/-- The level at which a module sees another one; every module intrudes itself. -/
def visibilityFor (module : Module) (target : ModuleId) : Visibility :=
  if target = module.id then .intrude else module.scope.levelOf target

def isVisible (module : Module) (origin : ModuleId) (required : Visibility) : Bool :=
  (module.visibilityFor origin).grants required

def absorbing (module : Module) (target : ModuleId) (level : Visibility) (imported : Scope) :
    Module :=
  { module with
    scope := module.scope.absorb target level imported
    propagated := module.propagated.insert target }

end Module

end ModuleAtlas
