import ModuleAtlas.Atlas.NameIndex
import ModuleAtlas.Entity
import ModuleAtlas.Hierarchy.Basic
import ModuleAtlas.Settings

/-!
# Atlases

An atlas owns the projects, groups and modules of a program, each kind in an arena that handles
point into, together with the two hierarchies of modules: nesting puts owners above what is nested
in them, importation puts importers above what they import.  This module holds the data, its
look-ups and the single steps by which it grows; what the steps are used for is decided elsewhere.
-/

namespace ModuleAtlas

inductive Axis where
  | nesting
  | importation
  deriving DecidableEq

def Axis.name : Axis → String
  | .nesting => "nesting"
  | .importation => "importation"

/-- All that is known about the modules of a program. -/
structure Atlas where
  settings : Settings
  projects : List Project := []
  groups : List Group := []
  modules : List Module := []
  names : NameIndex := {}
  nesting : Hierarchy ModuleId
  importation : Hierarchy ModuleId
  deriving DecidableEq

namespace Atlas

/-- The atlas of no modules; both hierarchies check for cycles if the settings say so. -/
def empty (settings : Settings) : Atlas where
  settings := settings
  nesting := (Hierarchy.empty Axis.nesting.name).withAcyclicCheck settings.checkAcyclic
  importation := (Hierarchy.empty Axis.importation.name).withAcyclicCheck settings.checkAcyclic

/-! ## Look-up -/

def project? (atlas : Atlas) (id : ProjectId) : Option Project := atlas.projects[id.index]?

def group? (atlas : Atlas) (id : GroupId) : Option Group := atlas.groups[id.index]?

def module? (atlas : Atlas) (id : ModuleId) : Option Module := atlas.modules[id.index]?

def findProject (atlas : Atlas) (id : ProjectId) : Except Fault Project :=
  match atlas.project? id with
  | some project => .ok project
  | none => .error (.unknownProject id)

def findGroup (atlas : Atlas) (id : GroupId) : Except Fault Group :=
  match atlas.group? id with
  | some group => .ok group
  | none => .error (.unknownGroup id)

def findModule (atlas : Atlas) (id : ModuleId) : Except Fault Module :=
  match atlas.module? id with
  | some module => .ok module
  | none => .error (.unknownModule id)

/-- The plain name of a module; an unknown one goes by its handle. -/
def nameOf (atlas : Atlas) (id : ModuleId) : String :=
  (atlas.module? id).elim id.text Module.name

def fullNameOf (atlas : Atlas) (id : ModuleId) : String :=
  (atlas.module? id).elim id.text Module.fullName

/-! ## Hierarchies -/

def hierarchy (atlas : Atlas) : Axis → Hierarchy ModuleId
  | .nesting => atlas.nesting
  | .importation => atlas.importation

def withHierarchy (atlas : Atlas) (axis : Axis) (hierarchy : Hierarchy ModuleId) : Atlas :=
  match axis with
  | .nesting => { atlas with nesting := hierarchy }
  | .importation => { atlas with importation := hierarchy }

def entry (atlas : Atlas) (axis : Axis) (id : ModuleId) :
    Except Fault (Hierarchy.Entry ModuleId) :=
  match (atlas.hierarchy axis).entry id with
  | .ok entry => .ok entry
  | .error refusal => .error (refusal.fault (atlas.hierarchy axis).name Handle.text)

/-- Whether every direct import of a module was propagated; no unknown module is final. -/
def isVisibilityFinal (atlas : Atlas) (id : ModuleId) : Bool :=
  match atlas.module? id, atlas.importation.get? id with
  | some module, some entry => entry.directBelow.toList.all fun target => target ∈ module.propagated
  | _, _ => false

/-! ## Owners by group -/

/-- At most `steps` groups on the way from a group to the root of its tree. -/
def climb (atlas : Atlas) : Nat → GroupId → List Group
  | 0, _ => []
  | steps + 1, id =>
    match atlas.group? id with
    | none => []
    | some group =>
      group :: match group.parent with
        | none => []
        | some parent => atlas.climb steps parent

def lineage (atlas : Atlas) (id : GroupId) : List Group := atlas.climb atlas.groups.length id

/-- The default module that a member of a group is nested under: the nearest one but itself. -/
def ownerIn (atlas : Atlas) (group : GroupId) (module : ModuleId) : Option ModuleId :=
  (atlas.lineage group).findSome? fun ancestor =>
    ancestor.defaultModule.filter fun owner => owner ≠ module

/-! ## Growth -/

def noteChild (groups : List Group) (parent child : GroupId) : List Group :=
  groups.modify parent.index fun group => { group with children := group.children ++ [child] }

/-- The projects after a group without parent was created; the first one becomes the root. -/
def noteRoot (projects : List Project) (project : ProjectId) (group : GroupId) : List Project :=
  projects.modify project.index fun project =>
    { project with root := project.root.or (some group) }

/-- Add a group behind all others, below its parent or else to its project. -/
def addGroup (atlas : Atlas) (group : Group) : Atlas :=
  match group.parent with
  | some parent =>
    { atlas with groups := noteChild (atlas.groups ++ [group]) parent group.id }
  | none =>
    { atlas with
      groups := atlas.groups ++ [group]
      projects := noteRoot atlas.projects group.project group.id }

/-- Add a module behind all others, to the name index and to both hierarchies. -/
def addModule (atlas : Atlas) (module : Module) : Atlas :=
  { atlas with
    modules := atlas.modules ++ [module]
    names := atlas.names.add module.name module.id
    nesting := atlas.nesting.register module.id
    importation := atlas.importation.register module.id }

def addMember (atlas : Atlas) (group : GroupId) (module : ModuleId) : Atlas :=
  { atlas with
    groups := atlas.groups.modify group.index fun group =>
      { group with members := group.members ++ [module] } }

/-- Let a module stand for a group. -/
def designate (atlas : Atlas) (group : GroupId) (module : ModuleId) : Atlas :=
  { atlas with
    groups := atlas.groups.modify group.index fun group =>
      { group with defaultModule := some module } }

def updateModule (atlas : Atlas) (id : ModuleId) (change : Module → Module) : Atlas :=
  { atlas with modules := atlas.modules.modify id.index change }

end Atlas

end ModuleAtlas
