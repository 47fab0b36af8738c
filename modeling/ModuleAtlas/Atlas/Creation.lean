import ModuleAtlas.Atlas.Loading

/-!
# Creation

Projects, groups and modules are created one by one, and nesting follows the group forest: the
members of a group are nested under its default module, and where there is none, or for the default
module itself, under the default module of the nearest group above.
-/

namespace ModuleAtlas

namespace Loading

/-! ## Projects and groups -/

def createProject (name : String) : Loading ProjectId := do
  let id ← look fun atlas => Handle.next .project atlas.projects.length
  change fun atlas => { atlas with projects := atlas.projects ++ [{ id, name }] }
  return id

/-- Create a group in a project, below another group or else as a root. -/
def createGroup (project : ProjectId) (parent : Option GroupId) (name : String) :
    Loading GroupId := do
  let _ ← look fun atlas => atlas.findProject project
  if let some parent := parent then
    let _ ← look fun atlas => atlas.findGroup parent
  let id ← look fun atlas => Handle.next .group atlas.groups.length
  change fun atlas => atlas.addGroup { id, name, project, parent }
  return id

/-! ## Default modules -/

def defaultFault (atlas : Atlas) (group : Group) (existing : ModuleId) (requested : String) :
    Fault :=
  .defaultConflict group.name (atlas.nameOf existing) requested

/-- Nest a member of a group under its default module. -/
def adopt (owner member : ModuleId) : Loading Unit := do
  link .nesting owner member
  let atlas ← current
  emit (.adopted (atlas.nameOf owner) (atlas.nameOf member))

def adoptMembers (group : GroupId) (owner : ModuleId) : Loading Unit := do
  let home ← look fun atlas => atlas.findGroup group
  (home.members.filter fun member => member ≠ owner).forM fun member => adopt owner member

/-- Let a member stand for a group that no module stands for yet. -/
def appoint (group : GroupId) (owner : ModuleId) : Loading Unit := do
  change fun atlas => atlas.designate group owner
  adoptMembers group owner

/--
Let a module stand for a group.  It has to be a member; if another module stands for the group the
request is refused, and if it does so itself nothing changes.
-/
def setDefault (group : GroupId) (module : ModuleId) : Loading Unit := do
  let candidate ← look fun atlas => atlas.findModule module
  let home ← look fun atlas => atlas.findGroup group
  if module ∉ home.members then
    throw (.notMember home.name candidate.fullName)
  match home.defaultModule with
  | none => appoint group module
  | some existing =>
    if existing ≠ module then
      throw (defaultFault (← current) home existing candidate.name)

/-! ## Modules -/

def nest (group : GroupId) (module : ModuleId) : Loading Unit := do
  match (← current).ownerIn group module with
  | none => return
  | some owner =>
    link .nesting owner module
    let atlas ← current
    emit (.nested (atlas.nameOf owner) (atlas.nameOf module))

def createLoose (name : String) (location : Location) (fictive : Bool) : Loading ModuleId := do
  let id ← look fun atlas => Handle.next .module atlas.modules.length
  let module : Module := { id, name, fullName := name, location, group := none, fictive }
  change fun atlas => atlas.addModule module
  return id

/--
Create a module in a group.  If it is named like the group it stands for the group from then on,
which must not have a default module yet.
-/
def createMember (group : GroupId) (name : String) (location : Location) : Loading ModuleId := do
  let id ← look fun atlas => Handle.next .module atlas.modules.length
  let home ← look fun atlas => atlas.findGroup group
  let project ← look fun atlas => atlas.findProject home.project
  if home.name = name then
    if let some existing := home.defaultModule then
      throw (defaultFault (← current) home existing name)
  let fullName := Module.qualified project.name name
  change fun atlas => atlas.addModule { id, name, fullName, location, group := some group }
  change fun atlas => atlas.addMember group id
  if home.name = name then
    appoint group id
  nest group id
  return id

def createModule (group : Option GroupId) (name : String) (location : Location) :
    Loading ModuleId :=
  match group with
  | none => createLoose name location false
  | some group => createMember group name location

def createFictive (name : String) : Loading ModuleId := createLoose name .synthetic true

end Loading

end ModuleAtlas
