import ModuleAtlas.Atlas.Creation
import ModuleAtlas.Atlas.Propagation

/-!
# Commands

Everything that changes an atlas, as data.  Performing a command gives its answer, the atlas after
it and the events that it recorded; a run performs commands one after another, whether they fail or
not.
-/

namespace ModuleAtlas

/--
A change to an atlas.  Of a module that exists, only what is attached to it can be assigned: its
mark as a placeholder, its comment and its deprecation, each by a command of its own.  There is no
command that replaces a whole module or assigns its name, place, scope or marks.
-/
inductive Command where
  | createProject (name : String)
  | createGroup (project : ProjectId) (parent : Option GroupId) (name : String)
  | createModule (group : Option GroupId) (name : String) (location : Location)
  | createFictive (name : String)
  | setDefault (group : GroupId) (module : ModuleId)
  | setImports (module : ModuleId) (imports : List ModuleId)
  | setVisibility (module target : ModuleId) (level : Visibility)
  | declareImports (module : ModuleId) (imports : List (ModuleId × Visibility))
  | setFictive (module : ModuleId) (fictive : Bool)
  | setComment (module : ModuleId) (comment : Option Comment)
  | setDeprecation (module : ModuleId) (deprecation : Option Deprecation)
  deriving DecidableEq

inductive Answer where
  | done
  | project (id : ProjectId)
  | group (id : GroupId)
  | module (id : ModuleId)
  deriving DecidableEq

namespace Loading

def attach (module : ModuleId) (attachment : Module → Module) : Loading Unit := do
  let _ ← look fun atlas => atlas.findModule module
  change fun atlas => atlas.updateModule module attachment

end Loading

namespace Command

open Loading

/--
The operation of a command.  Faults of the commands that shape the hierarchies and scopes are
reported; creating a project or a placeholder and attaching something to a module fails silently.
-/
def operation : Command → Loading Answer
  | createProject name => Answer.project <$> Loading.createProject name
  | createGroup project parent name =>
    Answer.group <$> reported (Loading.createGroup project parent name)
  | createModule group name location =>
    Answer.module <$> reported (Loading.createModule group name location)
  | createFictive name => Answer.module <$> Loading.createFictive name
  | setDefault group module =>
    (fun _ => Answer.done) <$> reported (Loading.setDefault group module)
  | setImports module imports =>
    (fun _ => Answer.done) <$> reported (Loading.setImports module imports)
  | setVisibility module target level =>
    (fun _ => Answer.done) <$> reported (Loading.setVisibility module target level)
  | declareImports module imports =>
    (fun _ => Answer.done) <$> Loading.declareImports module imports
  | setFictive module fictive =>
    (fun _ => Answer.done) <$> attach module fun entity => { entity with fictive }
  | setComment module comment =>
    (fun _ => Answer.done) <$> attach module fun entity => { entity with comment }
  | setDeprecation module deprecation =>
    (fun _ => Answer.done) <$> attach module fun entity => { entity with deprecation }

end Command

structure Outcome where
  answer : Except Fault Answer
  atlas : Atlas
  events : List Event

namespace Atlas

def perform (atlas : Atlas) (command : Command) : Outcome :=
  match command.operation { atlas } with
  | .ok answer session => ⟨.ok answer, session.atlas, session.events⟩
  | .error fault session => ⟨.error fault, session.atlas, session.events⟩

def run (atlas : Atlas) (commands : List Command) : Atlas :=
  commands.foldl (fun atlas command => (atlas.perform command).atlas) atlas

def answers (atlas : Atlas) : List Command → List (Except Fault Answer)
  | [] => []
  | command :: rest =>
    let outcome := atlas.perform command
    outcome.answer :: outcome.atlas.answers rest

end Atlas

end ModuleAtlas
