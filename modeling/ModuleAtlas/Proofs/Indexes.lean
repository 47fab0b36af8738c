import ModuleAtlas.Proofs.Forest
import ModuleAtlas.Proofs.ImportLists
import ModuleAtlas.Proofs.Refusals

/-!
# Indexes

A new module goes to the arena, to the name index and to both hierarchies, one after the other, and
refers to a group, which refers to a project.  Nothing compares these with each other again, and
look-ups rely on it that they agree.  They do after every run, since whatever refuses a command
refuses it before the first of them was changed.
-/

namespace ModuleAtlas

namespace Atlas

/-! ## Full names -/

def InProjectNamed (atlas : Atlas) (group : GroupId) (name : String) : Prop :=
  ∃ home project, atlas.group? group = some home ∧ atlas.project? home.project = some project ∧
    project.name = name

/-- A full name is the plain name outside all groups and qualified by the project inside one. -/
def Titled (atlas : Atlas) (module : Module) : Prop :=
  match module.group with
  | none => module.fullName = module.name
  | some group => ∃ name, atlas.InProjectNamed group name ∧
      module.fullName = Module.qualified name module.name

theorem titled_iff_of_none {atlas : Atlas} {module : Module} (groupless : module.group = none) :
    atlas.Titled module ↔ module.fullName = module.name := by
  simp only [Titled, groupless]

theorem titled_iff_of_some {atlas : Atlas} {module : Module} {group : GroupId}
    (grouped : module.group = some group) :
    atlas.Titled module ↔ ∃ name, atlas.InProjectNamed group name ∧
      module.fullName = Module.qualified name module.name := by
  simp only [Titled, grouped]

theorem Populates.inProjectNamed {before after : Atlas} {command : Command}
    (populates : Populates before command after) {group : GroupId} {name : String}
    (named : before.InProjectNamed group name) : after.InProjectNamed group name := by
  obtain ⟨home, project, found, inProject, rfl⟩ := named
  obtain ⟨laterHome, foundLater, outline⟩ := populates.group? found
  obtain ⟨laterProject, inLater, sameName⟩ := populates.project? inProject
  rw [← Group.project_of_outline outline] at inLater
  exact ⟨laterHome, laterProject, foundLater, inLater, sameName⟩

theorem Populates.titled {before after : Atlas} {command : Command}
    (populates : Populates before command after) {module : Module}
    (titled : before.Titled module) : after.Titled module := by
  cases grouped : module.group with
  | none =>
    rw [titled_iff_of_none grouped] at titled ⊢
    exact titled
  | some group =>
    rw [titled_iff_of_some grouped] at titled ⊢
    obtain ⟨name, named, qualified⟩ := titled
    exact ⟨name, populates.inProjectNamed named, qualified⟩

/-! ## The name index -/

theorem names_addGroup (atlas : Atlas) (group : Group) :
    (atlas.addGroup group).names = atlas.names := by
  unfold addGroup
  split <;> rfl

theorem names_settled (atlas : Atlas) (group : GroupId) (module : ModuleId) :
    (atlas.settled group module).names = atlas.names := by
  unfold settled
  split <;> rfl

theorem names_joined (atlas : Atlas) (group : GroupId) (home : Group) (module : Module) :
    (atlas.joined group home module).names = atlas.names.add module.name module.id := by
  by_cases named : home.name = module.name
  · rw [Loading.joined_named named, names_settled]
    rfl
  · rw [Loading.joined_unnamed named, names_settled]
    rfl

def modulesCalled (atlas : Atlas) (name : String) : List ModuleId :=
  atlas.modulesWhere fun module => name = module.name

theorem WellFormed.mem_modulesCalled {atlas : Atlas} (wellFormed : atlas.WellFormed) {id : ModuleId}
    {name : String} : id ∈ atlas.modulesCalled name ↔
      ∃ entity, atlas.module? id = some entity ∧ entity.name = name := by
  rw [modulesCalled, modulesWhere, wellFormed.numbered.mem_map_filter]
  simp only [decide_eq_true_eq]
  exact exists_congr fun entity => and_congr_right' eq_comm

/-! ## The invariant -/

/-- Projects are numbered, the name index agrees with the modules, and full names with projects. -/
structure Indexed (atlas : Atlas) : Prop where
  projects : Numbered Project.id atlas.projects
  names : ∀ name, atlas.modulesNamed name = atlas.modulesCalled name
  titles : ∀ {id entity}, atlas.module? id = some entity → atlas.Titled entity

theorem indexed_empty (settings : Settings) : (empty settings).Indexed where
  projects := fun _ _ found => nomatch found
  names := fun _ => rfl
  titles := by
    intro id entity found
    simp [module?, empty] at found

namespace Indexed

variable {before after : Atlas}

theorem projects_populated (indexed : before.Indexed) {command : Command}
    (populates : Populates before command after) : Numbered Project.id after.projects := by
  cases populates with
  | steady alike =>
    rw [alike.projects]
    exact indexed.projects
  | project name => exact indexed.projects.concat rfl
  | group name projectKnown parentKnown =>
    intro index project found
    have noted := (project?_addGroup before _ ⟨index⟩).symm.trans found
    obtain ⟨old, known, rfl⟩ := Option.map_eq_some_iff.1 noted
    have numbered := indexed.projects index old known
    split <;> exact numbered
  | loose name location fictive => exact indexed.projects
  | member name location found inProject free =>
    rw [projects_joined]
    exact indexed.projects
  | appointed found vacant member => exact indexed.projects

/-- A name finds a new module of that name behind the others. -/
theorem names_concat (indexed : before.Indexed) {module : Module}
    (grown : after.modules = before.modules ++ [module])
    (noted : after.names = before.names.add module.name module.id) (name : String) :
    after.modulesNamed name = after.modulesCalled name := by
  have earlier : before.names.find name = before.modulesCalled name := indexed.names name
  rw [modulesNamed, noted, NameIndex.find_add, earlier, modulesCalled, modulesCalled,
    modulesWhere_concat grown]
  simp only [decide_eq_true_eq]

theorem names_populated (indexed : before.Indexed) {command : Command}
    (populates : Populates before command after) (name : String) :
    after.modulesNamed name = after.modulesCalled name := by
  cases populates with
  | steady alike =>
    have same : after.modulesCalled name = before.modulesCalled name :=
      modulesWhere_congr (fun _ => rfl) alike.modules
    rw [modulesNamed, alike.names, same]
    exact indexed.names name
  | project _ => exact indexed.names name
  | group _ projectKnown parentKnown =>
    rw [modulesNamed, names_addGroup, modulesCalled, modulesWhere,
      (regroups_addGroup before _).modules]
    exact indexed.names name
  | loose _ location fictive => exact indexed.names_concat rfl rfl name
  | member _ location found inProject free =>
    exact indexed.names_concat (modules_joined before _ _ _) (names_joined before _ _ _) name
  | appointed found vacant member => exact indexed.names name

theorem titles_populated (indexed : before.Indexed) {command : Command}
    (populates : Populates before command after) {id : ModuleId} {entity : Module}
    (found : after.module? id = some entity) : after.Titled entity := by
  refine populates.titled ?_
  cases populates with
  | steady alike =>
    have same := alike.symm.module? id
    rw [found, Option.map_some, Option.map_eq_some_iff] at same
    obtain ⟨earlier, known, outline⟩ := same
    have titled := indexed.titles known
    have outlined : before.Titled earlier.outline := titled
    rw [outline] at outlined
    exact outlined
  | project name => exact indexed.titles found
  | group name projectKnown parentKnown =>
    rw [(regroups_addGroup before _).module?] at found
    exact indexed.titles found
  | loose name location fictive =>
    rcases module?_addModule_cases found with known | ⟨_, rfl⟩
    · exact indexed.titles known
    · rfl
  | @member group home project name location isHome inProject free =>
    rw [Atlas.module?, modules_joined] at found
    rcases module?_addModule_cases found with known | ⟨_, rfl⟩
    · exact indexed.titles known
    · exact ⟨project.name, ⟨home, project, isHome, inProject, rfl⟩, rfl⟩
  | appointed _ vacant member => exact indexed.titles found

end Indexed

theorem indexed_reached (settings : Settings) (commands : List Command) :
    ((empty settings).run commands).Indexed := by
  induction commands using List.reverseRecOn with
  | nil => exact indexed_empty settings
  | append_singleton earlier command ih =>
    have populates := populates_perform (wellFormed_reached settings earlier) command
    rw [run_append]
    exact ⟨ih.projects_populated populates, ih.names_populated populates,
      ih.titles_populated populates⟩

/-! ## Nodes that are not registered -/

structure Answers (atlas : Atlas) (id : ModuleId) : Prop where
  entries : ∀ axis, ∃ entry, atlas.entry axis id = .ok entry
  directOwner : ∃ owner, atlas.directOwner id = .ok owner
  nestedModules : ∃ nested, atlas.nestedModules id = .ok nested
  importedModules : ∃ imported, atlas.importedModules id = .ok imported
  visibilityFor : ∀ target, ∃ level, atlas.visibilityFor id target = .ok level
  isVisible : ∀ origin required, ∃ visible, atlas.isVisible id origin required = .ok visible

section Answers

variable {atlas : Atlas} {order node : String}

theorem answers_of_known (wellFormed : atlas.WellFormed) {id : ModuleId} {entity : Module}
    (known : atlas.module? id = some entity) : atlas.Answers id := by
  have entries (axis : Axis) : ∃ entry, atlas.entry axis id = .ok entry := by
    have registered : (atlas.hierarchy axis).contains id :=
      wellFormed.contains_iff_known.2 ⟨entity, known⟩
    obtain ⟨entry, found⟩ := Hierarchy.contains_iff.1 registered
    exact ⟨entry, entry_eq_ok_iff.2 found⟩
  obtain ⟨nesting, isNesting⟩ := entries .nesting
  obtain ⟨importation, isImportation⟩ := entries .importation
  have found : atlas.findModule id = .ok entity := Loading.findModule_eq_ok_iff.2 known
  constructor
  · exact entries
  · exact ⟨_, bind_eq_ok.2 ⟨nesting, isNesting, rfl⟩⟩
  · exact ⟨_, bind_eq_ok.2 ⟨nesting, isNesting, rfl⟩⟩
  · exact ⟨_, bind_eq_ok.2 ⟨importation, isImportation, rfl⟩⟩
  · exact fun target => ⟨_, bind_eq_ok.2 ⟨entity, found, rfl⟩⟩
  · exact fun origin required => ⟨_, bind_eq_ok.2 ⟨entity, found, rfl⟩⟩

/-- A module whose imports are declared is looked up before its node is. -/
theorem plan_setImports_ne_unknownNode (wellFormed : atlas.WellFormed) (named : atlas.Named)
    (module : ModuleId) (imports : List ModuleId) :
    atlas.plan (.setImports module imports) ≠ .error (.unknownNode order node) := by
  intro refused
  have single : (Command.setImports module imports).IsSingle := trivial
  have answered := (perform_of_plan_error wellFormed single refused).1
  cases known : atlas.module? module with
  | none => cases answered.symm.trans (refused_of_unknown wellFormed known)
  | some importer =>
    by_cases wired : ∃ y, atlas.importation.hasDirectEdge module y
    · obtain ⟨y, edge⟩ := wired
      cases answered.symm.trans ((wiring_refused wellFormed known edge).1 imports)
    · have importless := not_exists.1 wired
      have first := (refused_iff_firstFault wellFormed named known importless).1 answered
      obtain ⟨_, _, _, _, _, ⟨⟩⟩ := first

theorem plan_ne_unknownNode (wellFormed : atlas.WellFormed) (named : atlas.Named)
    {command : Command} (single : command.IsSingle) :
    atlas.plan command ≠ .error (.unknownNode order node) := by
  by_cases wires : ∃ module imports, command = .setImports module imports
  · obtain ⟨module, imports, rfl⟩ := wires
    exact plan_setImports_ne_unknownNode wellFormed named module imports
  · have other (module : ModuleId) (imports : List ModuleId) :
        command ≠ .setImports module imports := fun same => wires ⟨module, imports, same⟩
    exact sparesRefusals_plan atlas single other _ trivial

/-- No command, whatever it refers to, meets a hierarchy that does not know a node. -/
theorem perform_ne_unknownNode (wellFormed : atlas.WellFormed) (named : atlas.Named)
    (command : Command) : (atlas.perform command).answer ≠ .error (.unknownNode order node) := by
  intro refused
  have staged := perform_staged wellFormed command
  rw [refused] at staged
  obtain ⟨done, rest, failing, _, progress, single, planned⟩ := staged.divided
  have wellFormedThere := progress.wellFormed wellFormed
  exact plan_ne_unknownNode wellFormedThere (named_of_progress named progress) single planned

end Answers

/--
What is kept about modules agrees in every atlas that commands lead to, accepted or refused.  All
entities are where their handles point to, and both hierarchies have the handles of all modules as
their nodes, once each and in the order of creation; so whatever is asked about a known module is
answered, and no command finds a node unregistered.  A name finds the modules of that name and no
others, ascending.  Groups are in known projects and modules in known groups, and the full name of a
module is made of the names of its project and its own unless these are the same.
-/
theorem indexes_agree (settings : Settings) (commands : List Command) :
    let atlas := (empty settings).run commands
    (Numbered Module.id atlas.modules ∧ Numbered Group.id atlas.groups ∧
      Numbered Project.id atlas.projects) ∧
    (∀ axis, (atlas.hierarchy axis).nodes =
      (List.range atlas.modules.length).map fun index => ⟨index⟩) ∧
    (∀ id entity, atlas.module? id = some entity → atlas.Answers id) ∧
    (∀ command order node, (atlas.perform command).answer ≠ .error (.unknownNode order node)) ∧
    (∀ name, (atlas.modulesNamed name).Pairwise (· < ·) ∧
      ∀ id, id ∈ atlas.modulesNamed name ↔
        ∃ entity, atlas.module? id = some entity ∧ entity.name = name) ∧
    (∀ id group, atlas.group? id = some group → (atlas.project? group.project).isSome) ∧
    ∀ id entity, atlas.module? id = some entity →
      (entity.group = none → entity.fullName = entity.name) ∧
      ∀ group, entity.group = some group → ∃ home project,
        atlas.group? group = some home ∧ atlas.project? home.project = some project ∧
        entity.fullName = if project.name = entity.name then entity.name
          else project.name ++ "::" ++ entity.name := by
  intro atlas
  have wellFormed : atlas.WellFormed := wellFormed_reached settings commands
  have named : atlas.Named := named_reached settings commands
  have forested : atlas.Forested := forested_reached settings commands
  have indexed : atlas.Indexed := indexed_reached settings commands
  refine ⟨⟨wellFormed.numbered, forested.numbered, indexed.projects⟩, ?_, ?_, ?_, ?_, ?_, ?_⟩
  · exact fun axis => (wellFormed.nodes axis).trans wellFormed.numbered.map_eq
  · exact fun id entity known => answers_of_known wellFormed known
  · exact fun command order node => perform_ne_unknownNode wellFormed named command
  · intro name
    rw [indexed.names name]
    exact ⟨wellFormed.numbered.pairwise_map_filter _, fun id => wellFormed.mem_modulesCalled⟩
  · exact fun id group known => forested.inProjects known
  · intro id entity known
    have titled := indexed.titles known
    refine ⟨fun groupless => (titled_iff_of_none groupless).1 titled, fun group grouped => ?_⟩
    obtain ⟨name, ⟨home, project, found, inProject, rfl⟩, qualified⟩ :=
      (titled_iff_of_some grouped).1 titled
    exact ⟨home, project, found, inProject, qualified⟩

/-- Refused modules leave no trace, and two modules of one name go by different full names. -/
theorem indexes_agree_after_refusals :
    let commands : List Command := [.createProject "p", .createGroup ⟨0⟩ none "p",
      .createModule (some ⟨0⟩) "p" .synthetic, .createModule (some ⟨1⟩) "a" .synthetic,
      .createModule (some ⟨0⟩) "p" .synthetic, .createModule (some ⟨0⟩) "a" .synthetic,
      .createFictive "a", .setImports ⟨1⟩ [⟨2⟩, ⟨1⟩]]
    let atlas := (empty {}).run commands
    (empty {}).answers commands = [.ok (.project ⟨0⟩), .ok (.group ⟨0⟩), .ok (.module ⟨0⟩),
      .error (.unknownGroup ⟨1⟩), .error (.defaultConflict "p" "p" "p"), .ok (.module ⟨1⟩),
      .ok (.module ⟨2⟩), .error (.cycle "importation" "p::a" "p::a")] ∧
    (∀ axis, (atlas.hierarchy axis).nodes = [⟨0⟩, ⟨1⟩, ⟨2⟩]) ∧
    (⟨1⟩ ∈ atlas.modulesNamed "a" ∧ ⟨2⟩ ∈ atlas.modulesNamed "a") ∧
    (∃ home, atlas.group? ⟨0⟩ = some home ∧ (atlas.project? home.project).isSome) ∧
    (∃ entity, atlas.module? ⟨1⟩ = some entity ∧ atlas.Answers ⟨1⟩ ∧ entity.fullName = "p::a") ∧
    ∃ entity, atlas.module? ⟨2⟩ = some entity ∧ entity.fullName = "a" := by
  intro commands atlas
  obtain ⟨_, nodes, answers, _, names, projects, fullNames⟩ := indexes_agree {} commands
  have listed := (names "a").2
  refine ⟨rfl, nodes, ⟨(listed ⟨1⟩).2 ⟨_, rfl, rfl⟩, (listed ⟨2⟩).2 ⟨_, rfl, rfl⟩⟩,
    ⟨_, rfl, projects ⟨0⟩ _ rfl⟩, ⟨_, rfl, answers ⟨1⟩ _ rfl, ?_⟩, _, rfl, ?_⟩
  · obtain ⟨home, project, found, inProject, fullName⟩ := (fullNames ⟨1⟩ _ rfl).2 ⟨0⟩ rfl
    obtain rfl := Option.some.inj found
    obtain rfl := Option.some.inj inProject
    exact fullName
  · exact (fullNames ⟨2⟩ _ rfl).1 rfl

end Atlas

end ModuleAtlas
