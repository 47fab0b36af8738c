import ModuleAtlas.Proofs.Permanence

/-!
# Layers

An atlas is loaded in layers: modules in groups, then imports, then what is seen of imports.  A
command that works on one layer looks at this layer and those below, never at one above.  So
whatever happens on the upper layers, the lower ones answer and end up as if it had not happened.
-/

namespace ModuleAtlas

/-- A module as it was created, without anything that was attached to it or that it sees. -/
def Module.outline (module : Module) : Module where
  id := module.id
  name := module.name
  fullName := module.fullName
  location := module.location
  group := module.group

namespace Module

variable {left right : Module}

theorem name_of_outline (same : right.outline = left.outline) : right.name = left.name := by
  have names := congrArg name same
  exact names

theorem fullName_of_outline (same : right.outline = left.outline) :
    right.fullName = left.fullName := by
  have fullNames := congrArg fullName same
  exact fullNames

end Module

namespace Command

def isConstruction : Command → Bool
  | createProject .. => true
  | createGroup .. => true
  | createModule .. => true
  | createFictive .. => true
  | setDefault .. => true
  | _ => false

def isOverlay : Command → Bool
  | setVisibility .. => true
  | setFictive .. => true
  | setComment .. => true
  | setDeprecation .. => true
  | _ => false

theorem isSingle_of_isConstruction {command : Command} (constructs : command.isConstruction) :
    command.IsSingle := by
  cases command with
  | declareImports module imports => cases constructs
  | _ => trivial

theorem isSingle_of_isOverlay {command : Command} (overlays : command.isOverlay) :
    command.IsSingle := by
  cases command with
  | declareImports module imports => cases overlays
  | _ => trivial

/-- What is left of a command if imports get no levels. -/
def withoutLevels : Command → Option Command
  | setVisibility .. => none
  | declareImports module imports => some (setImports module (imports.map Prod.fst))
  | command => some command

end Command

/-! ## Results that correspond -/

/-- Checks with the same fault, or with values in a relation. -/
def Corresponds {α β : Type} (relation : α → β → Prop) : Except Fault α → Except Fault β → Prop
  | .ok left, .ok right => relation left right
  | .error left, .error right => right = left
  | _, _ => False

namespace Corresponds

variable {α β γ δ : Type} {relation : α → β → Prop} {relationNext : γ → δ → Prop}

theorem bind {left : Except Fault α} {right : Except Fault β} {leftNext : α → Except Fault γ}
    {rightNext : β → Except Fault δ} (first : Corresponds relation left right)
    (rest : ∀ x y, relation x y → Corresponds relationNext (leftNext x) (rightNext y)) :
    Corresponds relationNext (left >>= leftNext) (right >>= rightNext) := by
  cases left with
  | ok x =>
    cases right with
    | ok y => exact rest x y first
    | error fault => exact first.elim
  | error fault =>
    cases right with
    | ok y => exact first.elim
    | error other => exact first

/-- What is looked up with the same result is checked in the same way. -/
theorem look {left right : Except Fault α} {leftNext : α → Except Fault γ}
    {rightNext : α → Except Fault δ} (same : right = left)
    (rest : ∀ x, left = .ok x → Corresponds relationNext (leftNext x) (rightNext x)) :
    Corresponds relationNext (left >>= leftNext) (right >>= rightNext) := by
  subst same
  cases right with
  | ok x => exact rest x rfl
  | error fault => exact rfl

theorem guard {condition : Prop} [Decidable condition] {leftFault rightFault : Fault}
    {leftNext : PUnit → Except Fault γ} {rightNext : PUnit → Except Fault δ}
    (sameFault : rightFault = leftFault)
    (rest : Corresponds relationNext (leftNext ⟨⟩) (rightNext ⟨⟩)) :
    Corresponds relationNext (if condition then throw leftFault >>= leftNext else leftNext ⟨⟩)
      (if condition then throw rightFault >>= rightNext else rightNext ⟨⟩) := by
  split
  · exact sameFault
  · exact rest

theorem map {left : Except Fault α} {right : Except Fault β} {f : α → γ} {g : β → δ}
    (first : Corresponds relation left right)
    (related : ∀ x y, relation x y → relationNext (f x) (g y)) :
    Corresponds relationNext (left.map f) (right.map g) := by
  cases left with
  | ok x =>
    cases right with
    | ok y => exact related x y first
    | error fault => exact first.elim
  | error fault =>
    cases right with
    | ok y => exact first.elim
    | error other => exact first

/-- Checks with the same fault, or with the same value, are the same. -/
theorem eq {left right : Except Fault α} (same : Corresponds (fun x y => y = x) left right) :
    right = left := by
  cases left with
  | ok x =>
    cases right with
    | ok y => exact congrArg _ same
    | error fault => exact same.elim
  | error fault =>
    cases right with
    | ok y => exact same.elim
    | error other => exact congrArg _ same

end Corresponds

namespace Atlas

/-! ## Atlases that are alike -/

/--
The same projects, groups, names and nesting, and modules that were created alike; if imports count,
also the same imports.
-/
structure Alike (imports : Prop) (left right : Atlas) : Prop where
  settings : right.settings = left.settings
  projects : right.projects = left.projects
  groups : right.groups = left.groups
  names : right.names = left.names
  nesting : right.nesting = left.nesting
  modules : right.modules.map Module.outline = left.modules.map Module.outline
  importation : imports → right.importation = left.importation

namespace Alike

variable {imports : Prop} {left right : Atlas}

theorem refl (imports : Prop) (atlas : Atlas) : Alike imports atlas atlas :=
  ⟨rfl, rfl, rfl, rfl, rfl, rfl, fun _ => rfl⟩

theorem symm (alike : Alike imports left right) : Alike imports right left where
  settings := alike.settings.symm
  projects := alike.projects.symm
  groups := alike.groups.symm
  names := alike.names.symm
  nesting := alike.nesting.symm
  modules := alike.modules.symm
  importation counts := (alike.importation counts).symm

theorem trans {middle : Atlas} (first : Alike imports left middle)
    (second : Alike imports middle right) : Alike imports left right where
  settings := second.settings.trans first.settings
  projects := second.projects.trans first.projects
  groups := second.groups.trans first.groups
  names := second.names.trans first.names
  nesting := second.nesting.trans first.nesting
  modules := second.modules.trans first.modules
  importation counts := (second.importation counts).trans (first.importation counts)

/-- Atlases that are alike imports included are alike without them as well. -/
theorem mono {fewer : Prop} (weaker : fewer → imports) (alike : Alike imports left right) :
    Alike fewer left right :=
  ⟨alike.settings, alike.projects, alike.groups, alike.names, alike.nesting, alike.modules,
    fun counts => alike.importation (weaker counts)⟩

/-! ## Look-ups -/

theorem length_modules (alike : Alike imports left right) :
    right.modules.length = left.modules.length := by
  have lengths := congrArg List.length alike.modules
  rwa [List.length_map, List.length_map] at lengths

theorem module? (alike : Alike imports left right) (id : ModuleId) :
    (right.module? id).map Module.outline = (left.module? id).map Module.outline := by
  rw [Atlas.module?, Atlas.module?, ← List.getElem?_map, ← List.getElem?_map, alike.modules]

theorem group? (alike : Alike imports left right) (id : GroupId) :
    right.group? id = left.group? id := by
  rw [Atlas.group?, Atlas.group?, alike.groups]

/-- What a module was created with is found for a module in the same way. -/
theorem elim_module? (alike : Alike imports left right) {β : Type} {part : Module → β}
    (created : ∀ module : Module, part module.outline = part module) (missing : β)
    (id : ModuleId) :
    (right.module? id).elim missing part = (left.module? id).elim missing part := by
  have same := congrArg (fun found => found.elim missing part) (alike.module? id)
  simpa only [Option.elim_map, Function.comp_def, created] using same

theorem nameOf (alike : Alike imports left right) (id : ModuleId) :
    right.nameOf id = left.nameOf id := alike.elim_module? (fun _ => rfl) id.text id

theorem fullNameOf (alike : Alike imports left right) (id : ModuleId) :
    right.fullNameOf id = left.fullNameOf id := alike.elim_module? (fun _ => rfl) id.text id

theorem findProject (alike : Alike imports left right) (id : ProjectId) :
    right.findProject id = left.findProject id := by
  rw [Atlas.findProject, Atlas.findProject, project?, project?, alike.projects]

theorem findGroup (alike : Alike imports left right) (id : GroupId) :
    right.findGroup id = left.findGroup id := by
  rw [Atlas.findGroup, Atlas.findGroup, alike.group?]

theorem findModule (alike : Alike imports left right) (id : ModuleId) :
    Corresponds (fun x y : Module => y.outline = x.outline) (left.findModule id)
      (right.findModule id) := by
  have same := alike.module? id
  unfold Atlas.findModule
  cases foundLeft : left.module? id with
  | none =>
    rw [foundLeft, Option.map_none, Option.map_eq_none_iff] at same
    rw [same]
    exact rfl
  | some x =>
    rw [foundLeft, Option.map_some, Option.map_eq_some_iff] at same
    obtain ⟨y, foundRight, outline⟩ := same
    rw [foundRight]
    exact outline

theorem defaultFault (alike : Alike imports left right) (group : Group) (existing : ModuleId)
    (requested : String) : Loading.defaultFault right group existing requested =
      Loading.defaultFault left group existing requested := by
  rw [Loading.defaultFault, Loading.defaultFault, alike.nameOf]

/-! ## Growth -/

theorem addGroup (alike : Alike imports left right) (group : Group) :
    Alike imports (left.addGroup group) (right.addGroup group) := by
  have projects := alike.projects
  have groups := alike.groups
  unfold Atlas.addGroup
  cases group.parent with
  | none =>
    refine { alike with projects := ?_, groups := ?_ }
    · simp only [projects]
    · simp only [groups]
  | some parent =>
    refine { alike with groups := ?_ }
    simp only [groups]

theorem addModule (alike : Alike imports left right) (module : Module) :
    Alike imports (left.addModule module) (right.addModule module) := by
  refine { alike with names := ?_, nesting := ?_, modules := ?_, importation := ?_ }
  · simp only [Atlas.addModule, alike.names]
  · simp only [Atlas.addModule, alike.nesting]
  · simp only [Atlas.addModule, List.map_append, alike.modules]
  · intro counts
    simp only [Atlas.addModule, alike.importation counts]

theorem addMember (alike : Alike imports left right) (group : GroupId) (module : ModuleId) :
    Alike imports (left.addMember group module) (right.addMember group module) := by
  refine { alike with groups := ?_ }
  simp only [Atlas.addMember, alike.groups]

theorem nested (alike : Alike imports left right) (owner : ModuleId) (members : List ModuleId) :
    Alike imports (left.nested owner members) (right.nested owner members) := by
  refine { alike with nesting := ?_ }
  simp only [Atlas.nested, withHierarchy, alike.nesting]

theorem appointed (alike : Alike imports left right) (group : GroupId) (members : List ModuleId)
    (owner : ModuleId) :
    Alike imports (left.appointed group members owner) (right.appointed group members owner) := by
  have designated : Alike imports (left.designate group owner) (right.designate group owner) := by
    refine { alike with groups := ?_ }
    simp only [Atlas.designate, alike.groups]
  exact designated.nested owner _

theorem settled (alike : Alike imports left right) (group : GroupId) (module : ModuleId) :
    Alike imports (left.settled group module) (right.settled group module) := by
  have sameOwner := ownerIn_congr alike.groups group module
  unfold Atlas.settled
  rw [sameOwner]
  cases left.ownerIn group module with
  | none => exact alike
  | some owner => exact alike.nested owner [module]

theorem joined (alike : Alike imports left right) (group : GroupId) (home : Group)
    (module : Module) :
    Alike imports (left.joined group home module) (right.joined group home module) := by
  have grown := (alike.addModule module).addMember group module.id
  by_cases named : home.name = module.name
  · rw [Loading.joined_named named, Loading.joined_named named]
    exact (grown.appointed group _ module.id).settled group module.id
  · rw [Loading.joined_unnamed named, Loading.joined_unnamed named]
    exact grown.settled group module.id

/-- What is attached to a module or seen by it is not what it was created with. -/
theorem updateModule (imports : Prop) {atlas : Atlas} (id : ModuleId) {change : Module → Module}
    (created : ∀ entity, atlas.module? id = some entity →
      (change entity).outline = entity.outline) :
    Alike imports atlas (atlas.updateModule id change) := by
  refine { refl imports atlas with modules := ?_ }
  apply List.ext_getElem?
  intro index
  have found := module?_updateModule atlas id ⟨index⟩ change
  rw [Atlas.module?] at found
  rw [List.getElem?_map, found, List.getElem?_map]
  cases known : atlas.module? ⟨index⟩ with
  | none =>
    have known : atlas.modules[index]? = none := known
    rw [known]
    rfl
  | some entity =>
    have known' : atlas.modules[index]? = some entity := known
    rw [known', Option.map_some, Option.map_some, Option.map_some]
    split
    next same => rw [created entity (same ▸ known)]
    next => rfl

end Alike

/-! ## Plans -/

def SameResult {α : Type} (imports : Prop) (left right : α × Atlas) : Prop :=
  right.1 = left.1 ∧ Alike imports left.2 right.2

namespace Alike

variable {imports : Prop} {left right : Atlas}

theorem planProject (alike : Alike imports left right) (name : String) :
    Corresponds (SameResult imports) (left.planProject name) (right.planProject name) := by
  apply Corresponds.look
  · rw [alike.projects]
  intro id _
  refine ⟨rfl, { alike with projects := ?_ }⟩
  rw [alike.projects]

theorem planGroup (alike : Alike imports left right) (project : ProjectId)
    (parent : Option GroupId) (name : String) :
    Corresponds (SameResult imports) (left.planGroup project parent name)
      (right.planGroup project parent name) := by
  have position : Handle.next .group right.groups.length =
      Handle.next .group left.groups.length := by rw [alike.groups]
  apply Corresponds.look (alike.findProject project)
  intro _ _
  cases parent with
  | none =>
    apply Corresponds.look position
    exact fun id _ => ⟨rfl, alike.addGroup { id, name, project, parent := none }⟩
  | some parent =>
    apply Corresponds.look (alike.findGroup parent)
    intro _ _
    apply Corresponds.look position
    exact fun id _ => ⟨rfl, alike.addGroup { id, name, project, parent }⟩

theorem next (alike : Alike imports left right) :
    Handle.next .module right.modules.length = Handle.next .module left.modules.length := by
  rw [alike.length_modules]

theorem planLoose (alike : Alike imports left right) (name : String) (location : Location)
    (fictive : Bool) :
    Corresponds (SameResult imports) (left.planLoose name location fictive)
      (right.planLoose name location fictive) := by
  apply Corresponds.look alike.next
  exact fun _ _ => ⟨rfl, alike.addModule _⟩

theorem planMember (alike : Alike imports left right) (group : GroupId) (name : String)
    (location : Location) :
    Corresponds (SameResult imports) (left.planMember group name location)
      (right.planMember group name location) := by
  apply Corresponds.look alike.next
  intro id _
  apply Corresponds.look (alike.findGroup group)
  intro home _
  apply Corresponds.look (alike.findProject home.project)
  intro project _
  dsimp only
  split
  · cases home.defaultModule with
    | none => exact ⟨rfl, alike.joined group home _⟩
    | some existing => exact alike.defaultFault home existing name
  · exact ⟨rfl, alike.joined group home _⟩

theorem planDefault (alike : Alike imports left right) (group : GroupId) (module : ModuleId) :
    Corresponds (SameResult imports) (left.planDefault group module)
      (right.planDefault group module) := by
  apply Corresponds.bind (alike.findModule module)
  intro candidate twin same
  apply Corresponds.look (alike.findGroup group)
  intro home _
  apply Corresponds.guard
  · rw [Module.fullName_of_outline same]
  dsimp only
  cases home.defaultModule with
  | none => exact ⟨rfl, alike.appointed group home.members module⟩
  | some existing =>
    dsimp only
    split
    · rw [Module.name_of_outline same]
      exact alike.defaultFault home existing candidate.name
    · exact ⟨rfl, alike⟩

/-- Commands that create or appoint depend on what alike atlases share. -/
theorem planConstruction (alike : Alike imports left right) {command : Command}
    (constructs : command.isConstruction) :
    Corresponds (SameResult imports) (left.plan command) (right.plan command) := by
  have carry {α : Type} (f : α → Answer) (x y : α × Atlas) (same : SameResult imports x y) :
      SameResult imports (f x.1, x.2) (f y.1, y.2) := ⟨congrArg f same.1, same.2⟩
  cases command with
  | createProject name => exact (alike.planProject name).map (carry Answer.project)
  | createGroup project parent name =>
    exact (alike.planGroup project parent name).map (carry Answer.group)
  | createModule group name location =>
    cases group with
    | none => exact (alike.planLoose name location false).map (carry Answer.module)
    | some group => exact (alike.planMember group name location).map (carry Answer.module)
  | createFictive name => exact (alike.planLoose name .synthetic true).map (carry Answer.module)
  | setDefault group module =>
    exact (alike.planDefault group module).map (carry fun _ => Answer.done)
  | _ => cases constructs

section Imports

variable (alike : Alike True left right) (module : ModuleId)
include alike

theorem entry : right.entry .importation module = left.entry .importation module := by
  rw [Atlas.entry, Atlas.entry, hierarchy, hierarchy, alike.importation trivial]

theorem checkImport (imported : ModuleId) :
    Corresponds Eq (left.checkImport module imported) (right.checkImport module imported) := by
  apply Corresponds.bind (alike.findModule imported)
  intro _ _ _
  have cycles : right.wouldCycle module imported = left.wouldCycle module imported := by
    rw [wouldCycle, wouldCycle, alike.settings, alike.importation trivial]
  rw [cycles]
  apply Corresponds.guard
  · rw [alike.fullNameOf, alike.fullNameOf, alike.importation trivial]
  · exact rfl

theorem checkImports (imports : List ModuleId) :
    Corresponds Eq (left.checkImports module imports) (right.checkImports module imports) := by
  induction imports with
  | nil => exact rfl
  | cons imported rest ih =>
    apply Corresponds.bind (alike.checkImport module imported)
    exact fun _ _ _ => ih

/-- With the same imports, imports are declared in the same way. -/
theorem planImports (imports : List ModuleId) :
    Corresponds (SameResult True) (left.plan (.setImports module imports))
      (right.plan (.setImports module imports)) := by
  have wired : Alike True (left.importing module imports) (right.importing module imports) := by
    refine { alike with importation := ?_ }
    intro counts
    simp only [importing, withHierarchy, alike.importation counts]
  have planned : Corresponds (SameResult True) (left.planImports module imports)
      (right.planImports module imports) := by
    apply Corresponds.bind (alike.findModule module)
    intro importer twin same
    apply Corresponds.look (alike.entry module)
    intro entry _
    apply Corresponds.guard
    · rw [Module.fullName_of_outline same]
    apply Corresponds.bind (alike.checkImports module imports)
    exact fun _ _ _ => ⟨rfl, wired⟩
  exact planned.map fun x y same => ⟨rfl, same.2⟩

end Imports

/-! ## Commands -/

/-- Corresponding plans are carried out alike. -/
theorem perform (alike : Alike imports left right) (wellFormed : left.WellFormed)
    (wellFormedRight : right.WellFormed) {command : Command} (single : command.IsSingle)
    (planned : Corresponds (SameResult imports) (left.plan command) (right.plan command)) :
    (right.perform command).answer = (left.perform command).answer ∧
      Alike imports (left.perform command).atlas (right.perform command).atlas := by
  cases leftPlan : left.plan command with
  | ok result =>
    obtain ⟨leftAnswer, leftAtlas⟩ := perform_of_plan_ok wellFormed single leftPlan
    cases rightPlan : right.plan command with
    | ok twin =>
      obtain ⟨rightAnswer, rightAtlas⟩ := perform_of_plan_ok wellFormedRight single rightPlan
      rw [leftPlan, rightPlan] at planned
      rw [leftAnswer, leftAtlas, rightAnswer, rightAtlas]
      exact ⟨congrArg Except.ok planned.1, planned.2⟩
    | error fault =>
      rw [leftPlan, rightPlan] at planned
      exact planned.elim
  | error fault =>
    obtain ⟨leftAnswer, leftAtlas⟩ := perform_of_plan_error wellFormed single leftPlan
    cases rightPlan : right.plan command with
    | ok twin =>
      rw [leftPlan, rightPlan] at planned
      exact planned.elim
    | error other =>
      obtain ⟨rightAnswer, rightAtlas⟩ := perform_of_plan_error wellFormedRight single rightPlan
      rw [leftPlan, rightPlan] at planned
      rw [leftAnswer, leftAtlas, rightAnswer, rightAtlas]
      exact ⟨congrArg Except.error planned, alike⟩

end Alike

/-! ## Commands on upper layers -/

/-- What overlays do to modules is neither what these were created with nor what they import. -/
theorem alike_of_overlay {atlas next : Atlas} {command : Command} (overlays : command.isOverlay)
    {answer : Answer} (planned : atlas.plan command = .ok (answer, next)) :
    Alike True atlas next := by
  have attached {module : ModuleId} {attachment : Module → Module} {result : Unit × Atlas}
      (accepted : atlas.planAttachment module attachment = .ok result)
      (created : ∀ entity, (attachment entity).outline = entity.outline) :
      Alike True atlas result.2 := by
    rw [(planAttachment_ok accepted).2]
    exact .updateModule True module fun entity _ => created entity
  cases command with
  | setVisibility module target level =>
    obtain ⟨result, accepted, ⟨⟩⟩ := map_eq_ok.1 planned
    obtain ⟨importer, _, isImporter, _, _, _, same⟩ := planVisibility_eq_ok_iff.1 accepted
    rw [same]
    apply Alike.updateModule
    intro entity known
    rw [Option.some.inj (known.symm.trans isImporter)]
    rfl
  | setFictive module fictive =>
    obtain ⟨result, accepted, ⟨⟩⟩ := map_eq_ok.1 planned
    exact attached accepted fun _ => rfl
  | setComment module comment =>
    obtain ⟨result, accepted, ⟨⟩⟩ := map_eq_ok.1 planned
    exact attached accepted fun _ => rfl
  | setDeprecation module deprecation =>
    obtain ⟨result, accepted, ⟨⟩⟩ := map_eq_ok.1 planned
    exact attached accepted fun _ => rfl
  | _ => cases overlays

theorem alike_of_overlays {atlas after : Atlas} {trace : List Command}
    (progress : Progress atlas trace after) (overlay : ∀ command ∈ trace, command.isOverlay) :
    Alike True atlas after := by
  induction progress with
  | nil atlas => exact .refl True atlas
  | cons single planned _ ih =>
    obtain ⟨first, others⟩ := List.forall_mem_cons.1 overlay
    exact (alike_of_overlay first planned).trans (ih others)

theorem alike_perform_of_overlay {atlas : Atlas} (wellFormed : atlas.WellFormed)
    {command : Command} (overlays : command.isOverlay) :
    Alike True atlas (atlas.perform command).atlas :=
  perform_of_plan wellFormed (Command.isSingle_of_isOverlay overlays) (.refl True atlas)
    fun _ _ planned => alike_of_overlay overlays planned

/-- Giving levels adds nothing to what declaring the same imports without levels does. -/
theorem alike_declaration {atlas : Atlas} (wellFormed : atlas.WellFormed) (module : ModuleId)
    (imports : List (ModuleId × Visibility)) :
    Alike True (atlas.perform (.setImports module (imports.map Prod.fst))).atlas
      (atlas.perform (.declareImports module imports)).atlas := by
  have single : (Command.setImports module (imports.map Prod.fst)).IsSingle := trivial
  obtain ⟨result, _, staged⟩ := perform_declaration wellFormed module imports
  rcases staged.cons_cases with ⟨answer, next, planned, later⟩ | ⟨fault, refused, _, unchanged⟩
  · rw [(perform_of_plan_ok wellFormed single planned).2]
    apply alike_of_overlays (later.progress (wellFormed_plan wellFormed planned))
    intro command isAccepted
    obtain ⟨entry, _, rfl⟩ := List.mem_map.1 (mem_of_mem_accepted isAccepted)
    rfl
  · rw [(perform_of_plan_error wellFormed single refused).2, unchanged]
    exact .refl True atlas

/-- Whatever creates and appoints nothing touches neither groups nor nesting. -/
theorem alike_perform_of_upper {atlas : Atlas} (wellFormed : atlas.WellFormed) {command : Command}
    (upper : ¬ command.isConstruction) : Alike False atlas (atlas.perform command).atlas := by
  have wired (module : ModuleId) (imports : List ModuleId) :
      Alike False atlas (atlas.perform (.setImports module imports)).atlas := by
    have single : (Command.setImports module imports).IsSingle := trivial
    refine perform_of_plan wellFormed single (.refl False atlas) fun answer next planned => ?_
    obtain ⟨_, accepted, ⟨⟩⟩ := map_eq_ok.1 planned
    obtain ⟨_, _, _, _, _, _, same⟩ := planImports_eq_ok_iff.1 accepted
    rw [same]
    exact ⟨rfl, rfl, rfl, rfl, rfl, rfl, False.elim⟩
  have overlaid (overlays : command.isOverlay) : Alike False atlas (atlas.perform command).atlas :=
    (alike_perform_of_overlay wellFormed overlays).mono False.elim
  cases command with
  | setImports module imports => exact wired module imports
  | declareImports module imports =>
    exact (wired module _).trans ((alike_declaration wellFormed module imports).mono False.elim)
  | setVisibility module target level => exact overlaid rfl
  | setFictive module fictive => exact overlaid rfl
  | setComment module comment => exact overlaid rfl
  | setDeprecation module deprecation => exact overlaid rfl
  | _ => exact absurd rfl upper

/-! ## Runs -/

section Runs

variable {left right : Atlas}

theorem Alike.construction {imports : Prop} (alike : Alike imports left right)
    (wellFormed : left.WellFormed) (wellFormedRight : right.WellFormed) {command : Command}
    (constructs : command.isConstruction) :
    (right.perform command).answer = (left.perform command).answer ∧
      Alike imports (left.perform command).atlas (right.perform command).atlas := by
  have single := Command.isSingle_of_isConstruction constructs
  exact alike.perform wellFormed wellFormedRight single (alike.planConstruction constructs)

theorem Alike.wiring (alike : Alike True left right) (wellFormed : left.WellFormed)
    (wellFormedRight : right.WellFormed) (module : ModuleId) (imports : List ModuleId) :
    (right.perform (.setImports module imports)).answer =
        (left.perform (.setImports module imports)).answer ∧
      Alike True (left.perform (.setImports module imports)).atlas
        (right.perform (.setImports module imports)).atlas := by
  have single : (Command.setImports module imports).IsSingle := trivial
  exact alike.perform wellFormed wellFormedRight single (alike.planImports module imports)

/-- The commands that only work on upper layers can be left out of a run. -/
theorem Alike.run_construction (alike : Alike False left right) (wellFormed : left.WellFormed)
    (wellFormedRight : right.WellFormed) (commands : List Command) :
    Alike False (left.run commands) (right.run (commands.filter Command.isConstruction)) := by
  induction commands generalizing left right with
  | nil => exact alike
  | cons command rest ih =>
    have wellFormedNext := wellFormed_perform wellFormed command
    by_cases constructs : command.isConstruction
    · have next := (alike.construction wellFormed wellFormedRight constructs).2
      rw [List.filter_cons_of_pos constructs]
      exact ih next wellFormedNext (wellFormed_perform wellFormedRight command)
    · have next := (alike_perform_of_upper wellFormed constructs).symm.trans alike
      rw [List.filter_cons_of_neg constructs]
      exact ih next wellFormedNext wellFormedRight

/-- One command of a run, and what is left of it without levels. -/
theorem Alike.step_withoutLevels (alike : Alike True left right) (wellFormed : left.WellFormed)
    (wellFormedRight : right.WellFormed) (command : Command) :
    Alike True (left.perform command).atlas (right.run command.withoutLevels.toList) := by
  have constructed (constructs : command.isConstruction) :
      Alike True (left.perform command).atlas (right.perform command).atlas :=
    (alike.construction wellFormed wellFormedRight constructs).2
  have overlaid (overlays : command.isOverlay) : Alike True (left.perform command).atlas right :=
    (alike_perform_of_overlay wellFormed overlays).symm.trans alike
  have repeated (overlays : command.isOverlay) :
      Alike True (left.perform command).atlas (right.perform command).atlas :=
    (overlaid overlays).trans (alike_perform_of_overlay wellFormedRight overlays)
  cases command with
  | setImports module imports => exact (alike.wiring wellFormed wellFormedRight module imports).2
  | setVisibility module target level => exact overlaid rfl
  | declareImports module imports =>
    have wired := (alike.wiring wellFormed wellFormedRight module (imports.map Prod.fst)).2
    exact (alike_declaration wellFormed module imports).symm.trans wired
  | setFictive module fictive => exact repeated rfl
  | setComment module comment => exact repeated rfl
  | setDeprecation module deprecation => exact repeated rfl
  | _ => exact constructed rfl

/-- The levels of imports can be left out of a run. -/
theorem Alike.run_withoutLevels (alike : Alike True left right) (wellFormed : left.WellFormed)
    (wellFormedRight : right.WellFormed) (commands : List Command) :
    Alike True (left.run commands) (right.run (commands.filterMap Command.withoutLevels)) := by
  induction commands generalizing left right with
  | nil => exact alike
  | cons command rest ih =>
    have next := alike.step_withoutLevels wellFormed wellFormedRight command
    have later := ih next (wellFormed_perform wellFormed command)
      (wellFormed_run wellFormedRight _)
    have divided : (command :: rest).filterMap Command.withoutLevels =
        command.withoutLevels.toList ++ rest.filterMap Command.withoutLevels := by
      rw [List.filterMap_cons]
      cases command.withoutLevels with
      | none => rfl
      | some remaining => rfl
    rw [divided, run_append]
    exact later

end Runs

/--
Each layer answers and ends up as if nothing had happened on the layers above it, whatever the
settings.  Leaving out all commands but those that create or appoint changes neither the answers of
these nor projects, groups, names, nesting and what modules were created with.  Leaving out the
levels of imports changes neither the answers to declarations without levels nor the imports.
-/
theorem layers_independent (settings : Settings) (commands : List Command) :
    let after (trace : List Command) := (empty settings).run trace
    let built := after (commands.filter Command.isConstruction)
    let wired := after (commands.filterMap Command.withoutLevels)
    (∀ earlier command later, commands = earlier ++ command :: later → command.isConstruction →
      ((after earlier).perform command).answer =
        ((after (earlier.filter Command.isConstruction)).perform command).answer) ∧
    ((after commands).projects = built.projects ∧ (after commands).groups = built.groups ∧
      (after commands).names = built.names ∧ (after commands).nesting = built.nesting ∧
      (after commands).modules.map Module.outline = built.modules.map Module.outline) ∧
    (∀ earlier module imports later, commands = earlier ++ .setImports module imports :: later →
      ((after earlier).perform (.setImports module imports)).answer =
        ((after (earlier.filterMap Command.withoutLevels)).perform
          (.setImports module imports)).answer) ∧
    (after commands).importation = wired.importation := by
  intro after built wired
  have start := wellFormed_empty settings
  have wellFormed (trace : List Command) : (after trace).WellFormed :=
    wellFormed_reached settings trace
  have onGroups (trace : List Command) :
      Alike False (after trace) (after (trace.filter Command.isConstruction)) :=
    (Alike.refl False (empty settings)).run_construction start start trace
  have onImports (trace : List Command) :
      Alike True (after trace) (after (trace.filterMap Command.withoutLevels)) :=
    (Alike.refl True (empty settings)).run_withoutLevels start start trace
  refine ⟨?_, ?_, ?_, ?_⟩
  · intro earlier command later _ constructs
    exact ((onGroups earlier).construction (wellFormed _) (wellFormed _) constructs).1.symm
  · have alike := onGroups commands
    exact ⟨alike.projects.symm, alike.groups.symm, alike.names.symm, alike.nesting.symm,
      alike.modules.symm⟩
  · intro earlier module imports later _
    exact ((onImports earlier).wiring (wellFormed _) (wellFormed _) module imports).1.symm
  · exact ((onImports commands).importation trivial).symm

/-- A declaration that stops half way leaves what comes after it as it would have been anyway. -/
theorem layers_independent_half_way :
    let settings : Settings := { strictOrdering := true }
    let declared : Command := .declareImports ⟨0⟩ [(⟨2⟩, .pub), (⟨1⟩, .pub)]
    let earlier : List Command :=
      [.createFictive "a", .createFictive "b", .createFictive "c", .setImports ⟨1⟩ [⟨2⟩]]
    let closing : Command := .setImports ⟨2⟩ [⟨0⟩]
    let later : List Command := [.createFictive "d", .setVisibility ⟨1⟩ ⟨2⟩ .intrude]
    let commands := earlier ++ declared :: closing :: later
    let after (trace : List Command) := (empty settings).run trace
    let plain : List Command := earlier ++ [.setImports ⟨0⟩ [⟨2⟩, ⟨1⟩]]
    ((after earlier).perform declared).answer = .error (.premature "a" "b") ∧
      commands = (earlier ++ [declared]) ++ closing :: later ∧
      ((after (earlier ++ [declared])).perform closing).answer =
        .error (.cycle "importation" "c" "a") ∧
      ((after plain).perform closing).answer = .error (.cycle "importation" "c" "a") ∧
      (after commands).importation = (after (plain ++ [closing, .createFictive "d"])).importation ∧
      (after commands).names =
        (after ((earlier.take 3) ++ [.createFictive "d"])).names := by
  intro settings declared earlier closing later commands after plain
  have split : commands = (earlier ++ [declared]) ++ closing :: later := rfl
  have levelless : (earlier ++ [declared]).filterMap Command.withoutLevels = plain := rfl
  have wiring : commands.filterMap Command.withoutLevels = plain ++ [closing, .createFictive "d"] :=
    rfl
  have construction : commands.filter Command.isConstruction =
      earlier.take 3 ++ [.createFictive "d"] := rfl
  obtain ⟨_, built, answered, wired⟩ := layers_independent settings commands
  have same := answered (earlier ++ [declared]) ⟨2⟩ [⟨0⟩] later split
  rw [levelless] at same
  rw [wiring] at wired
  rw [construction] at built
  have refused : ((after plain).perform closing).answer =
      .error (.cycle "importation" "c" "a") := by decide
  exact ⟨by decide, split, same.trans refused, refused, wired, built.2.2.1⟩

end Atlas

end ModuleAtlas
