import ModuleAtlas.Proofs.Growth
import ModuleAtlas.Proofs.Yield

/-!
# Plans

The plan of a command: all its checks, made on the atlas as it is, and then its changes, none of
which can be refused any more.  In a well-formed atlas every operation follows its plan, although it
meets the hierarchies edge by edge and could be refused at each edge.
-/

namespace ModuleAtlas

namespace Atlas

/-! ## Planned changes -/

def nested (atlas : Atlas) (owner : ModuleId) (members : List ModuleId) : Atlas :=
  atlas.withHierarchy .nesting (atlas.nesting.run (Hierarchy.fan owner members))

def appointed (atlas : Atlas) (group : GroupId) (members : List ModuleId) (owner : ModuleId) :
    Atlas :=
  (atlas.designate group owner).nested owner (members.filter fun member => member ≠ owner)

def settled (atlas : Atlas) (group : GroupId) (module : ModuleId) : Atlas :=
  match atlas.ownerIn group module with
  | none => atlas
  | some owner => atlas.nested owner [module]

def joined (atlas : Atlas) (group : GroupId) (home : Group) (module : Module) : Atlas :=
  let grown := (atlas.addModule module).addMember group module.id
  let named :=
    if home.name = module.name then grown.appointed group (home.members ++ [module.id]) module.id
    else grown
  named.settled group module.id

def importing (atlas : Atlas) (module : ModuleId) (imports : List ModuleId) : Atlas :=
  atlas.withHierarchy .importation (atlas.importation.run (Hierarchy.fan module imports))

/-! ## Plans of operations -/

def planProject (atlas : Atlas) (name : String) : Except Fault (ProjectId × Atlas) := do
  let id ← Handle.next .project atlas.projects.length
  return (id, { atlas with projects := atlas.projects ++ [{ id, name }] })

def planGroup (atlas : Atlas) (project : ProjectId) (parent : Option GroupId) (name : String) :
    Except Fault (GroupId × Atlas) := do
  let _ ← atlas.findProject project
  if let some parent := parent then
    let _ ← atlas.findGroup parent
  let id ← Handle.next .group atlas.groups.length
  return (id, atlas.addGroup { id, name, project, parent })

def planLoose (atlas : Atlas) (name : String) (location : Location) (fictive : Bool) :
    Except Fault (ModuleId × Atlas) := do
  let id ← Handle.next .module atlas.modules.length
  return (id, atlas.addModule { id, name, fullName := name, location, group := none, fictive })

def planMember (atlas : Atlas) (group : GroupId) (name : String) (location : Location) :
    Except Fault (ModuleId × Atlas) := do
  let id ← Handle.next .module atlas.modules.length
  let home ← atlas.findGroup group
  let project ← atlas.findProject home.project
  if home.name = name then
    if let some existing := home.defaultModule then
      throw (Loading.defaultFault atlas home existing name)
  let fullName := Module.qualified project.name name
  return (id, atlas.joined group home { id, name, fullName, location, group := some group })

def planDefault (atlas : Atlas) (group : GroupId) (module : ModuleId) :
    Except Fault (Unit × Atlas) := do
  let candidate ← atlas.findModule module
  let home ← atlas.findGroup group
  if !home.members.contains module then
    throw (.notMember home.name candidate.fullName)
  match home.defaultModule with
  | none => return ((), atlas.appointed group home.members module)
  | some existing =>
    if existing ≠ module then
      throw (Loading.defaultFault atlas home existing candidate.name)
    else
      return ((), atlas)

def planImports (atlas : Atlas) (module : ModuleId) (imports : List ModuleId) :
    Except Fault (Unit × Atlas) := do
  let importer ← atlas.findModule module
  let entry ← atlas.entry .importation module
  if !entry.directBelow.isEmpty then
    throw (.importsAlreadySet importer.fullName)
  let _ ← atlas.checkImports module imports
  return ((), atlas.importing module imports)

def planVisibility (atlas : Atlas) (module target : ModuleId) (level : Visibility) :
    Except Fault (Unit × Atlas) := do
  let importer ← atlas.findModule module
  let imported ← atlas.findModule target
  if level = .none then
    throw (.invalidVisibility importer.fullName imported.fullName level)
  if atlas.settings.strictOrdering && !atlas.importation.hasDirectEdge module target then
    throw (.missingImport importer.fullName imported.fullName)
  if atlas.settings.strictOrdering && !atlas.isVisibilityFinal target then
    throw (.premature importer.fullName imported.fullName)
  return ((), atlas.updateModule module fun _ => importer.absorbing target level imported.scope)

def planAttachment (atlas : Atlas) (module : ModuleId) (attachment : Module → Module) :
    Except Fault (Unit × Atlas) := do
  let _ ← atlas.findModule module
  return ((), atlas.updateModule module attachment)

end Atlas

namespace Loading

variable {α β γ : Type}

/-- An operation comes to what was planned, and a plan that fails leaves the atlas alone. -/
def Follows (operation : Loading α) (atlas : Atlas) (plan : Except Fault (α × Atlas)) : Prop :=
  match plan with
  | .ok (value, next) => Yields operation atlas (.ok value) next
  | .error fault => Yields operation atlas (.error fault) atlas

namespace Follows

variable {atlas : Atlas}

/-- Looking something up in an operation is checking it in its plan. -/
theorem look {query : Atlas → Except Fault α} {next : α → Loading β}
    {plan : α → Except Fault (β × Atlas)}
    (rest : ∀ value, query atlas = .ok value → Follows (next value) atlas (plan value)) :
    Follows (Loading.look query >>= next) atlas (query atlas >>= plan) := by
  cases found : query atlas with
  | error fault => exact Yields.fail (Yields.look found)
  | ok value =>
    have follows := rest value found
    change Follows _ atlas (plan value)
    cases planned : plan value with
    | error fault =>
      rw [planned] at follows
      exact Yields.bind (Yields.look found) follows
    | ok result =>
      rw [planned] at follows
      exact Yields.bind (Yields.look found) follows

/-- A guard of an operation is a guard of its plan, which may test the same in another way. -/
theorem guard {condition test : Prop} [Decidable condition] [Decidable test] {fault : Fault}
    {next : PUnit → Loading β} {plan : PUnit → Except Fault (β × Atlas)} (same : condition ↔ test)
    (rest : ¬ condition → Follows (next ⟨⟩) atlas (plan ⟨⟩)) :
    Follows (if condition then throw fault >>= next else next ⟨⟩) atlas
      (if test then throw fault >>= plan else plan ⟨⟩) := by
  by_cases holds : condition
  · rw [if_pos holds, if_pos (same.1 holds)]
    exact Yields.fail (Yields.throw fault atlas)
  · rw [if_neg holds, if_neg (mt same.2 holds)]
    exact rest holds

/-- A part that leaves the atlas alone need not occur in the plan. -/
theorem after {operation : Loading α} {value : α} {next : α → Loading β}
    {plan : Except Fault (β × Atlas)} (first : Yields operation atlas (.ok value) atlas)
    (rest : Follows (next value) atlas plan) : Follows (operation >>= next) atlas plan := by
  cases plan with
  | ok result => exact Yields.bind first rest
  | error fault => exact Yields.bind first rest

/-- What comes out of order is refused under strict ordering and noted otherwise. -/
theorem outOfOrder {condition : Bool} {fault : Fault} {next : PUnit → Loading β}
    {plan : PUnit → Except Fault (β × Atlas)} (rest : Follows (next ⟨⟩) atlas (plan ⟨⟩)) :
    Follows (if condition then Loading.outOfOrder fault >>= next else next ⟨⟩) atlas
      (if atlas.settings.strictOrdering && condition then throw fault >>= plan else plan ⟨⟩) := by
  cases condition with
  | false =>
    rw [Bool.and_false]
    exact rest
  | true =>
    rw [Bool.and_true, if_pos rfl]
    by_cases strict : atlas.settings.strictOrdering
    · rw [if_pos strict]
      refine Yields.fail (Yields.bind (Yields.current atlas) ?_)
      rw [if_pos strict]
      exact Yields.throw fault atlas
    · rw [if_neg strict]
      refine Follows.after (Yields.bind (Yields.current atlas) ?_) rest
      rw [if_neg strict]
      exact Yields.emit _ atlas

theorem map_reported {operation : Loading α} {plan : Except Fault (α × Atlas)} (f : α → β)
    (follows : Follows operation atlas plan) :
    Follows (f <$> reported operation) atlas (plan.map fun result => (f result.1, result.2)) := by
  cases plan with
  | ok result => exact Yields.map f (Yields.reported follows)
  | error fault => exact Yields.map f (Yields.reported follows)

theorem map {operation : Loading α} {plan : Except Fault (α × Atlas)} (f : α → β)
    (follows : Follows operation atlas plan) :
    Follows (f <$> operation) atlas (plan.map fun result => (f result.1, result.2)) := by
  cases plan with
  | ok result => exact Yields.map f follows
  | error fault => exact Yields.map f follows

end Follows

/-! ## Projects, groups and modules outside all groups -/

theorem createProject_follows (atlas : Atlas) (name : String) :
    Follows (createProject name) atlas (atlas.planProject name) := by
  refine Follows.look fun id _ => ?_
  exact Yields.bind (Yields.change _ atlas) (Yields.pure id _)

theorem createGroup_follows (atlas : Atlas) (project : ProjectId) (parent : Option GroupId)
    (name : String) :
    Follows (createGroup project parent name) atlas (atlas.planGroup project parent name) := by
  refine Follows.look fun _ _ => ?_
  cases parent with
  | none =>
    refine Follows.look fun id _ => ?_
    exact Yields.bind (Yields.change _ atlas) (Yields.pure id _)
  | some parent =>
    refine Follows.look fun _ _ => ?_
    refine Follows.look fun id _ => ?_
    exact Yields.bind (Yields.change _ atlas) (Yields.pure id _)

theorem createLoose_follows (atlas : Atlas) (name : String) (location : Location)
    (fictive : Bool) :
    Follows (createLoose name location fictive) atlas (atlas.planLoose name location fictive) := by
  refine Follows.look fun id _ => ?_
  exact Yields.bind (Yields.change _ atlas) (Yields.pure id _)

/-! ## Members and default modules -/

theorem findProject_eq_ok_iff {atlas : Atlas} {id : ProjectId} {project : Project} :
    atlas.findProject id = .ok project ↔ atlas.project? id = some project := by
  unfold Atlas.findProject
  cases atlas.project? id with
  | none => simp
  | some other => simp

theorem findGroup_eq_ok_iff {atlas : Atlas} {id : GroupId} {home : Group} :
    atlas.findGroup id = .ok home ↔ atlas.group? id = some home := by
  unfold Atlas.findGroup
  cases atlas.group? id with
  | none => simp
  | some other => simp

theorem findModule_eq_ok_iff {atlas : Atlas} {id : ModuleId} {entity : Module} :
    atlas.findModule id = .ok entity ↔ atlas.module? id = some entity := by
  unfold Atlas.findModule
  cases atlas.module? id with
  | none => simp
  | some other => simp

theorem adopt_yields {atlas : Atlas} {owner member : ModuleId} {next : Hierarchy ModuleId}
    (accepted : (atlas.hierarchy .nesting).relate owner member = .ok next) :
    Yields (adopt owner member) atlas (.ok ()) (atlas.withHierarchy .nesting next) :=
  .bind (link_yields accepted) (.bind (.current _) (.emit _ _))

/-- A default module adopts all other members of its group. -/
theorem adoptMembers_yields {atlas : Atlas} (wellFormed : atlas.WellFormed) {group : GroupId}
    {home : Group} {owner : ModuleId} (found : atlas.group? group = some home)
    (stands : home.defaultModule = some owner) :
    Yields (adoptMembers group owner) atlas (.ok ())
      (atlas.nested owner (home.members.filter fun member => member ≠ owner)) := by
  have standsFor : atlas.StandsFor owner group := ⟨home, found, stands⟩
  have known : (atlas.hierarchy .nesting).contains owner :=
    wellFormed.contains_of_home (wellFormed.home_of_standsFor standsFor)
  refine .bind (.look (findGroup_eq_ok_iff.2 found)) ?_
  apply links_yield adopt_yields (wellFormed.closed .nesting)
  exact wellFormed.extendable_nesting known (wellFormed.mayOwn_others found stands)

/-- After a member was let stand for a group, the group is found with the same members. -/
theorem group?_designate_self {atlas : Atlas} {group : GroupId} {home : Group} (owner : ModuleId)
    (found : atlas.group? group = some home) :
    (atlas.designate group owner).group? group =
      some { home with defaultModule := some owner } := by
  rw [Atlas.group?_designate, found, Option.map_some, if_pos rfl]

theorem appoint_yields {atlas : Atlas} (wellFormed : atlas.WellFormed) {group : GroupId}
    {home : Group} {owner : ModuleId} (found : atlas.group? group = some home)
    (vacant : home.defaultModule = none) (member : owner ∈ home.members) :
    Yields (appoint group owner) atlas (.ok ()) (atlas.appointed group home.members owner) := by
  have designated := Atlas.wellFormed_designate wellFormed found vacant member
  have foundAfter := group?_designate_self owner found
  have adopts := adoptMembers_yields designated foundAfter rfl
  exact .bind (.change _ atlas) adopts

theorem nest_yields {atlas : Atlas} (wellFormed : atlas.WellFormed) {group : GroupId}
    {module : ModuleId} (home : atlas.Home module group) :
    Yields (nest group module) atlas (.ok ()) (atlas.settled group module) := by
  refine .bind (.current atlas) ?_
  unfold Atlas.settled
  cases found : atlas.ownerIn group module with
  | none => exact .pure () atlas
  | some owner =>
    obtain ⟨⟨upper, stands⟩, mayOwn⟩ := Atlas.mayOwn_of_ownerIn home found
    have known : (atlas.hierarchy .nesting).contains owner :=
      wellFormed.contains_of_home (wellFormed.home_of_standsFor stands)
    have extendable : atlas.nesting.Extendable owner [module] :=
      wellFormed.extendable_nesting known (List.forall_mem_singleton.2 mayOwn)
    obtain ⟨next, accepted, _⟩ := extendable.step (wellFormed.closed .nesting)
    have single : atlas.nesting.run (Hierarchy.fan owner [module]) = next :=
      Hierarchy.run_fan_cons accepted
    simp only [Atlas.nested, single]
    exact .bind (link_yields accepted) (.bind (.current _) (.emit _ _))

theorem wellFormed_appointed {atlas : Atlas} (wellFormed : atlas.WellFormed) {group : GroupId}
    {home : Group} {owner : ModuleId} (found : atlas.group? group = some home)
    (vacant : home.defaultModule = none) (member : owner ∈ home.members) :
    (atlas.appointed group home.members owner).WellFormed := by
  have designated := Atlas.wellFormed_designate wellFormed found vacant member
  have foundAfter := group?_designate_self owner found
  have own := designated.mayOwn_others foundAfter rfl
  exact Atlas.wellFormed_nest designated own

theorem wellFormed_settled {atlas : Atlas} (wellFormed : atlas.WellFormed) {group : GroupId}
    {module : ModuleId} (home : atlas.Home module group) :
    (atlas.settled group module).WellFormed := by
  unfold Atlas.settled
  cases found : atlas.ownerIn group module with
  | none => exact wellFormed
  | some owner =>
    have own := (Atlas.mayOwn_of_ownerIn home found).2
    exact Atlas.wellFormed_nest wellFormed (List.forall_mem_singleton.2 own)

theorem next_eq_ok {kind : Kind} {position : Nat} {id : Handle kind}
    (next : Handle.next kind position = .ok id) : id = ⟨position⟩ := by
  unfold Handle.next at next
  split at next
  · exact (Except.ok.inj next).symm
  · cases next

section Joining

variable {atlas : Atlas} {group : GroupId} {home : Group} {module : Module}

theorem home_grown (next : module.id = ⟨atlas.modules.length⟩)
    (isGroup : module.group = some group) :
    ((atlas.addModule module).addMember group module.id).Home module.id group := by
  have new : (atlas.addModule module).module? module.id = some module := by
    rw [next]
    exact Atlas.module?_addModule_new atlas module
  exact ⟨module, new, isGroup⟩

theorem group?_grown (found : atlas.group? group = some home) :
    ((atlas.addModule module).addMember group module.id).group? group =
      some { home with members := home.members ++ [module.id] } := by
  have same : (atlas.addModule module).group? group = some home := found
  rw [Atlas.group?_addMember, same, Option.map_some, if_pos rfl]

theorem wellFormed_grown (wellFormed : atlas.WellFormed)
    (next : module.id = ⟨atlas.modules.length⟩) (isGroup : module.group = some group) :
    ((atlas.addModule module).addMember group module.id).WellFormed :=
  Atlas.wellFormed_addMember (Atlas.wellFormed_addModule wellFormed next)
    (home_grown next isGroup)

theorem joined_named (named : home.name = module.name) :
    atlas.joined group home module =
      (((atlas.addModule module).addMember group module.id).appointed group
        (home.members ++ [module.id]) module.id).settled group module.id := by
  unfold Atlas.joined
  dsimp only
  rw [if_pos named]

theorem joined_unnamed (unnamed : home.name ≠ module.name) :
    atlas.joined group home module =
      ((atlas.addModule module).addMember group module.id).settled group module.id := by
  unfold Atlas.joined
  dsimp only
  rw [if_neg unnamed]

theorem wellFormed_joined (wellFormed : atlas.WellFormed) (found : atlas.group? group = some home)
    (next : module.id = ⟨atlas.modules.length⟩) (isGroup : module.group = some group)
    (free : home.name = module.name → home.defaultModule = none) :
    (atlas.joined group home module).WellFormed := by
  have grown := wellFormed_grown wellFormed next isGroup
  by_cases named : home.name = module.name
  · have member : module.id ∈ home.members ++ [module.id] :=
      List.mem_append_right _ (List.mem_singleton.2 rfl)
    have appointed := wellFormed_appointed grown (group?_grown found) (free named) member
    rw [joined_named named]
    exact wellFormed_settled appointed (home_grown next isGroup)
  · rw [joined_unnamed named]
    exact wellFormed_settled grown (home_grown next isGroup)

end Joining

theorem createMember_follows {atlas : Atlas} (wellFormed : atlas.WellFormed) (group : GroupId)
    (name : String) (location : Location) :
    Follows (createMember group name location) atlas (atlas.planMember group name location) := by
  refine Follows.look fun id isNext => ?_
  refine Follows.look fun home isHome => ?_
  refine Follows.look fun project _ => ?_
  have found := findGroup_eq_ok_iff.1 isHome
  have next := next_eq_ok isNext
  let module : Module :=
    { id, name, fullName := Module.qualified project.name name, location, group := some group }
  have grown : ((atlas.addModule module).addMember group module.id).WellFormed :=
    wellFormed_grown wellFormed next rfl
  have home_id : ((atlas.addModule module).addMember group module.id).Home module.id group :=
    home_grown next rfl
  dsimp only
  by_cases named : home.name = name
  · simp only [if_pos named]
    cases stands : home.defaultModule with
    | some existing =>
      apply Yields.bind (Yields.current atlas)
      exact Yields.fail (Yields.throw _ atlas)
    | none =>
      have member : module.id ∈ home.members ++ [module.id] :=
        List.mem_append_right _ (List.mem_singleton.2 rfl)
      have appoints := appoint_yields grown (group?_grown found) stands member
      have appointed := wellFormed_appointed grown (group?_grown found) stands member
      have nests := nest_yields appointed home_id
      change Follows _ atlas (.ok (module.id, atlas.joined group home module))
      rw [joined_named named]
      apply Yields.bind (Yields.change _ atlas)
      apply Yields.bind (Yields.change _ (atlas.addModule module))
      exact Yields.bind appoints (Yields.bind nests (Yields.pure id _))
  · simp only [if_neg named]
    have nests := nest_yields grown home_id
    change Follows _ atlas (.ok (module.id, atlas.joined group home module))
    rw [joined_unnamed named]
    apply Yields.bind (Yields.change _ atlas)
    apply Yields.bind (Yields.change _ (atlas.addModule module))
    exact Yields.bind nests (Yields.pure id _)

theorem setDefault_follows {atlas : Atlas} (wellFormed : atlas.WellFormed) (group : GroupId)
    (module : ModuleId) :
    Follows (setDefault group module) atlas (atlas.planDefault group module) := by
  refine Follows.look fun candidate _ => ?_
  refine Follows.look fun home isHome => ?_
  have found := findGroup_eq_ok_iff.1 isHome
  refine Follows.guard (by simp) fun member => ?_
  have member := Decidable.not_not.1 member
  dsimp only
  cases stands : home.defaultModule with
  | none => exact appoint_yields wellFormed found stands member
  | some existing =>
    dsimp only
    by_cases other : existing ≠ module
    · rw [if_pos other, if_pos other]
      exact Yields.bind (Yields.current atlas) (Yields.throw _ atlas)
    · rw [if_neg other, if_neg other]
      exact Yields.pure () atlas

/-! ## Imports and levels -/

theorem checkImports_eq_ok_iff {atlas : Atlas} {module : ModuleId} {imports : List ModuleId} :
    atlas.checkImports module imports = .ok () ↔
      ∀ imported ∈ imports, atlas.checkImport module imported = .ok () := by
  unfold Atlas.checkImports
  induction imports with
  | nil => simp [pure, Except.pure]
  | cons imported rest ih =>
    rw [List.forM_eq_forM] at ih ⊢
    rw [List.forM_cons, List.forall_mem_cons, ← ih]
    cases atlas.checkImport module imported with
    | ok value => simp [bind, Except.bind]
    | error fault => simp [bind, Except.bind]

theorem checkImport_eq_ok_iff {atlas : Atlas} {module imported : ModuleId} :
    atlas.checkImport module imported = .ok () ↔
      (∃ entity, atlas.module? imported = some entity) ∧
        atlas.wouldCycle module imported = false := by
  unfold Atlas.checkImport Atlas.findModule
  cases atlas.module? imported with
  | none => simp [bind, Except.bind]
  | some entity =>
    cases atlas.wouldCycle module imported with
    | true => simp [bind, Except.bind, throw, throwThe, MonadExceptOf.throw]
    | false => simp [bind, Except.bind, pure, Except.pure]

/-- Imports that pass the checks are accepted edge by edge. -/
theorem extendable_imports {atlas : Atlas} (wellFormed : atlas.WellFormed) {module : ModuleId}
    {importer : Module} (known : atlas.module? module = some importer) {imports : List ModuleId}
    (checked : atlas.checkImports module imports = .ok ()) :
    (atlas.hierarchy .importation).Extendable module imports := by
  have each := checkImports_eq_ok_iff.1 checked
  refine ⟨wellFormed.contains_iff_known.2 ⟨importer, known⟩, ?_, ?_⟩
  · intro imported listed
    exact wellFormed.contains_iff_known.2 (checkImport_eq_ok_iff.1 (each imported listed)).1
  · intro looked imported listed
    rw [wellFormed.checked] at looked
    have harmless := (checkImport_eq_ok_iff.1 (each imported listed)).2
    simp only [Atlas.wouldCycle, looked, Bool.true_and, Bool.or_eq_false_iff,
      decide_eq_false_iff_not] at harmless
    refine ⟨harmless.1, fun path => ?_⟩
    have back := (wellFormed.closed .importation).gt_iff_path.2 path
    exact Bool.false_ne_true (harmless.2.symm.trans back)

theorem setImports_follows {atlas : Atlas} (wellFormed : atlas.WellFormed) (module : ModuleId)
    (imports : List ModuleId) :
    Follows (setImports module imports) atlas (atlas.planImports module imports) := by
  refine Follows.look fun importer isImporter => ?_
  have known := findModule_eq_ok_iff.1 isImporter
  refine Follows.look fun entry _ => ?_
  refine Follows.guard Iff.rfl fun _ => ?_
  refine Follows.look fun _ checked => ?_
  have extendable := extendable_imports wellFormed known checked
  have wired := links_yield link_yields (wellFormed.closed .importation) extendable
  exact Yields.bind wired (Yields.emit _ _)

theorem setVisibility_follows (atlas : Atlas) (module target : ModuleId) (level : Visibility) :
    Follows (setVisibility module target level) atlas
      (atlas.planVisibility module target level) := by
  refine Follows.look fun importer _ => ?_
  refine Follows.look fun imported _ => ?_
  refine Follows.guard Iff.rfl fun _ => ?_
  apply Follows.after (Yields.current atlas)
  refine Follows.outOfOrder (Follows.outOfOrder ?_)
  exact Yields.bind (Yields.change _ atlas) (Yields.emit _ _)

theorem attach_follows (atlas : Atlas) (module : ModuleId) (attachment : Module → Module) :
    Follows (attach module attachment) atlas (atlas.planAttachment module attachment) := by
  refine Follows.look fun _ _ => ?_
  exact Yields.change _ atlas

end Loading

end ModuleAtlas
