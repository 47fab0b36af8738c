import ModuleAtlas.Proofs.Layers

/-!
# Arenas

Projects, groups and modules are only ever added behind those that there are already, so the handle
of an entity is its position and a list of entities in the order of their creation is one with
ascending handles.  What a command does to the arenas is one of six things.
-/

namespace ModuleAtlas

/-! ## Handles as positions -/

/-- Every item of a list is where its handle points to. -/
def Numbered {α : Type} {kind : Kind} (handle : α → Handle kind) (items : List α) : Prop :=
  ∀ index item, items[index]? = some item → handle item = ⟨index⟩

namespace Numbered

variable {α : Type} {kind : Kind} {handle : α → Handle kind} {items : List α}

/-- The handles of numbered items are all handles up to the number of items, in order. -/
theorem map_eq (numbered : Numbered handle items) :
    items.map handle = (List.range items.length).map Handle.mk := by
  refine List.ext_getElem (by simp) fun index inside _ => ?_
  have inside : index < items.length := by simpa using inside
  rw [List.getElem_map, List.getElem_map, List.getElem_range]
  exact numbered index _ (List.getElem?_eq_getElem inside)

/-- The handles of items that meet a condition are the positions of such items. -/
theorem mem_map_filter (numbered : Numbered handle items) {condition : α → Bool}
    {id : Handle kind} :
    id ∈ (items.filter condition).map handle ↔
      ∃ item, items[id.index]? = some item ∧ condition item := by
  constructor
  · intro listed
    obtain ⟨item, member, rfl⟩ := List.mem_map.1 listed
    obtain ⟨present, holds⟩ := List.mem_filter.1 member
    obtain ⟨index, found⟩ := List.mem_iff_getElem?.1 present
    refine ⟨item, ?_, holds⟩
    rw [numbered index item found]
    exact found
  · rintro ⟨item, found, holds⟩
    have present := List.mem_of_getElem? found
    exact List.mem_map.2 ⟨item, List.mem_filter.2 ⟨present, holds⟩, numbered _ item found⟩

/-- Items are in the order of their handles. -/
theorem pairwise_map_filter (numbered : Numbered handle items) (condition : α → Bool) :
    ((items.filter condition).map handle).Pairwise (· < ·) := by
  have whole : (items.map handle).Pairwise (· < ·) := by
    rw [numbered.map_eq, List.pairwise_map]
    exact List.pairwise_lt_range
  exact whole.sublist (List.filter_sublist.map handle)

theorem concat (numbered : Numbered handle items) {item : α}
    (next : handle item = ⟨items.length⟩) : Numbered handle (items ++ [item]) := by
  intro index found present
  rcases Atlas.getElem?_concat_cases present with known | ⟨rfl, rfl⟩
  · exact numbered index found known
  · exact next

end Numbered

/-- A list in the order of its handles contains each of them once and no other one. -/
theorem count_of_pairwise_lt {kind : Kind} {handles : List (Handle kind)}
    (ascending : handles.Pairwise (· < ·)) {id : Handle kind} {belongs : Prop}
    (listed : id ∈ handles ↔ belongs) :
    (belongs → handles.count id = 1) ∧ (¬ belongs → handles.count id = 0) := by
  have different {left right : Handle kind} (less : left < right) : left ≠ right := by
    rintro rfl
    exact Nat.lt_irrefl _ less
  constructor
  · exact fun holds => List.count_eq_one_of_mem (ascending.imp different) (listed.2 holds)
  · exact fun fails => List.count_eq_zero_of_not_mem (mt listed.1 fails)

/-- The first of a list in the order of its handles is the least of them. -/
theorem head?_eq_some_iff_of_pairwise_lt {kind : Kind} {handles : List (Handle kind)}
    (ascending : handles.Pairwise (· < ·)) {id : Handle kind} :
    handles.head? = some id ↔ id ∈ handles ∧ ∀ other ∈ handles, id ≤ other := by
  cases handles with
  | nil => simp
  | cons first rest =>
    have behind := (List.pairwise_cons.1 ascending).1
    rw [List.head?_cons, Option.some.injEq]
    constructor
    · rintro rfl
      refine ⟨List.mem_cons_self, List.forall_mem_cons.2 ⟨Nat.le_refl _, ?_⟩⟩
      exact fun other later => Nat.le_of_lt (behind other later)
    · rintro ⟨listed, least⟩
      rcases List.mem_cons.1 listed with same | later
      · exact same.symm
      · have atMost := least first List.mem_cons_self
        exact absurd (behind id later) (Nat.not_lt_of_le atMost)

/-- A condition that holds of an item exactly if it holds of its outline selects by outlines. -/
theorem map_filter_outline {α β : Type} {outline : α → α} {condition : α → Bool} {handle : α → β}
    (created : ∀ item, condition (outline item) = condition item)
    (kept : ∀ item, handle (outline item) = handle item) (items : List α) :
    ((items.map outline).filter condition).map handle = (items.filter condition).map handle := by
  rw [List.filter_map, List.map_map]
  simp only [Function.comp_def, created, kept]

theorem map_filter_concat {α β : Type} (condition : α → Bool) (handle : α → β) (items : List α)
    (item : α) :
    ((items ++ [item]).filter condition).map handle =
      (items.filter condition).map handle ++ if condition item then [handle item] else [] := by
  rw [List.filter_append, List.map_append]
  cases holds : condition item with
  | false => simp [holds]
  | true => simp [holds]

/-- A group as it was created, without what was noted in it later. -/
def Group.outline (group : Group) : Group where
  id := group.id
  name := group.name
  project := group.project
  parent := group.parent

namespace Group

variable {left right : Group}

theorem project_of_outline (same : right.outline = left.outline) :
    right.project = left.project := by
  have projects := congrArg project same
  exact projects

theorem parent_of_outline (same : right.outline = left.outline) : right.parent = left.parent := by
  have parents := congrArg parent same
  exact parents

end Group

namespace Atlas

/-! ## Selections -/

def groupsWhere (atlas : Atlas) (condition : Group → Bool) : List GroupId :=
  (atlas.groups.filter condition).map Group.id

def modulesWhere (atlas : Atlas) (condition : Module → Bool) : List ModuleId :=
  (atlas.modules.filter condition).map Module.id

section Selections

variable {before after : Atlas}

/-- Conditions on how groups were created select the same groups if the same ones were created. -/
theorem groupsWhere_congr {condition : Group → Bool}
    (created : ∀ group : Group, condition group.outline = condition group)
    (same : after.groups.map Group.outline = before.groups.map Group.outline) :
    after.groupsWhere condition = before.groupsWhere condition := by
  rw [groupsWhere, groupsWhere, ← map_filter_outline created fun _ => rfl, same,
    map_filter_outline created fun _ => rfl]

theorem modulesWhere_congr {condition : Module → Bool}
    (created : ∀ module : Module, condition module.outline = condition module)
    (same : after.modules.map Module.outline = before.modules.map Module.outline) :
    after.modulesWhere condition = before.modulesWhere condition := by
  rw [modulesWhere, modulesWhere, ← map_filter_outline created fun _ => rfl, same,
    map_filter_outline created fun _ => rfl]

/-- A new group is selected behind the others if it meets the condition. -/
theorem groupsWhere_concat {condition : Group → Bool} {group : Group}
    (created : ∀ group : Group, condition group.outline = condition group)
    (grown : after.groups.map Group.outline = (before.groups ++ [group]).map Group.outline) :
    after.groupsWhere condition =
      before.groupsWhere condition ++ if condition group then [group.id] else [] := by
  rw [groupsWhere, groupsWhere, ← map_filter_outline created fun _ => rfl, grown,
    map_filter_outline created fun _ => rfl, map_filter_concat]

theorem modulesWhere_concat {condition : Module → Bool} {module : Module}
    (grown : after.modules = before.modules ++ [module]) :
    after.modulesWhere condition =
      before.modulesWhere condition ++ if condition module then [module.id] else [] := by
  rw [modulesWhere, modulesWhere, grown, map_filter_concat]

/-- Changes that keep what groups were created with keep their outlines. -/
theorem outlines_of_group? {change : GroupId → Group → Group}
    (found : ∀ id, after.group? id = (before.group? id).map (change id))
    (created : ∀ id group, (change id group).outline = group.outline) :
    after.groups.map Group.outline = before.groups.map Group.outline := by
  apply List.ext_getElem?
  intro index
  have changed := congrArg (Option.map Group.outline) (found ⟨index⟩)
  rw [Option.map_map, Function.comp_def] at changed
  simp only [created] at changed
  rw [List.getElem?_map, List.getElem?_map]
  exact changed

end Selections

/-! ## Growth of the arenas -/

theorem outlines_addGroup (atlas : Atlas) (group : Group) :
    (atlas.addGroup group).groups.map Group.outline =
      (atlas.groups ++ [group]).map Group.outline := by
  let grown : Atlas := { atlas with groups := atlas.groups ++ [group] }
  have noted (id : GroupId) : (atlas.addGroup group).group? id = (grown.group? id).map
      fun entity =>
        if group.parent = some id then { entity with children := entity.children ++ [group.id] }
        else entity := group?_addGroup atlas group id
  have kept : (atlas.addGroup group).groups.map Group.outline = grown.groups.map Group.outline := by
    refine outlines_of_group? noted fun id entity => ?_
    split <;> rfl
  exact kept

theorem group?_settled (atlas : Atlas) (group id : GroupId) (module : ModuleId) :
    (atlas.settled group module).group? id = atlas.group? id := by
  rw [Atlas.group?, Atlas.group?, groups_settled]

/-- A new member is noted by its group, which it stands for if it is named like it. -/
theorem group?_joined (atlas : Atlas) (group id : GroupId) (home : Group) (module : Module) :
    (atlas.joined group home module).group? id = (atlas.group? id).map fun entity =>
      if group = id then
        { entity with
          members := entity.members ++ [module.id]
          defaultModule :=
            if home.name = module.name then some module.id else entity.defaultModule }
      else entity := by
  have grown : ((atlas.addModule module).addMember group module.id).group? id =
      (atlas.group? id).map fun entity =>
        if group = id then { entity with members := entity.members ++ [module.id] } else entity :=
    group?_addMember (atlas.addModule module) group id module.id
  by_cases named : home.name = module.name
  · have designated := group?_designate ((atlas.addModule module).addMember group module.id)
      group id module.id
    rw [Loading.joined_named named, group?_settled]
    refine designated.trans ?_
    rw [grown, Option.map_map]
    congr 1
    funext entity
    by_cases same : group = id
    · simp only [Function.comp_apply, if_pos same, if_pos named]
    · simp only [Function.comp_apply, if_neg same]
  · rw [Loading.joined_unnamed named, group?_settled, grown]
    simp only [if_neg named]

theorem projects_settled (atlas : Atlas) (group : GroupId) (module : ModuleId) :
    (atlas.settled group module).projects = atlas.projects := by
  unfold settled
  split <;> rfl

theorem projects_joined (atlas : Atlas) (group : GroupId) (home : Group) (module : Module) :
    (atlas.joined group home module).projects = atlas.projects := by
  by_cases named : home.name = module.name
  · rw [Loading.joined_named named, projects_settled]
    rfl
  · rw [Loading.joined_unnamed named, projects_settled]
    rfl

/-! ## What commands do to the arenas -/

/--
What comes of a command: nothing new in any arena, a new project, a new group, a new module inside
or outside all groups, or a member that stands for its group.
-/
inductive Populates (before : Atlas) : Command → Atlas → Prop where
  | steady {command : Command} {after : Atlas} (alike : Alike False before after) :
      Populates before command after
  | project (name : String) :
      Populates before (.createProject name)
        { before with projects := before.projects ++ [{ id := ⟨before.projects.length⟩, name }] }
  | group {project : ProjectId} {parent : Option GroupId} (name : String)
      (projectKnown : (before.project? project).isSome)
      (parentKnown : ∀ upper, parent = some upper → before.Knows upper) :
      Populates before (.createGroup project parent name)
        (before.addGroup { id := ⟨before.groups.length⟩, name, project, parent })
  | loose {command : Command} (name : String) (location : Location) (fictive : Bool) :
      Populates before command
        (before.addModule
          { id := ⟨before.modules.length⟩, name, fullName := name, location, group := none,
            fictive })
  | member {group : GroupId} {home : Group} {project : Project} (name : String)
      (location : Location) (found : before.group? group = some home)
      (inProject : before.project? home.project = some project)
      (free : home.name = name → home.defaultModule = none) :
      Populates before (.createModule (some group) name location)
        (before.joined group home
          { id := ⟨before.modules.length⟩, name, fullName := Module.qualified project.name name,
            location, group := some group })
  | appointed {group : GroupId} {home : Group} {owner : ModuleId}
      (found : before.group? group = some home) (vacant : home.defaultModule = none)
      (member : owner ∈ home.members) :
      Populates before (.setDefault group owner) (before.appointed group home.members owner)

theorem populates_of_plan {atlas next : Atlas} {command : Command}
    (constructs : command.isConstruction) {answer : Answer}
    (planned : atlas.plan command = .ok (answer, next)) : Populates atlas command next := by
  cases step_of_plan planned with
  | project name => exact .project name
  | group name projectKnown parentKnown =>
    exact .group name (Option.isSome_iff_exists.2 projectKnown) parentKnown
  | loose name location fictive => exact .loose name location fictive
  | member name location found inProject free => exact .member name location found inProject free
  | appointed found vacant member => exact .appointed found vacant member
  | confirmed => exact .steady (.refl False _)
  | importing wires =>
    rw [wires (Command.isSingle_of_isConstruction constructs)] at constructs
    cases constructs
  | absorbing known => cases constructs
  | attached module => exact .steady (Alike.updateModule False module fun _ _ => rfl)

/-- Every command does one of these things, refused or not. -/
theorem populates_perform {atlas : Atlas} (wellFormed : atlas.WellFormed) (command : Command) :
    Populates atlas command (atlas.perform command).atlas := by
  by_cases constructs : command.isConstruction
  · have single := Command.isSingle_of_isConstruction constructs
    exact perform_of_plan wellFormed single (.steady (.refl False atlas))
      fun _ _ planned => populates_of_plan constructs planned
  · exact .steady (alike_perform_of_upper wellFormed constructs)

/-! ## What stays of groups and projects -/

namespace Populates

variable {before after : Atlas} {command : Command}

/-- A group stays as it was created. -/
theorem group? (populates : Populates before command after) {id : GroupId} {group : Group}
    (known : before.group? id = some group) :
    ∃ later, after.group? id = some later ∧ later.outline = group.outline := by
  cases populates with
  | steady alike => exact ⟨group, (alike.group? id).trans known, rfl⟩
  | project name => exact ⟨group, known, rfl⟩
  | group name projectKnown parentKnown =>
    obtain ⟨children, found⟩ := group?_addGroup_of_some known _
    exact ⟨_, found, rfl⟩
  | loose name location fictive => exact ⟨group, known, rfl⟩
  | @member place home project name location found inProject free =>
    rw [group?_joined, known]
    refine ⟨_, rfl, ?_⟩
    split <;> rfl
  | @appointed place home owner found vacant member =>
    have designated := group?_designate before place id owner
    rw [known] at designated
    refine ⟨_, designated, ?_⟩
    split <;> rfl

/-- A project keeps its name. -/
theorem project? (populates : Populates before command after) {id : ProjectId} {project : Project}
    (known : before.project? id = some project) :
    ∃ later, after.project? id = some later ∧ later.name = project.name := by
  cases populates with
  | steady alike =>
    refine ⟨project, ?_, rfl⟩
    rw [Atlas.project?, alike.projects]
    exact known
  | project name => exact ⟨project, getElem?_concat_of_some known _, rfl⟩
  | group name projectKnown parentKnown =>
    rw [project?_addGroup, known]
    refine ⟨_, rfl, ?_⟩
    split <;> rfl
  | loose name location fictive => exact ⟨project, known, rfl⟩
  | member name location found inProject free =>
    refine ⟨project, ?_, rfl⟩
    rw [Atlas.project?, projects_joined]
    exact known
  | appointed found vacant member => exact ⟨project, known, rfl⟩

end Populates

end Atlas

end ModuleAtlas
