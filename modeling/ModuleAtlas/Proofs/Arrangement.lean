import ModuleAtlas.Proofs.History

/-!
# What commands do to groups and nesting

Of the atlas as a whole, nesting only concerns which module belongs to which group, which module
stands for which group and which module is nested in which.  None of this is ever taken back, so a
command is described by what it adds.  Three things can happen: a module joins a group, a member is
let stand for a group, or nothing is added.
-/

namespace ModuleAtlas

namespace Atlas

def Lists (atlas : Atlas) (group : GroupId) (module : ModuleId) : Prop :=
  ∃ entity, atlas.group? group = some entity ∧ module ∈ entity.members

def Knows (atlas : Atlas) (group : GroupId) : Prop := ∃ entity, atlas.group? group = some entity

section Look

variable {atlas : Atlas} {group : GroupId} {home : Group}

theorem lists_iff (found : atlas.group? group = some home) {module : ModuleId} :
    atlas.Lists group module ↔ module ∈ home.members := by
  simp [Lists, found]

theorem standsFor_iff (found : atlas.group? group = some home) {module : ModuleId} :
    atlas.StandsFor module group ↔ home.defaultModule = some module := by
  simp [StandsFor, found]

/-- A group without a default module is one that no module stands for. -/
theorem not_standsFor_of_vacant (found : atlas.group? group = some home)
    (vacant : home.defaultModule = none) (module : ModuleId) : ¬ atlas.StandsFor module group := by
  rw [standsFor_iff found, vacant]
  exact fun same => nomatch same

theorem StandsFor.knows {module : ModuleId} (stands : atlas.StandsFor module group) :
    atlas.Knows group := by
  obtain ⟨entity, found, _⟩ := stands
  exact ⟨entity, found⟩

theorem IsParent.knows {parent : GroupId} (isParent : atlas.IsParent parent group) :
    atlas.Knows group := by
  obtain ⟨entity, found, _⟩ := isParent
  exact ⟨entity, found⟩

theorem WellFormed.home_of_lists (wellFormed : atlas.WellFormed) {module : ModuleId}
    (lists : atlas.Lists group module) : atlas.Home module group := by
  obtain ⟨entity, found, member⟩ := lists
  exact wellFormed.members found member

/-- What a change to the groups keeps of a group still holds of it after the change. -/
theorem exists_group?_congr {after : Atlas} {change : Group → Group} {property : Group → Prop}
    (found : after.group? group = (atlas.group? group).map change)
    (kept : ∀ entity, property (change entity) ↔ property entity) :
    (∃ entity, after.group? group = some entity ∧ property entity) ↔
      ∃ entity, atlas.group? group = some entity ∧ property entity := by
  rw [found]
  cases atlas.group? group with
  | none => simp
  | some entity => simp [kept]

end Look

/-! ## Additions -/

/--
Some more members, default modules and nesting edges, given as relations, and otherwise groups and
nesting are as before; only a group that is new itself may have a new parent.
-/
structure Adds (before after : Atlas) (members standing : ModuleId → GroupId → Prop)
    (edges : ModuleId → ModuleId → Prop) : Prop where
  home : ∀ {module group}, after.Home module group ↔
    before.Home module group ∨ members module group
  lists : ∀ {group module}, after.Lists group module ↔
    before.Lists group module ∨ members module group
  stands : ∀ {module group}, after.StandsFor module group ↔
    before.StandsFor module group ∨ standing module group
  knows : ∀ {group}, before.Knows group → after.Knows group
  parent : ∀ {upper lower}, before.Knows lower →
    (after.IsParent upper lower ↔ before.IsParent upper lower)
  edges : ∀ {owner member}, after.nesting.hasDirectEdge owner member ↔
    before.nesting.hasDirectEdge owner member ∨ edges owner member

def Steady (before after : Atlas) : Prop :=
  Adds before after (fun _ _ => False) (fun _ _ => False) fun _ _ => False

/-- Two additions one after the other add what either of them adds. -/
theorem Adds.trans {before middle after : Atlas}
    {members members' members'' standing standing' standing'' : ModuleId → GroupId → Prop}
    {edges edges' edges'' : ModuleId → ModuleId → Prop}
    (first : Adds before middle members standing edges)
    (second : Adds middle after members' standing' edges')
    (sameMembers : ∀ module group,
      members'' module group ↔ members module group ∨ members' module group)
    (sameStanding : ∀ module group,
      standing'' module group ↔ standing module group ∨ standing' module group)
    (sameEdges : ∀ owner member, edges'' owner member ↔ edges owner member ∨ edges' owner member) :
    Adds before after members'' standing'' edges'' where
  home := by
    intro module group
    rw [second.home, first.home, sameMembers, or_assoc]
  lists := by
    intro group module
    rw [second.lists, first.lists, sameMembers, or_assoc]
  stands := by
    intro module group
    rw [second.stands, first.stands, sameStanding, or_assoc]
  knows := fun known => second.knows (first.knows known)
  parent := fun known => (second.parent (first.knows known)).trans (first.parent known)
  edges := by
    intro owner member
    rw [second.edges, first.edges, sameEdges, or_assoc]

theorem Steady.of_same {before after : Atlas} (modules : after.modules = before.modules)
    (groups : after.groups = before.groups) (nesting : after.nesting = before.nesting) :
    Steady before after := by
  have sameModule (id : ModuleId) : after.module? id = before.module? id := by
    rw [module?, module?, modules]
  have sameGroup (id : GroupId) : after.group? id = before.group? id := by
    rw [group?, group?, groups]
  constructor
  · intro module group
    rw [Home, Home, sameModule, or_false]
  · intro group module
    rw [Lists, Lists, sameGroup, or_false]
  · intro module group
    rw [StandsFor, StandsFor, sameGroup, or_false]
  · intro group known
    rw [Knows, sameGroup]
    exact known
  · intro upper lower _
    rw [IsParent, IsParent, sameGroup]
  · intro owner member
    rw [nesting, or_false]

/-! ## Single additions -/

/-- A change to the fields of one module other than its group adds nothing. -/
theorem steady_updateModule (atlas : Atlas) (changed : ModuleId) {change : Module → Module}
    (sameGroup : ∀ {entity}, atlas.module? changed = some entity →
      (change entity).group = entity.group) :
    Steady atlas (atlas.updateModule changed change) where
  home := by
    intro module group
    rw [or_false, Home, Home, module?_updateModule]
    cases known : atlas.module? module with
    | none => simp
    | some entity =>
      have same : (if changed = module then change entity else entity).group = entity.group := by
        split
        next same => exact sameGroup (same ▸ known)
        next => rfl
      simp [same]
  lists := (or_iff_left id).symm
  stands := (or_iff_left id).symm
  knows := id
  parent := fun _ => Iff.rfl
  edges := (or_iff_left id).symm

theorem hasDirectEdge_addModule (atlas : Atlas) (module : Module) (owner member : ModuleId) :
    (atlas.addModule module).nesting.hasDirectEdge owner member =
      atlas.nesting.hasDirectEdge owner member :=
  Hierarchy.hasDirectEdge_register atlas.nesting module.id owner member

/-- A module outside all groups adds nothing. -/
theorem steady_addModule (atlas : Atlas) {module : Module} (groupless : module.group = none) :
    Steady atlas (atlas.addModule module) where
  home := by
    intro id group
    rw [or_false]
    constructor
    · rintro ⟨entity, found, isGroup⟩
      rcases module?_addModule_cases found with known | ⟨_, rfl⟩
      · exact ⟨entity, known, isGroup⟩
      · rw [groupless] at isGroup
        cases isGroup
    · rintro ⟨entity, known, isGroup⟩
      exact ⟨entity, module?_addModule_of_some known module, isGroup⟩
  lists := (or_iff_left id).symm
  stands := (or_iff_left id).symm
  knows := id
  parent := fun _ => Iff.rfl
  edges := by
    intro owner member
    rw [hasDirectEdge_addModule, or_false]

/-- What a new group lacks, and what does not depend on children, holds where it held before. -/
theorem exists_group?_addGroup {atlas : Atlas} {group : Group} {id : GroupId}
    {property : Group → Prop}
    (kept : ∀ entity children, property { entity with children } ↔ property entity)
    (lacks : ¬ property group) :
    (∃ entity, (atlas.addGroup group).group? id = some entity ∧ property entity) ↔
      ∃ entity, atlas.group? id = some entity ∧ property entity := by
  constructor
  · rintro ⟨entity, found, holds⟩
    obtain ⟨old, _, rfl, known | ⟨_, rfl⟩⟩ := group?_addGroup_cases found
    · exact ⟨old, known, (kept old _).1 holds⟩
    · exact absurd ((kept old _).1 holds) lacks
  · rintro ⟨entity, known, holds⟩
    obtain ⟨children, found⟩ := group?_addGroup_of_some known group
    exact ⟨_, found, (kept entity children).2 holds⟩

/-- A new group has neither members nor a default module, and the others keep theirs. -/
theorem steady_addGroup (atlas : Atlas) {group : Group} (memberless : group.members = [])
    (vacant : group.defaultModule = none) : Steady atlas (atlas.addGroup group) where
  home := (regroups_addGroup atlas group).home_iff.trans (or_iff_left id).symm
  lists := by
    intro id module
    rw [or_false]
    refine exists_group?_addGroup (fun _ _ => Iff.rfl) ?_
    rw [memberless]
    exact List.not_mem_nil
  stands := by
    intro module id
    rw [or_false]
    refine exists_group?_addGroup (fun _ _ => Iff.rfl) ?_
    rw [vacant]
    exact fun same => nomatch same
  knows := by
    rintro id ⟨entity, known⟩
    obtain ⟨_, found⟩ := group?_addGroup_of_some known group
    exact ⟨_, found⟩
  parent := by
    rintro upper lower ⟨entity, known⟩
    obtain ⟨children, found⟩ := group?_addGroup_of_some known group
    simp [IsParent, known, found]
  edges := by
    intro owner member
    have same : (atlas.addGroup group).nesting = atlas.nesting :=
      (regroups_addGroup atlas group).hierarchy .nesting
    rw [same, or_false]

/-- A new module is noted as a member of the group that it was created in. -/
theorem adds_grown {atlas : Atlas} {group : GroupId} {home : Group} {module : Module}
    (found : atlas.group? group = some home) (next : module.id = ⟨atlas.modules.length⟩)
    (isGroup : module.group = some group) :
    Adds atlas ((atlas.addModule module).addMember group module.id)
      (fun id place => id = module.id ∧ place = group) (fun _ _ => False) fun _ _ => False where
  home := by
    intro id place
    constructor
    · rintro ⟨entity, known, isPlace⟩
      rcases module?_addModule_cases known with old | ⟨rfl, rfl⟩
      · exact Or.inl ⟨entity, old, isPlace⟩
      · exact Or.inr ⟨next.symm, Option.some.inj (isPlace.symm.trans isGroup)⟩
    · rintro (⟨entity, known, isPlace⟩ | ⟨rfl, rfl⟩)
      · exact ⟨entity, module?_addModule_of_some known module, isPlace⟩
      · exact Loading.home_grown next isGroup
  lists := by
    intro place id
    rw [Lists, group?_addMember]
    by_cases same : group = place
    · subst same
      have known : (atlas.addModule module).group? group = some home := found
      simp [known, lists_iff found]
    · rw [or_iff_left fun added => same added.2.symm]
      simp only [if_neg same, Option.map_id']
      exact Iff.rfl
  stands := by
    intro id place
    rw [or_false]
    exact exists_group?_congr (group?_addMember _ _ _ _) fun entity => by split <;> rfl
  knows := by
    rintro place ⟨entity, known⟩
    have known : (atlas.addModule module).group? place = some entity := known
    exact ⟨_, by rw [group?_addMember, known]; rfl⟩
  parent := by
    intro upper lower _
    exact exists_group?_congr (group?_addMember _ _ _ _) fun entity => by split <;> rfl
  edges := by
    intro owner member
    rw [or_false, ← hasDirectEdge_addModule atlas module]
    rfl

/-- A module gets to stand for a group. -/
theorem adds_designate {atlas : Atlas} {group : GroupId} {home : Group}
    (found : atlas.group? group = some home) (vacant : home.defaultModule = none)
    (owner : ModuleId) :
    Adds atlas (atlas.designate group owner) (fun _ _ => False)
      (fun module place => module = owner ∧ place = group) fun _ _ => False where
  home := (regroups_designate atlas group owner).home_iff.trans (or_iff_left id).symm
  lists := by
    intro place module
    rw [or_false]
    exact exists_group?_congr (group?_designate _ _ _ _) fun entity => by split <;> rfl
  stands := by
    intro module place
    rw [StandsFor, group?_designate]
    by_cases same : group = place
    · subst same
      simp [found, standsFor_iff found, vacant, eq_comm]
    · rw [or_iff_left fun added => same added.2.symm]
      simp only [if_neg same, Option.map_id']
      exact Iff.rfl
  knows := by
    rintro place ⟨entity, known⟩
    exact ⟨_, by rw [group?_designate, known]; rfl⟩
  parent := by
    intro upper lower _
    exact exists_group?_congr (group?_designate _ _ _ _) fun entity => by split <;> rfl
  edges := (or_iff_left id).symm

/-- A default module gets modules nested under it. -/
theorem adds_nested {atlas : Atlas} (wellFormed : atlas.WellFormed) {owner : ModuleId}
    {group : GroupId} (stands : atlas.StandsFor owner group) {members : List ModuleId}
    (own : ∀ member ∈ members, atlas.MayOwn owner member) :
    Adds atlas (atlas.nested owner members) (fun _ _ => False) (fun _ _ => False)
      (fun upper lower => upper = owner ∧ lower ∈ members) where
  home := (or_iff_left id).symm
  lists := (or_iff_left id).symm
  stands := (or_iff_left id).symm
  knows := id
  parent := fun _ => Iff.rfl
  edges := by
    have known : (atlas.hierarchy .nesting).contains owner :=
      wellFormed.contains_of_home (wellFormed.home_of_standsFor stands)
    have extendable := wellFormed.extendable_nesting known own
    exact fun {_ _} => Hierarchy.hasDirectEdge_run_fan (wellFormed.closed .nesting) extendable

/-! ## Owners by group -/

theorem climb_congr {before after : Atlas} (groups : after.groups = before.groups) (steps : Nat)
    (group : GroupId) : after.climb steps group = before.climb steps group := by
  induction steps generalizing group with
  | zero => rfl
  | succ steps ih =>
    have same : after.group? group = before.group? group := by rw [group?, group?, groups]
    simp only [climb, same, ih]

/-- The nearest default module depends on the groups only. -/
theorem ownerIn_congr {before after : Atlas} (groups : after.groups = before.groups)
    (group : GroupId) (module : ModuleId) :
    after.ownerIn group module = before.ownerIn group module := by
  rw [ownerIn, ownerIn, lineage, lineage, climb_congr groups, groups]

/-- The default module of a group is the nearest one to its other members. -/
theorem ownerIn_of_standsFor {atlas : Atlas} {group : GroupId} {owner module : ModuleId}
    (stands : atlas.StandsFor owner group) (different : owner ≠ module) :
    atlas.ownerIn group module = some owner := by
  obtain ⟨entity, found, isDefault⟩ := stands
  obtain ⟨steps, count⟩ : ∃ steps, atlas.groups.length = steps + 1 :=
    Nat.exists_eq_add_one.2 (List.length_pos_of_mem (List.mem_of_getElem? found))
  have nearest : entity.defaultModule.filter (fun other => other ≠ module) = some owner := by
    simp [isDefault, different]
  rw [ownerIn, lineage, count, climb, found]
  simp only [List.findSome?_cons, nearest]

theorem groups_settled (atlas : Atlas) (group : GroupId) (module : ModuleId) :
    (atlas.settled group module).groups = atlas.groups := by
  unfold settled
  split <;> rfl

/-! ## Additions of single commands -/

/-- A member was let stand for a group that no module stood for, and adopted the other members. -/
structure Appoints (before : Atlas) (group : GroupId) (owner : ModuleId) (after : Atlas) :
    Prop where
  vacant : ∀ module, ¬ before.StandsFor module group
  member : before.Lists group owner
  adds : Adds before after (fun _ _ => False) (fun module place => module = owner ∧ place = group)
    fun upper lower => upper = owner ∧ before.Lists group lower ∧ lower ≠ owner

/--
A new module joined a group and was nested under the nearest default module but itself.  If it is
named like the group, which no module stood for, it also stands for the group from then on and
adopted the other members.
-/
structure Joins (before : Atlas) (group : GroupId) (named : Prop) (member : ModuleId)
    (after : Atlas) : Prop where
  fresh : ∀ place, ¬ before.Home member place
  vacant : named → ∀ module, ¬ before.StandsFor module group
  adds : Adds before after (fun module place => module = member ∧ place = group)
    (fun module place => named ∧ module = member ∧ place = group)
    fun upper lower => named ∧ upper = member ∧ before.Lists group lower ∨
      lower = member ∧ after.ownerIn group member = some upper

theorem appoints_appointed {atlas : Atlas} (wellFormed : atlas.WellFormed) {group : GroupId}
    {home : Group} {owner : ModuleId} (found : atlas.group? group = some home)
    (vacant : home.defaultModule = none) (member : owner ∈ home.members) :
    Appoints atlas group owner (atlas.appointed group home.members owner) where
  vacant := not_standsFor_of_vacant found vacant
  member := (lists_iff found).2 member
  adds := by
    have designated := wellFormed_designate wellFormed found vacant member
    have foundAfter := Loading.group?_designate_self owner found
    have own := designated.mayOwn_others foundAfter rfl
    have nested := adds_nested designated ((standsFor_iff foundAfter).2 rfl) own
    refine (adds_designate found vacant owner).trans nested ?_ ?_ ?_
    · simp
    · simp
    · simp [lists_iff found]

theorem adds_settled {atlas : Atlas} (wellFormed : atlas.WellFormed) {group : GroupId}
    {module : ModuleId} (home : atlas.Home module group) :
    Adds atlas (atlas.settled group module) (fun _ _ => False) (fun _ _ => False)
      fun upper lower => lower = module ∧ atlas.ownerIn group module = some upper := by
  unfold settled
  cases found : atlas.ownerIn group module with
  | none =>
    have same : Steady atlas atlas := .of_same rfl rfl rfl
    simpa [Steady] using same
  | some owner =>
    obtain ⟨⟨upper, stands⟩, mayOwn⟩ := mayOwn_of_ownerIn home found
    have nested := adds_nested wellFormed stands (List.forall_mem_singleton.2 mayOwn)
    simpa [and_comm, eq_comm] using nested

section Joining

variable {atlas : Atlas} {group : GroupId} {home : Group} {module : Module}

theorem not_home_next (next : module.id = ⟨atlas.modules.length⟩) (place : GroupId) :
    ¬ atlas.Home module.id place := by
  rintro ⟨entity, known, _⟩
  rw [next] at known
  exact absurd (List.getElem?_eq_some_iff.1 known).1 (Nat.lt_irrefl _)

/-- A new member that is named like its group stands for the group and adopts those before it. -/
theorem adds_founded (wellFormed : atlas.WellFormed) (found : atlas.group? group = some home)
    (next : module.id = ⟨atlas.modules.length⟩) (isGroup : module.group = some group)
    (vacant : home.defaultModule = none) :
    Adds atlas
      (((atlas.addModule module).addMember group module.id).appointed group
        (home.members ++ [module.id]) module.id)
      (fun id place => id = module.id ∧ place = group)
      (fun id place => id = module.id ∧ place = group)
      fun upper lower => upper = module.id ∧ atlas.Lists group lower := by
  have grown := Loading.wellFormed_grown wellFormed next isGroup
  have enters := adds_grown found next isGroup
  have member : module.id ∈ home.members ++ [module.id] :=
    List.mem_append_right _ (List.mem_singleton.2 rfl)
  have appoints := appoints_appointed grown (Loading.group?_grown found) vacant member
  refine enters.trans appoints.adds (by simp) (by simp) fun upper lower => ?_
  have others : atlas.Lists group lower → lower ≠ module.id := by
    rintro lists rfl
    exact not_home_next next group (wellFormed.home_of_lists lists)
  rw [enters.lists, false_or, and_iff_left rfl]
  refine and_congr_right fun _ => ⟨fun lists => ⟨Or.inl lists, others lists⟩, ?_⟩
  rintro ⟨lists | same, different⟩
  · exact lists
  · exact absurd same different

theorem joins_joined (wellFormed : atlas.WellFormed) (found : atlas.group? group = some home)
    (next : module.id = ⟨atlas.modules.length⟩) (isGroup : module.group = some group)
    (free : home.name = module.name → home.defaultModule = none) :
    Joins atlas group (home.name = module.name) module.id (atlas.joined group home module) where
  fresh := not_home_next next
  vacant := fun named => not_standsFor_of_vacant found (free named)
  adds := by
    have grown := Loading.wellFormed_grown wellFormed next isGroup
    by_cases named : home.name = module.name
    · have member : module.id ∈ home.members ++ [module.id] :=
        List.mem_append_right _ (List.mem_singleton.2 rfl)
      have appointed :=
        Loading.wellFormed_appointed grown (Loading.group?_grown found) (free named) member
      have founds := adds_founded wellFormed found next isGroup (free named)
      have settles := adds_settled appointed (founds.home.2 (Or.inr ⟨rfl, rfl⟩))
      rw [Loading.joined_named named]
      refine founds.trans settles ?_ ?_ ?_
      · simp
      · simp [named]
      · simp [named, ownerIn_congr (groups_settled _ group module.id)]
    · have settles := adds_settled grown (Loading.home_grown next isGroup)
      rw [Loading.joined_unnamed named]
      refine (adds_grown found next isGroup).trans settles ?_ ?_ ?_
      · simp
      · simp [named]
      · simp [named, ownerIn_congr (groups_settled _ group module.id)]

end Joining

/-- What a single command does to groups and nesting. -/
theorem arrangement_of_plan {atlas next : Atlas} (wellFormed : atlas.WellFormed) {command : Command}
    (single : command.IsSingle) {answer : Answer}
    (planned : atlas.plan command = .ok (answer, next)) :
    Steady atlas next ∨
      (∃ group owner, command = .setDefault group owner ∧ Appoints atlas group owner next) ∨
      ∃ group named member, Joins atlas group named member next := by
  cases step_of_plan planned with
  | project name => exact Or.inl (.of_same rfl rfl rfl)
  | group name projectKnown parentKnown => exact Or.inl (steady_addGroup atlas rfl rfl)
  | loose name location fictive => exact Or.inl (steady_addModule atlas rfl)
  | @member group home project name location found inProject free =>
    exact Or.inr (Or.inr ⟨group, _, _, joins_joined wellFormed found rfl rfl free⟩)
  | @appointed group home owner found vacant member =>
    have appoints := appoints_appointed wellFormed found vacant member
    exact Or.inr (Or.inl ⟨group, owner, rfl, appoints⟩)
  | confirmed => exact Or.inl (.of_same rfl rfl rfl)
  | importing wires => exact Or.inl (.of_same rfl rfl rfl)
  | @absorbing module _ _ importer _ isImporter =>
    refine Or.inl (steady_updateModule atlas module fun known => ?_)
    rw [Option.some.inj (known.symm.trans isImporter)]
    rfl
  | attached module => exact Or.inl (steady_updateModule atlas module fun _ => rfl)

/-- A single command adds to the groups and to nesting. -/
theorem adds_of_plan {atlas next : Atlas} (wellFormed : atlas.WellFormed) {command : Command}
    (single : command.IsSingle) {answer : Answer}
    (planned : atlas.plan command = .ok (answer, next)) :
    ∃ members standing edges, Adds atlas next members standing edges := by
  rcases arrangement_of_plan wellFormed single planned with
    steady | ⟨_, _, _, appoints⟩ | ⟨_, _, _, joins⟩
  · exact ⟨_, _, _, steady⟩
  · exact ⟨_, _, _, appoints.adds⟩
  · exact ⟨_, _, _, joins.adds⟩

end Atlas

end ModuleAtlas
