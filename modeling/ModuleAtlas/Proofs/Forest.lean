import Mathlib.Data.List.Induction
import ModuleAtlas.Proofs.Arena
import ModuleAtlas.Proofs.Ownership

/-!
# The forest of groups

A group refers to its parent and is listed by it, a module refers to its group and is listed by it,
and a project refers to the first group that was created in it without parent.  What is listed is
never changed on its own, so it has to follow from what groups and modules were created with.
-/

namespace ModuleAtlas

namespace Atlas

/-! ## What groups and modules say of themselves -/

def IsTop (atlas : Atlas) (group : GroupId) (project : ProjectId) : Prop :=
  ∃ entity, atlas.group? group = some entity ∧ entity.parent = none ∧ entity.project = project

def IsNamesake (atlas : Atlas) (module : ModuleId) (group : GroupId) : Prop :=
  ∃ entity home, atlas.module? module = some entity ∧ entity.group = some group ∧
    atlas.group? group = some home ∧ entity.name = home.name

def childrenOf (atlas : Atlas) (parent : GroupId) : List GroupId :=
  atlas.groupsWhere fun group => group.parent = some parent

def topsOf (atlas : Atlas) (project : ProjectId) : List GroupId :=
  atlas.groupsWhere fun group => group.parent = none ∧ group.project = project

def membersOf (atlas : Atlas) (group : GroupId) : List ModuleId :=
  atlas.modulesWhere fun module => module.group = some group

/-- Lists and roots agree with what groups and modules were created with. -/
structure Forested (atlas : Atlas) : Prop where
  numbered : Numbered Group.id atlas.groups
  inProjects : ∀ {id group}, atlas.group? id = some group →
    (atlas.project? group.project).isSome
  parents : ∀ {parent group}, atlas.IsParent parent group → atlas.Knows parent
  roots : ∀ {id project}, atlas.project? id = some project →
    project.root = (atlas.topsOf id).head?
  children : ∀ {id group}, atlas.group? id = some group → group.children = atlas.childrenOf id
  members : ∀ {id group}, atlas.group? id = some group → group.members = atlas.membersOf id
  namesakes : ∀ {module group}, atlas.IsNamesake module group → atlas.StandsFor module group

section Selected

variable {atlas : Atlas} {id parent : GroupId} {project : ProjectId} {module : ModuleId}

theorem WellFormed.numbered (wellFormed : atlas.WellFormed) :
    Numbered Module.id atlas.modules := by
  intro index entity found
  have known : atlas.module? ⟨index⟩ = some entity := found
  exact wellFormed.ids known

theorem WellFormed.mem_membersOf (wellFormed : atlas.WellFormed) :
    module ∈ atlas.membersOf id ↔ atlas.Home module id := by
  rw [membersOf, modulesWhere, wellFormed.numbered.mem_map_filter]
  simp only [decide_eq_true_eq]
  exact Iff.rfl

theorem Forested.mem_childrenOf (forested : atlas.Forested) :
    id ∈ atlas.childrenOf parent ↔ atlas.IsParent parent id := by
  rw [childrenOf, groupsWhere, forested.numbered.mem_map_filter]
  simp only [decide_eq_true_eq]
  exact Iff.rfl

theorem Forested.mem_topsOf (forested : atlas.Forested) :
    id ∈ atlas.topsOf project ↔ atlas.IsTop id project := by
  rw [topsOf, groupsWhere, forested.numbered.mem_map_filter]
  simp only [Bool.decide_and, Bool.and_eq_true, decide_eq_true_eq]
  exact Iff.rfl

end Selected

/-! ## Selections of grown atlases -/

theorem childrenOf_addGroup (atlas : Atlas) (group : Group) (id : GroupId) :
    (atlas.addGroup group).childrenOf id =
      atlas.childrenOf id ++ if group.parent = some id then [group.id] else [] := by
  rw [childrenOf, groupsWhere_concat (fun _ => rfl) (outlines_addGroup atlas group)]
  simp only [decide_eq_true_eq]
  rfl

theorem topsOf_addGroup (atlas : Atlas) (group : Group) (id : ProjectId) :
    (atlas.addGroup group).topsOf id = atlas.topsOf id ++
      if group.parent = none ∧ group.project = id then [group.id] else [] := by
  rw [topsOf, groupsWhere_concat (fun _ => rfl) (outlines_addGroup atlas group)]
  simp only [decide_eq_true_eq]
  rfl

theorem membersOf_concat {before after : Atlas} {module : Module}
    (grown : after.modules = before.modules ++ [module]) (id : GroupId) :
    after.membersOf id =
      before.membersOf id ++ if module.group = some id then [module.id] else [] := by
  rw [membersOf, modulesWhere_concat grown]
  simp only [decide_eq_true_eq]
  rfl

theorem not_knows_next (atlas : Atlas) : ¬ atlas.Knows ⟨atlas.groups.length⟩ := by
  rintro ⟨entity, known⟩
  exact absurd (List.getElem?_eq_some_iff.1 known).1 (Nat.lt_irrefl _)

/-- No group was created below the group that comes next. -/
theorem Forested.childrenOf_next {atlas : Atlas} (forested : atlas.Forested) :
    atlas.childrenOf ⟨atlas.groups.length⟩ = [] := by
  refine List.eq_nil_iff_forall_not_mem.2 fun child listed => ?_
  exact not_knows_next atlas (forested.parents (forested.mem_childrenOf.1 listed))

/-- No module was created in the group that comes next. -/
theorem Arranged.not_home_next_group {atlas : Atlas} (arranged : atlas.Arranged)
    (module : ModuleId) : ¬ atlas.Home module ⟨atlas.groups.length⟩ := by
  intro home
  obtain ⟨entity, known, _⟩ := arranged.listed home
  exact not_knows_next atlas ⟨entity, known⟩

/-- No group was created in the project that comes next. -/
theorem Forested.topsOf_next {atlas : Atlas} (forested : atlas.Forested) :
    atlas.topsOf ⟨atlas.projects.length⟩ = [] := by
  refine List.eq_nil_iff_forall_not_mem.2 fun group listed => ?_
  obtain ⟨entity, known, _, isNext⟩ := forested.mem_topsOf.1 listed
  obtain ⟨project, inProject⟩ := Option.isSome_iff_exists.1 (forested.inProjects known)
  have inside := (List.getElem?_eq_some_iff.1 inProject).1
  rw [isNext] at inside
  exact Nat.lt_irrefl _ inside

theorem forested_empty (settings : Settings) : (empty settings).Forested where
  numbered := fun _ _ found => nomatch found
  inProjects := by
    intro id group found
    simp [group?, empty] at found
  parents := by
    rintro parent group ⟨entity, found, _⟩
    simp [group?, empty] at found
  roots := by
    intro id project found
    simp [project?, empty] at found
  children := by
    intro id group found
    simp [group?, empty] at found
  members := by
    intro id group found
    simp [group?, empty] at found
  namesakes := by
    rintro module group ⟨entity, home, _, _, found, _⟩
    simp [group?, empty] at found

namespace Forested

variable {before after : Atlas}

/-! ## Steps that create no groups -/

/--
What is left to show if no project and no group is created and only the members and the default
modules of groups may change.
-/
theorem regroup (forested : before.Forested) {change : GroupId → Group → Group}
    (groups : ∀ id, after.group? id = (before.group? id).map (change id))
    (projects : after.projects = before.projects)
    (created : ∀ id group, (change id group).outline = group.outline)
    (children : ∀ id group, (change id group).children = group.children)
    (members : ∀ {id group}, before.group? id = some group →
      (change id group).members = after.membersOf id)
    (namesakes : ∀ {module group}, after.IsNamesake module group →
      after.StandsFor module group) : after.Forested := by
  have outlines := outlines_of_group? groups created
  have sameProject (id : ProjectId) : after.project? id = before.project? id := by
    rw [project?, project?, projects]
  have tops (project : ProjectId) : after.topsOf project = before.topsOf project :=
    groupsWhere_congr (fun _ => rfl) outlines
  have childrenSame (parent : GroupId) : after.childrenOf parent = before.childrenOf parent :=
    groupsWhere_congr (fun _ => rfl) outlines
  have origin {id : GroupId} {group : Group} (found : after.group? id = some group) :
      ∃ old, before.group? id = some old ∧ change id old = group :=
    Option.map_eq_some_iff.1 ((groups id).symm.trans found)
  refine ⟨?_, ?_, ?_, ?_, ?_, ?_, namesakes⟩
  · intro index group found
    have found : after.group? ⟨index⟩ = some group := found
    obtain ⟨old, known, rfl⟩ := origin found
    exact (congrArg Group.id (created _ old)).trans (forested.numbered index old known)
  · intro id group found
    obtain ⟨old, known, rfl⟩ := origin found
    rw [sameProject, Group.project_of_outline (created id old)]
    exact forested.inProjects known
  · rintro parent id ⟨group, found, isParent⟩
    obtain ⟨old, known, rfl⟩ := origin found
    rw [Group.parent_of_outline (created id old)] at isParent
    obtain ⟨upper, knownParent⟩ := forested.parents ⟨old, known, isParent⟩
    exact ⟨change parent upper, by rw [groups, knownParent, Option.map_some]⟩
  · intro id project found
    rw [sameProject] at found
    rw [tops]
    exact forested.roots found
  · intro id group found
    obtain ⟨old, known, rfl⟩ := origin found
    rw [children, childrenSame]
    exact forested.children known
  · intro id group found
    obtain ⟨old, known, rfl⟩ := origin found
    exact members known

theorem alike (forested : before.Forested) (alike : Alike False before after) :
    after.Forested := by
  have sameGroup (id : GroupId) : after.group? id = (before.group? id).map fun group => group := by
    rw [alike.group?, Option.map_id']
  refine forested.regroup sameGroup alike.projects (fun _ _ => rfl) (fun _ _ => rfl) ?_ ?_
  · intro id group known
    have same : after.membersOf id = before.membersOf id :=
      modulesWhere_congr (fun _ => rfl) alike.modules
    rw [same]
    exact forested.members known
  · rintro module group ⟨entity, home, known, isGroup, found, named⟩
    have same := alike.symm.module? module
    rw [known, Option.map_some, Option.map_eq_some_iff] at same
    obtain ⟨earlier, knownEarlier, outline⟩ := same
    rw [alike.group?] at found
    have stands := forested.namesakes ⟨earlier, home, knownEarlier,
      (congrArg Module.group outline).trans isGroup, found,
      (congrArg Module.name outline).trans named⟩
    rw [StandsFor, alike.group?]
    exact stands

theorem loose (forested : before.Forested) {module : Module} (groupless : module.group = none) :
    (before.addModule module).Forested := by
  have sameGroup (id : GroupId) :
      (before.addModule module).group? id = (before.group? id).map fun group => group := by
    rw [Option.map_id']
    rfl
  refine forested.regroup sameGroup rfl (fun _ _ => rfl) (fun _ _ => rfl) ?_ ?_
  · intro id group known
    have grown : (before.addModule module).membersOf id =
        before.membersOf id ++ if module.group = some id then [module.id] else [] :=
      membersOf_concat rfl id
    rw [grown, groupless, if_neg (Option.some_ne_none id).symm, List.append_nil]
    exact forested.members known
  · rintro id group ⟨entity, home, known, isGroup, found, named⟩
    rcases module?_addModule_cases known with old | ⟨_, rfl⟩
    · exact forested.namesakes ⟨entity, home, old, isGroup, found, named⟩
    · rw [groupless] at isGroup
      cases isGroup

theorem member (forested : before.Forested) (wellFormed : before.WellFormed) {group : GroupId}
    {home : Group} {module : Module} (found : before.group? group = some home)
    (next : module.id = ⟨before.modules.length⟩) (isGroup : module.group = some group)
    (free : home.name = module.name → home.defaultModule = none) :
    (before.joined group home module).Forested := by
  have joins := joins_joined wellFormed found next isGroup free
  refine forested.regroup (fun id => group?_joined before group id home module)
    (projects_joined before group home module) ?_ ?_ ?_ ?_
  · intro id entity
    split <;> rfl
  · intro id entity
    split <;> rfl
  · intro id entity known
    rw [membersOf_concat (modules_joined before group home module), isGroup,
      ← forested.members known]
    by_cases same : group = id
    · rw [if_pos same, if_pos (congrArg some same)]
    · rw [if_neg same, if_neg fun both => same (Option.some.inj both), List.append_nil]
  · rintro id place ⟨entity, house, known, isPlace, foundPlace, named⟩
    rw [group?_joined] at foundPlace
    obtain ⟨old, knownPlace, rfl⟩ := Option.map_eq_some_iff.1 foundPlace
    have sameName : entity.name = old.name := by
      rw [named]
      split <;> rfl
    rw [Atlas.module?, modules_joined] at known
    rw [joins.adds.stands]
    rcases module?_addModule_cases known with earlier | ⟨rfl, rfl⟩
    · exact Or.inl (forested.namesakes ⟨entity, old, earlier, isPlace, knownPlace, sameName⟩)
    · obtain rfl : group = place := Option.some.inj (isGroup.symm.trans isPlace)
      rw [found, Option.some.injEq] at knownPlace
      rw [knownPlace]
      exact Or.inr ⟨sameName.symm, next.symm, rfl⟩

theorem appointed (forested : before.Forested) (wellFormed : before.WellFormed) {group : GroupId}
    {home : Group} {owner : ModuleId} (found : before.group? group = some home)
    (vacant : home.defaultModule = none) (member : owner ∈ home.members) :
    (before.appointed group home.members owner).Forested := by
  have appoints := appoints_appointed wellFormed found vacant member
  refine forested.regroup (fun id => group?_designate before group id owner) rfl ?_ ?_ ?_ ?_
  · intro id entity
    split <;> rfl
  · intro id entity
    split <;> rfl
  · intro id entity known
    have same := forested.members known
    split <;> exact same
  · rintro module place ⟨entity, house, known, isPlace, foundPlace, named⟩
    have designated := (group?_designate before group place owner).symm.trans foundPlace
    obtain ⟨old, knownPlace, rfl⟩ := Option.map_eq_some_iff.1 designated
    have sameName : entity.name = old.name := by
      rw [named]
      split <;> rfl
    have stands := forested.namesakes ⟨entity, old, known, isPlace, knownPlace, sameName⟩
    exact appoints.adds.stands.2 (Or.inl stands)

/-! ## New projects and groups -/

theorem project (forested : before.Forested) (name : String) :
    ({ before with
      projects := before.projects ++ [{ id := ⟨before.projects.length⟩, name }] } :
      Atlas).Forested := by
  refine ⟨forested.numbered, ?_, forested.parents, ?_, forested.children, forested.members,
    forested.namesakes⟩
  · intro id group known
    obtain ⟨project, inProject⟩ := Option.isSome_iff_exists.1 (forested.inProjects known)
    rw [project?, getElem?_concat_of_some inProject]
    rfl
  · intro id project found
    rcases getElem?_concat_cases found with known | ⟨position, rfl⟩
    · exact forested.roots known
    · obtain rfl : id = ⟨before.projects.length⟩ := Handle.ext position
      exact (congrArg List.head? forested.topsOf_next).symm

theorem group (forested : before.Forested) (wellFormed : before.WellFormed)
    (arranged : before.Arranged) {group : Group}
    (next : group.id = ⟨before.groups.length⟩) (childless : group.children = [])
    (memberless : group.members = []) (vacant : group.defaultModule = none)
    (projectKnown : (before.project? group.project).isSome)
    (parentKnown : ∀ upper, group.parent = some upper → before.Knows upper) :
    (before.addGroup group).Forested := by
  have steady := steady_addGroup before memberless vacant
  refine ⟨?_, ?_, ?_, ?_, ?_, ?_, ?_⟩
  · intro index entity found
    have found : (before.addGroup group).group? ⟨index⟩ = some entity := found
    obtain ⟨old, _, rfl, known | ⟨position, rfl⟩⟩ := group?_addGroup_cases found
    · exact forested.numbered index old known
    · exact next.trans position.symm
  · intro id entity found
    rw [project?_addGroup, Option.isSome_map]
    obtain ⟨old, _, rfl, known | ⟨_, rfl⟩⟩ := group?_addGroup_cases found
    · have inProject := forested.inProjects known
      exact inProject
    · exact projectKnown
  · rintro parent id ⟨entity, found, isParent⟩
    apply steady.knows
    obtain ⟨old, _, rfl, known | ⟨_, rfl⟩⟩ := group?_addGroup_cases found
    · exact forested.parents ⟨old, known, isParent⟩
    · exact parentKnown parent isParent
  · intro id project found
    rw [project?_addGroup] at found
    obtain ⟨old, known, rfl⟩ := Option.map_eq_some_iff.1 found
    rw [topsOf_addGroup, List.head?_append, ← forested.roots known]
    split
    · rfl
    · rw [List.head?_nil, Option.or_none]
  · intro id entity found
    rw [group?_addGroup] at found
    obtain ⟨old, present, rfl⟩ := Option.map_eq_some_iff.1 found
    have listed : old.children = before.childrenOf id := by
      rcases getElem?_concat_cases present with known | ⟨position, rfl⟩
      · exact forested.children known
      · obtain rfl : id = ⟨before.groups.length⟩ := Handle.ext position
        rw [childless, forested.childrenOf_next]
    rw [childrenOf_addGroup, ← listed]
    split
    · rfl
    · rw [List.append_nil]
  · intro id entity found
    have modules := (regroups_addGroup before group).modules
    rw [membersOf, modulesWhere, modules]
    obtain ⟨old, _, rfl, known | ⟨rfl, rfl⟩⟩ := group?_addGroup_cases found
    · have listed := forested.members known
      exact listed
    · have unused : before.membersOf ⟨before.groups.length⟩ = [] :=
        List.eq_nil_iff_forall_not_mem.2 fun module listed =>
          arranged.not_home_next_group module (wellFormed.mem_membersOf.1 listed)
      exact memberless.trans unused.symm
  · rintro module id ⟨entity, home, known, isGroup, found, named⟩
    rw [(regroups_addGroup before group).module?] at known
    rw [steady.stands]
    obtain ⟨old, _, rfl, knownGroup | ⟨rfl, rfl⟩⟩ := group?_addGroup_cases found
    · exact Or.inl (forested.namesakes ⟨entity, old, known, isGroup, knownGroup, named⟩)
    · exact absurd ⟨entity, known, isGroup⟩ (arranged.not_home_next_group module)

/-! ## Runs -/

theorem populates (forested : before.Forested) (wellFormed : before.WellFormed)
    (arranged : before.Arranged) {command : Command}
    (populates : Populates before command after) : after.Forested := by
  cases populates with
  | steady alike => exact forested.alike alike
  | project name => exact forested.project name
  | group name projectKnown parentKnown =>
    exact forested.group wellFormed arranged rfl rfl rfl rfl projectKnown parentKnown
  | loose name location fictive => exact forested.loose rfl
  | member name location found inProject free =>
    exact forested.member wellFormed found rfl rfl free
  | appointed found vacant member => exact forested.appointed wellFormed found vacant member

end Forested

theorem forested_reached (settings : Settings) (commands : List Command) :
    ((empty settings).run commands).Forested := by
  induction commands using List.reverseRecOn with
  | nil => exact forested_empty settings
  | append_singleton earlier command ih =>
    have wellFormed := wellFormed_reached settings earlier
    rw [run_append]
    exact ih.populates wellFormed (arranged_reached settings earlier)
      (populates_perform wellFormed command)

/--
In every atlas that commands lead to, parents are known and older, groups list exactly the groups
and the modules that were created in them, once each and in the order of their creation, and the
root of a project is the first group that was created in it without parent.  A default module is a
member of its group and stands for no other one, and whatever member is named like its group is its
default module, so there is at most one such member.
-/
theorem groups_form_forest (settings : Settings) (commands : List Command) :
    let atlas := (empty settings).run commands
    (∀ parent group, atlas.IsParent parent group →
      atlas.Knows parent ∧ parent.index < group.index) ∧
    (∀ id group, atlas.group? id = some group →
      group.children.Pairwise (· < ·) ∧
      (∀ child, (atlas.IsParent id child → group.children.count child = 1) ∧
        (¬ atlas.IsParent id child → group.children.count child = 0)) ∧
      group.members.Pairwise (· < ·) ∧
      ∀ module, (atlas.Home module id → group.members.count module = 1) ∧
        (¬ atlas.Home module id → group.members.count module = 0)) ∧
    (∀ id project, atlas.project? id = some project →
      (∀ group, project.root = some group ↔
        atlas.IsTop group id ∧ ∀ other, atlas.IsTop other id → group ≤ other) ∧
      (project.root = none ↔ ∀ group, ¬ atlas.IsTop group id)) ∧
    (∀ module group, atlas.StandsFor module group →
      atlas.Lists group module ∧ ∀ other, atlas.StandsFor module other → other = group) ∧
    ∀ module group, atlas.IsNamesake module group →
      atlas.StandsFor module group ∧ ∀ other, atlas.IsNamesake other group → other = module := by
  intro atlas
  have wellFormed : atlas.WellFormed := wellFormed_reached settings commands
  have arranged : atlas.Arranged := arranged_reached settings commands
  have forested : atlas.Forested := forested_reached settings commands
  refine ⟨?_, ?_, ?_, ?_, ?_⟩
  · exact fun parent group isParent => ⟨forested.parents isParent, wellFormed.parents isParent⟩
  · intro id group found
    have children := forested.numbered.pairwise_map_filter fun group => group.parent = some id
    have members := wellFormed.numbered.pairwise_map_filter fun module => module.group = some id
    rw [forested.children found, forested.members found]
    refine ⟨children, fun child => ?_, members, fun module => ?_⟩
    · exact count_of_pairwise_lt children forested.mem_childrenOf
    · exact count_of_pairwise_lt members wellFormed.mem_membersOf
  · intro id project found
    have tops : (atlas.topsOf id).Pairwise (· < ·) := forested.numbered.pairwise_map_filter _
    rw [forested.roots found]
    refine ⟨fun group => ?_, ?_⟩
    · rw [head?_eq_some_iff_of_pairwise_lt tops]
      simp only [forested.mem_topsOf]
    · rw [List.head?_eq_none_iff, List.eq_nil_iff_forall_not_mem]
      simp only [forested.mem_topsOf]
  · intro module group stands
    have home := wellFormed.home_of_standsFor stands
    exact ⟨arranged.listed home, fun other standsOther =>
      (wellFormed.home_of_standsFor standsOther).unique home⟩
  · intro module group namesake
    have stands := forested.namesakes namesake
    exact ⟨stands, fun other otherNamesake => (forested.namesakes otherNamesake).unique stands⟩

/-- Where another member was let stand for a group first, no namesake can join any more. -/
theorem groups_form_forest_designated_first :
    let commands : List Command := [.createProject "p", .createGroup ⟨0⟩ none "outer",
      .createGroup ⟨0⟩ (some ⟨0⟩) "inner", .createModule (some ⟨0⟩) "a" .synthetic,
      .setDefault ⟨0⟩ ⟨0⟩, .createModule (some ⟨1⟩) "inner" .synthetic, .createGroup ⟨0⟩ none "top"]
    let atlas := (empty {}).run commands
    (atlas.perform (.createModule (some ⟨0⟩) "outer" .synthetic)).answer =
        .error (.defaultConflict "outer" "a" "outer") ∧
      (atlas.IsParent ⟨0⟩ ⟨1⟩ ∧ atlas.Knows ⟨0⟩) ∧
      (∃ outer, atlas.group? ⟨0⟩ = some outer ∧ outer.children.count ⟨1⟩ = 1 ∧
        outer.members.count ⟨0⟩ = 1 ∧ ¬ atlas.Home ⟨1⟩ ⟨0⟩ ∧ outer.members.count ⟨1⟩ = 0) ∧
      (∃ project, atlas.project? ⟨0⟩ = some project ∧ atlas.IsTop ⟨2⟩ ⟨0⟩ ∧
        project.root = some ⟨0⟩) ∧
      (atlas.StandsFor ⟨0⟩ ⟨0⟩ ∧ atlas.Lists ⟨0⟩ ⟨0⟩) ∧
      atlas.IsNamesake ⟨1⟩ ⟨1⟩ ∧ atlas.StandsFor ⟨1⟩ ⟨1⟩ := by
  intro commands atlas
  obtain ⟨parents, lists, roots, standing, namesakes⟩ := groups_form_forest {} commands
  have isParent : atlas.IsParent ⟨0⟩ ⟨1⟩ := ⟨_, rfl, rfl⟩
  have home : atlas.Home ⟨0⟩ ⟨0⟩ := ⟨_, rfl, rfl⟩
  have inside : atlas.Home ⟨1⟩ ⟨1⟩ := ⟨_, rfl, rfl⟩
  have outside : ¬ atlas.Home ⟨1⟩ ⟨0⟩ := fun both => absurd (both.unique inside) (by decide)
  have isTop : atlas.IsTop ⟨0⟩ ⟨0⟩ := ⟨_, rfl, rfl, rfl⟩
  have stands : atlas.StandsFor ⟨0⟩ ⟨0⟩ := ⟨_, rfl, rfl⟩
  have namesake : atlas.IsNamesake ⟨1⟩ ⟨1⟩ := ⟨_, _, rfl, rfl, rfl, rfl⟩
  obtain ⟨_, children, _, members⟩ := lists ⟨0⟩ _ rfl
  have isRoot := ((roots ⟨0⟩ _ rfl).1 ⟨0⟩).2 ⟨isTop, fun _ _ => Nat.zero_le _⟩
  refine ⟨by decide, ⟨isParent, (parents ⟨0⟩ ⟨1⟩ isParent).1⟩, ⟨_, rfl, ?_⟩, ⟨_, rfl, ?_⟩,
    ⟨stands, (standing ⟨0⟩ ⟨0⟩ stands).1⟩, namesake, (namesakes ⟨1⟩ ⟨1⟩ namesake).1⟩
  · exact ⟨(children ⟨1⟩).1 isParent, (members ⟨0⟩).1 home, outside, (members ⟨1⟩).2 outside⟩
  · exact ⟨⟨_, rfl, rfl, rfl⟩, isRoot⟩

end Atlas

end ModuleAtlas
