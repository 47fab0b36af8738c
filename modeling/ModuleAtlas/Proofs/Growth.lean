import ModuleAtlas.Proofs.WellFormed

/-!
# Growth keeps atlases well-formed

One lemma for each step by which an atlas grows, with the condition under which the step is taken.
-/

namespace ModuleAtlas

namespace Atlas

/-- Whoever may own whom in one atlas still may in another one. -/
theorem MayOwn.mono {atlas after : Atlas}
    (home : ∀ {module group}, atlas.Home module group → after.Home module group)
    (stands : ∀ {module group}, atlas.StandsFor module group → after.StandsFor module group)
    (parent : ∀ {upper lower}, atlas.IsParent upper lower → after.IsParent upper lower)
    {owner member : ModuleId} (own : atlas.MayOwn owner member) : after.MayOwn owner member := by
  obtain ⟨different, upper, lower, standsUpper, homeLower, above⟩ := own
  exact ⟨different, upper, lower, stands standsUpper, home homeLower,
    Relation.ReflTransGen.mono (fun _ _ => parent) _ _ above⟩

theorem wellFormed_empty (settings : Settings) : (empty settings).WellFormed where
  checked := by
    intro axis
    cases axis with
    | nesting => rfl
    | importation => rfl
  closed := by
    intro axis
    cases axis with
    | nesting => exact Hierarchy.closed_withAcyclicCheck (Hierarchy.closed_empty _) _
    | importation => exact Hierarchy.closed_withAcyclicCheck (Hierarchy.closed_empty _) _
  nodes := by
    intro axis
    cases axis with
    | nesting => rfl
    | importation => rfl
  ids := by
    intro id entity found
    simp [module?, empty] at found
  members := by
    intro group home module found
    simp [group?, empty] at found
  standing := by
    intro group home module found
    simp [group?, empty] at found
  parents := by
    rintro parent group ⟨entity, found, _⟩
    simp [group?, empty] at found
  owners := fun edge => nomatch edge

/-! ## Steps that change groups only -/

/-- A step after which everything but the projects and groups is as before. -/
structure Regroups (before after : Atlas) : Prop where
  settings : after.settings = before.settings
  modules : after.modules = before.modules
  hierarchy : ∀ axis, after.hierarchy axis = before.hierarchy axis

namespace Regroups

variable {before after : Atlas}

theorem module? (regroups : Regroups before after) (id : ModuleId) :
    after.module? id = before.module? id := by
  unfold Atlas.module?
  rw [regroups.modules]

theorem home_iff (regroups : Regroups before after) {module : ModuleId} {group : GroupId} :
    after.Home module group ↔ before.Home module group := by
  unfold Home
  rw [regroups.module?]

/-- What is left to show of the atlas after such a step. -/
theorem wellFormed (regroups : Regroups before after) (wellFormed : before.WellFormed)
    (members : ∀ {group home module}, after.group? group = some home → module ∈ home.members →
      before.Home module group)
    (standing : ∀ {group home module}, after.group? group = some home →
      home.defaultModule = some module → module ∈ home.members)
    (parents : ∀ {parent group}, after.IsParent parent group → parent.index < group.index)
    (stands : ∀ {module group}, before.StandsFor module group → after.StandsFor module group)
    (parent : ∀ {upper lower}, before.IsParent upper lower → after.IsParent upper lower) :
    after.WellFormed where
  checked := by
    intro axis
    rw [regroups.hierarchy, regroups.settings]
    exact wellFormed.checked axis
  closed := by
    intro axis
    rw [regroups.hierarchy]
    exact wellFormed.closed axis
  nodes := by
    intro axis
    rw [regroups.hierarchy, regroups.modules]
    exact wellFormed.nodes axis
  ids := by
    intro id entity found
    rw [regroups.module?] at found
    exact wellFormed.ids found
  members := fun found member => regroups.home_iff.2 (members found member)
  standing := standing
  parents := parents
  owners := by
    intro owner member edge
    have same : after.nesting = before.nesting := regroups.hierarchy .nesting
    rw [same] at edge
    exact (wellFormed.owners edge).mono regroups.home_iff.2 stands parent

end Regroups

theorem regroups_addGroup (atlas : Atlas) (group : Group) :
    Regroups atlas (atlas.addGroup group) := by
  unfold addGroup
  cases group.parent with
  | none => exact ⟨rfl, rfl, fun axis => rfl⟩
  | some parent => exact ⟨rfl, rfl, fun axis => rfl⟩

theorem regroups_addMember (atlas : Atlas) (group : GroupId) (module : ModuleId) :
    Regroups atlas (atlas.addMember group module) := ⟨rfl, rfl, fun _ => rfl⟩

theorem regroups_designate (atlas : Atlas) (group : GroupId) (module : ModuleId) :
    Regroups atlas (atlas.designate group module) := ⟨rfl, rfl, fun _ => rfl⟩

theorem wellFormed_addProject {atlas : Atlas} (wellFormed : atlas.WellFormed) (project : Project) :
    { atlas with projects := atlas.projects ++ [project] : Atlas }.WellFormed := by
  have regroups : Regroups atlas { atlas with projects := atlas.projects ++ [project] } :=
    ⟨rfl, rfl, fun _ => rfl⟩
  exact regroups.wellFormed wellFormed wellFormed.members wellFormed.standing wellFormed.parents
    id id

/-- A new group has neither members nor a default module, and its parent is known. -/
theorem wellFormed_addGroup {atlas : Atlas} (wellFormed : atlas.WellFormed) {group : Group}
    (memberless : group.members = []) (vacant : group.defaultModule = none)
    (parentKnown : ∀ parent, group.parent = some parent →
      ∃ entity, atlas.group? parent = some entity) :
    (atlas.addGroup group).WellFormed := by
  refine (regroups_addGroup atlas group).wellFormed wellFormed ?_ ?_ ?_ ?_ ?_
  · intro id home module found member
    obtain ⟨old, _, rfl, known | ⟨_, rfl⟩⟩ := group?_addGroup_cases found
    · exact wellFormed.members known member
    · rw [memberless] at member
      cases member
  · intro id home module found isDefault
    obtain ⟨old, _, rfl, known | ⟨_, rfl⟩⟩ := group?_addGroup_cases found
    · have member : module ∈ old.members := wellFormed.standing known isDefault
      exact member
    · rw [vacant] at isDefault
      cases isDefault
  · rintro parent id ⟨entity, found, isParent⟩
    obtain ⟨old, _, rfl, known | ⟨rfl, rfl⟩⟩ := group?_addGroup_cases found
    · exact wellFormed.parents ⟨old, known, isParent⟩
    · obtain ⟨_, knownParent⟩ := parentKnown parent isParent
      exact (List.getElem?_eq_some_iff.1 knownParent).1
  · rintro module id ⟨entity, known, isDefault⟩
    obtain ⟨_, found⟩ := group?_addGroup_of_some known group
    exact ⟨_, found, isDefault⟩
  · rintro parent id ⟨entity, known, isParent⟩
    obtain ⟨_, found⟩ := group?_addGroup_of_some known group
    exact ⟨_, found, isParent⟩

/-- A module is noted as a member of the group that it was created in. -/
theorem wellFormed_addMember {atlas : Atlas} (wellFormed : atlas.WellFormed) {group : GroupId}
    {module : ModuleId} (home : atlas.Home module group) :
    (atlas.addMember group module).WellFormed := by
  refine (regroups_addMember atlas group module).wellFormed wellFormed ?_ ?_ ?_ ?_ ?_
  · intro id entity other found member
    rw [group?_addMember] at found
    obtain ⟨old, known, rfl⟩ := Option.map_eq_some_iff.1 found
    split at member
    next same =>
      rcases List.mem_append.1 member with earlier | last
      · exact wellFormed.members known earlier
      · rw [List.mem_singleton.1 last, ← same]
        exact home
    next => exact wellFormed.members known member
  · intro id entity other found isDefault
    rw [group?_addMember] at found
    obtain ⟨old, known, rfl⟩ := Option.map_eq_some_iff.1 found
    split at isDefault
    next same =>
      rw [if_pos same]
      exact List.mem_append_left _ (wellFormed.standing known isDefault)
    next different =>
      rw [if_neg different]
      exact wellFormed.standing known isDefault
  · rintro parent id ⟨entity, found, isParent⟩
    rw [group?_addMember] at found
    obtain ⟨old, known, rfl⟩ := Option.map_eq_some_iff.1 found
    refine wellFormed.parents ⟨old, known, ?_⟩
    split at isParent <;> exact isParent
  · rintro other id ⟨entity, known, isDefault⟩
    refine ⟨_, by rw [group?_addMember, known]; rfl, ?_⟩
    split <;> exact isDefault
  · rintro parent id ⟨entity, known, isParent⟩
    refine ⟨_, by rw [group?_addMember, known]; rfl, ?_⟩
    split <;> exact isParent

/-- A member gets to stand for a group that no module stands for. -/
theorem wellFormed_designate {atlas : Atlas} (wellFormed : atlas.WellFormed) {group : GroupId}
    {module : ModuleId} {home : Group} (found : atlas.group? group = some home)
    (vacant : home.defaultModule = none) (member : module ∈ home.members) :
    (atlas.designate group module).WellFormed := by
  refine (regroups_designate atlas group module).wellFormed wellFormed ?_ ?_ ?_ ?_ ?_
  · intro id entity other foundAfter listed
    rw [group?_designate] at foundAfter
    obtain ⟨old, known, rfl⟩ := Option.map_eq_some_iff.1 foundAfter
    apply wellFormed.members known
    split at listed <;> exact listed
  · intro id entity other foundAfter isDefault
    rw [group?_designate] at foundAfter
    obtain ⟨old, known, rfl⟩ := Option.map_eq_some_iff.1 foundAfter
    split at isDefault
    next same =>
      rw [if_pos same]
      rw [← same, found] at known
      rw [← Option.some.inj known, ← Option.some.inj isDefault]
      exact member
    next different =>
      rw [if_neg different]
      exact wellFormed.standing known isDefault
  · rintro parent id ⟨entity, foundAfter, isParent⟩
    rw [group?_designate] at foundAfter
    obtain ⟨old, known, rfl⟩ := Option.map_eq_some_iff.1 foundAfter
    refine wellFormed.parents ⟨old, known, ?_⟩
    split at isParent <;> exact isParent
  · rintro other id ⟨entity, known, isDefault⟩
    refine ⟨_, by rw [group?_designate, known]; rfl, ?_⟩
    split
    next same =>
      rw [← same, found] at known
      rw [← Option.some.inj known, vacant] at isDefault
      cases isDefault
    next => exact isDefault
  · rintro parent id ⟨entity, known, isParent⟩
    refine ⟨_, by rw [group?_designate, known]; rfl, ?_⟩
    split <;> exact isParent

/-! ## Steps that change modules -/

/-- A new module takes the next handle; no edge touches it and no group lists it yet. -/
theorem wellFormed_addModule {atlas : Atlas} (wellFormed : atlas.WellFormed) {module : Module}
    (next : module.id = ⟨atlas.modules.length⟩) : (atlas.addModule module).WellFormed := by
  have fresh : module.id ∉ atlas.modules.map Module.id := by
    rw [← wellFormed.known_iff_mem_ids, next]
    rintro ⟨entity, found⟩
    exact absurd (List.getElem?_eq_some_iff.1 found).1 (Nat.lt_irrefl _)
  have registers (axis : Axis) : (atlas.addModule module).hierarchy axis =
      (atlas.hierarchy axis).register module.id := by
    cases axis with
    | nesting => rfl
    | importation => rfl
  have home {id : ModuleId} {group : GroupId} (before : atlas.Home id group) :
      (atlas.addModule module).Home id group := by
    obtain ⟨entity, known, isGroup⟩ := before
    exact ⟨entity, module?_addModule_of_some known module, isGroup⟩
  refine ⟨?_, ?_, ?_, ?_, ?_, wellFormed.standing, wellFormed.parents, ?_⟩
  · intro axis
    rw [registers, Hierarchy.checkAcyclic_register]
    exact wellFormed.checked axis
  · intro axis
    rw [registers]
    exact Hierarchy.closed_register (wellFormed.closed axis) module.id
  · intro axis
    rw [registers, Hierarchy.nodes_register, wellFormed.nodes axis, if_neg fresh]
    simp [addModule]
  · intro id entity found
    rcases module?_addModule_cases found with known | ⟨rfl, rfl⟩
    · exact wellFormed.ids known
    · exact next
  · exact fun found member => home (wellFormed.members found member)
  · intro owner member edge
    have old : atlas.nesting.hasDirectEdge owner member := by
      rw [← Hierarchy.hasDirectEdge_register atlas.nesting module.id]
      exact edge
    exact (wellFormed.owners old).mono home id id

/-- What is attached to a module or absorbed by it changes neither its handle nor its group. -/
theorem wellFormed_updateModule {atlas : Atlas} (wellFormed : atlas.WellFormed) (changed : ModuleId)
    {change : Module → Module}
    (sameId : ∀ {entity}, atlas.module? changed = some entity → (change entity).id = entity.id)
    (sameGroup : ∀ {entity}, atlas.module? changed = some entity →
      (change entity).group = entity.group) :
    (atlas.updateModule changed change).WellFormed := by
  have home {module : ModuleId} {group : GroupId} (before : atlas.Home module group) :
      (atlas.updateModule changed change).Home module group := by
    obtain ⟨entity, known, isGroup⟩ := before
    refine ⟨_, by rw [module?_updateModule, known]; rfl, ?_⟩
    split
    next same => exact (sameGroup (same ▸ known)).trans isGroup
    next => exact isGroup
  refine ⟨wellFormed.checked, wellFormed.closed, ?_, ?_, ?_, wellFormed.standing,
    wellFormed.parents, ?_⟩
  · intro axis
    have sameIds : (atlas.updateModule changed change).modules.map Module.id =
        atlas.modules.map Module.id := by
      refine List.ext_getElem? fun index => ?_
      have found := module?_updateModule atlas changed ⟨index⟩ change
      simp only [module?] at found
      rw [List.getElem?_map, List.getElem?_map, found]
      cases known : atlas.modules[index]? with
      | none => rfl
      | some entity =>
        simp only [Option.map_some, Option.some.injEq]
        split
        next same => exact sameId (same ▸ known)
        next => rfl
    rw [sameIds]
    exact wellFormed.nodes axis
  · intro other entity found
    rw [module?_updateModule] at found
    obtain ⟨old, known, rfl⟩ := Option.map_eq_some_iff.1 found
    split
    next same => exact (sameId (same ▸ known)).trans (wellFormed.ids known)
    next => exact wellFormed.ids known
  · exact fun found member => home (wellFormed.members found member)
  · exact fun edge => (wellFormed.owners edge).mono home id id

/-! ## Steps that change a hierarchy -/

/-- An owner gets members nested under it that it may own. -/
theorem wellFormed_nest {atlas : Atlas} (wellFormed : atlas.WellFormed) {owner : ModuleId}
    {members : List ModuleId} (own : ∀ member ∈ members, atlas.MayOwn owner member) :
    (atlas.withHierarchy .nesting
      (atlas.nesting.run (Hierarchy.fan owner members))).WellFormed := by
  refine ⟨?_, ?_, ?_, wellFormed.ids, wellFormed.members, wellFormed.standing,
    wellFormed.parents, ?_⟩
  · intro axis
    cases axis with
    | nesting =>
      exact (Hierarchy.checkAcyclic_run_fan _ _ _).trans (wellFormed.checked .nesting)
    | importation => exact wellFormed.checked .importation
  · intro axis
    cases axis with
    | nesting => exact Hierarchy.closed_run (wellFormed.closed .nesting) _
    | importation => exact wellFormed.closed .importation
  · intro axis
    cases axis with
    | nesting => exact (Hierarchy.nodes_run_fan _ _ _).trans (wellFormed.nodes .nesting)
    | importation => exact wellFormed.nodes .importation
  · intro upper lower edge
    rcases (Hierarchy.hasDirectEdge_run atlas.nesting _ upper lower).1 edge with old | new
    · exact (wellFormed.owners old).mono id id id
    · obtain ⟨rfl, listed⟩ := Hierarchy.mem_fan.1 new.mem
      exact (own lower listed).mono id id id

/-- A module gets imports. -/
theorem wellFormed_import {atlas : Atlas} (wellFormed : atlas.WellFormed) (module : ModuleId)
    (imports : List ModuleId) :
    (atlas.withHierarchy .importation
      (atlas.importation.run (Hierarchy.fan module imports))).WellFormed := by
  refine ⟨?_, ?_, ?_, wellFormed.ids, wellFormed.members, wellFormed.standing,
    wellFormed.parents, ?_⟩
  · intro axis
    cases axis with
    | nesting => exact wellFormed.checked .nesting
    | importation =>
      exact (Hierarchy.checkAcyclic_run_fan _ _ _).trans (wellFormed.checked .importation)
  · intro axis
    cases axis with
    | nesting => exact wellFormed.closed .nesting
    | importation => exact Hierarchy.closed_run (wellFormed.closed .importation) _
  · intro axis
    cases axis with
    | nesting => exact wellFormed.nodes .nesting
    | importation => exact (Hierarchy.nodes_run_fan _ _ _).trans (wellFormed.nodes .importation)
  · exact fun edge => (wellFormed.owners edge).mono id id id

end Atlas

end ModuleAtlas
