import ModuleAtlas.Proofs.Fan
import ModuleAtlas.Proofs.Lookup

/-!
# Well-formed atlases

What every operation may rely on.  Both hierarchies relate exactly the known modules and are closed,
groups list modules of their own, a default module is one of the members, a parent is older than
its children, and a module is nested only under the default module of its group or of a group above.
Each step by which an atlas grows keeps this.
-/

namespace ModuleAtlas

namespace Atlas

/-! ## Who may own whom -/

def Home (atlas : Atlas) (module : ModuleId) (group : GroupId) : Prop :=
  ∃ entity, atlas.module? module = some entity ∧ entity.group = some group

def StandsFor (atlas : Atlas) (module : ModuleId) (group : GroupId) : Prop :=
  ∃ entity, atlas.group? group = some entity ∧ entity.defaultModule = some module

def IsParent (atlas : Atlas) (parent group : GroupId) : Prop :=
  ∃ entity, atlas.group? group = some entity ∧ entity.parent = some parent

/-- A group is another one, its parent, the parent of that or so on. -/
def AtOrAbove (atlas : Atlas) : GroupId → GroupId → Prop := Relation.ReflTransGen atlas.IsParent

/-- One module is the default module at or above the group of the other one. -/
def MayOwn (atlas : Atlas) (owner member : ModuleId) : Prop :=
  owner ≠ member ∧ ∃ upper lower, atlas.StandsFor owner upper ∧ atlas.Home member lower ∧
    atlas.AtOrAbove upper lower

/-- The invariant of all atlases that operations produce. -/
structure WellFormed (atlas : Atlas) : Prop where
  checked : ∀ axis, (atlas.hierarchy axis).checkAcyclic = atlas.settings.checkAcyclic
  closed : ∀ axis, (atlas.hierarchy axis).Closed
  nodes : ∀ axis, (atlas.hierarchy axis).nodes = atlas.modules.map Module.id
  ids : ∀ {id entity}, atlas.module? id = some entity → entity.id = id
  members : ∀ {group home module}, atlas.group? group = some home → module ∈ home.members →
    atlas.Home module group
  standing : ∀ {group home module}, atlas.group? group = some home →
    home.defaultModule = some module → module ∈ home.members
  parents : ∀ {parent group}, atlas.IsParent parent group → parent.index < group.index
  owners : ∀ {owner member}, atlas.nesting.hasDirectEdge owner member → atlas.MayOwn owner member

theorem Home.unique {atlas : Atlas} {module : ModuleId} {first second : GroupId}
    (homeFirst : atlas.Home module first) (homeSecond : atlas.Home module second) :
    first = second := by
  obtain ⟨entity, found, isFirst⟩ := homeFirst
  obtain ⟨other, foundOther, isSecond⟩ := homeSecond
  rw [found, Option.some.injEq] at foundOther
  rw [← foundOther, isFirst, Option.some.injEq] at isSecond
  exact isSecond

theorem StandsFor.unique {atlas : Atlas} {first second : ModuleId} {group : GroupId}
    (isFirst : atlas.StandsFor first group) (isSecond : atlas.StandsFor second group) :
    first = second := by
  obtain ⟨entity, found, defaultFirst⟩ := isFirst
  obtain ⟨other, foundOther, defaultSecond⟩ := isSecond
  rw [found, Option.some.injEq] at foundOther
  rw [← foundOther, defaultFirst, Option.some.injEq] at defaultSecond
  exact defaultSecond

namespace WellFormed

variable {atlas : Atlas}

theorem known_iff_mem_ids (wellFormed : atlas.WellFormed) {id : ModuleId} :
    (∃ entity, atlas.module? id = some entity) ↔ id ∈ atlas.modules.map Module.id := by
  constructor
  · rintro ⟨entity, found⟩
    refine List.mem_map.2 ⟨entity, List.mem_of_getElem? found, wellFormed.ids found⟩
  · intro listed
    obtain ⟨entity, member, rfl⟩ := List.mem_map.1 listed
    obtain ⟨index, found⟩ := List.mem_iff_getElem?.1 member
    have isId : entity.id = ⟨index⟩ := wellFormed.ids found
    exact ⟨entity, by rw [isId]; exact found⟩

/-- Handles are positions, so no two modules share one. -/
theorem nodup_ids (wellFormed : atlas.WellFormed) : (atlas.modules.map Module.id).Nodup := by
  have position {k : Nat} (inside : k < (atlas.modules.map Module.id).length) :
      (atlas.modules.map Module.id)[k] = ⟨k⟩ := by
    rw [List.getElem_map]
    have inside : k < atlas.modules.length := by simpa using inside
    have found : atlas.module? ⟨k⟩ = some atlas.modules[k] := List.getElem?_eq_getElem inside
    exact wellFormed.ids found
  refine List.pairwise_iff_getElem.2 fun i j insideI insideJ less same => ?_
  rw [position insideI, position insideJ] at same
  have index : i = j := congrArg Handle.index same
  omega

/-- A module is known exactly if it is a node of a hierarchy. -/
theorem contains_iff_known (wellFormed : atlas.WellFormed) {axis : Axis} {id : ModuleId} :
    (atlas.hierarchy axis).contains id ↔ ∃ entity, atlas.module? id = some entity := by
  rw [Hierarchy.contains_iff_mem_nodes, wellFormed.nodes, wellFormed.known_iff_mem_ids]

theorem contains_of_home (wellFormed : atlas.WellFormed) {axis : Axis} {module : ModuleId}
    {group : GroupId} (home : atlas.Home module group) :
    (atlas.hierarchy axis).contains module := by
  obtain ⟨entity, found, _⟩ := home
  exact wellFormed.contains_iff_known.2 ⟨entity, found⟩

/-- The default module of a group belongs to that group. -/
theorem home_of_standsFor (wellFormed : atlas.WellFormed) {module : ModuleId} {group : GroupId}
    (stands : atlas.StandsFor module group) : atlas.Home module group := by
  obtain ⟨entity, found, isDefault⟩ := stands
  exact wellFormed.members found (wellFormed.standing found isDefault)

/-- A group strictly above another one is older. -/
theorem eq_or_older (wellFormed : atlas.WellFormed) {upper lower : GroupId}
    (above : atlas.AtOrAbove upper lower) : upper = lower ∨ upper.index < lower.index := by
  induction above with
  | refl => exact Or.inl rfl
  | tail _ parent ih =>
    have older := wellFormed.parents parent
    rcases ih with rfl | earlier
    · exact Or.inr older
    · exact Or.inr (Nat.lt_trans earlier older)

/-- A default module may own all other members of its group. -/
theorem mayOwn_others (wellFormed : atlas.WellFormed) {group : GroupId} {home : Group}
    {owner : ModuleId} (found : atlas.group? group = some home)
    (stands : home.defaultModule = some owner) :
    ∀ member ∈ home.members.filter fun member => member ≠ owner, atlas.MayOwn owner member := by
  intro member listed
  obtain ⟨isMember, different⟩ := List.mem_filter.1 listed
  refine ⟨fun same => of_decide_eq_true different same.symm, group, group, ⟨home, found, stands⟩,
    wellFormed.members found isMember, .refl⟩

theorem mayOwn_trans (wellFormed : atlas.WellFormed) {first second third : ModuleId}
    (upperOwn : atlas.MayOwn first second) (lowerOwn : atlas.MayOwn second third) :
    atlas.MayOwn first third := by
  obtain ⟨different, top, middle, standsFirst, homeSecond, aboveMiddle⟩ := upperOwn
  obtain ⟨_, middle', bottom, standsSecond, homeThird, aboveBottom⟩ := lowerOwn
  obtain rfl : middle' = middle := (wellFormed.home_of_standsFor standsSecond).unique homeSecond
  refine ⟨?_, top, bottom, standsFirst, homeThird, aboveMiddle.trans aboveBottom⟩
  -- in a circle all three groups are the same, which has one default module only
  rintro rfl
  obtain rfl : top = bottom := (wellFormed.home_of_standsFor standsFirst).unique homeThird
  rcases wellFormed.eq_or_older aboveMiddle with rfl | older
  · exact different (standsFirst.unique standsSecond)
  · rcases wellFormed.eq_or_older aboveBottom with rfl | younger
    · exact absurd older (Nat.lt_irrefl _)
    · exact absurd (Nat.lt_trans older younger) (Nat.lt_irrefl _)

/-- Whatever is nested in a module, directly or through others, may be owned by it. -/
theorem mayOwn_of_path (wellFormed : atlas.WellFormed) {owner member : ModuleId}
    (path : atlas.nesting.Path owner member) : atlas.MayOwn owner member := by
  induction path with
  | single edge => exact wellFormed.owners edge
  | tail _ edge ih => exact wellFormed.mayOwn_trans ih (wellFormed.owners edge)

theorem not_path_of_mayOwn (wellFormed : atlas.WellFormed) {owner member : ModuleId}
    (own : atlas.MayOwn owner member) : ¬ atlas.nesting.Path member owner := by
  intro back
  exact (wellFormed.mayOwn_trans own (wellFormed.mayOwn_of_path back)).1 rfl

/-- Nesting edges from an owner to those that it may own are never refused. -/
theorem extendable_nesting (wellFormed : atlas.WellFormed) {owner : ModuleId}
    (known : atlas.nesting.contains owner) {members : List ModuleId}
    (own : ∀ member ∈ members, atlas.MayOwn owner member) :
    atlas.nesting.Extendable owner members where
  sourceKnown := known
  targetsKnown := by
    intro member listed
    obtain ⟨_, _, _, _, home, _⟩ := own member listed
    have contained : (atlas.hierarchy .nesting).contains member := wellFormed.contains_of_home home
    exact contained
  harmless := by
    intro _ member listed
    have mayOwn := own member listed
    exact ⟨fun same => mayOwn.1 same.symm, wellFormed.not_path_of_mayOwn mayOwn⟩

end WellFormed

/-! ## The nearest default module -/

theorem atOrAbove_of_mem_climb {atlas : Atlas} {entity : Group} (steps : Nat) {group : GroupId}
    (member : entity ∈ atlas.climb steps group) :
    ∃ upper, atlas.group? upper = some entity ∧ atlas.AtOrAbove upper group := by
  induction steps generalizing group with
  | zero => cases member
  | succ steps ih =>
    rw [climb] at member
    cases found : atlas.group? group with
    | none =>
      rw [found] at member
      cases member
    | some first =>
      rw [found] at member
      rcases List.mem_cons.1 member with rfl | further
      · exact ⟨group, found, .refl⟩
      · cases isParent : first.parent with
        | none =>
          rw [isParent] at further
          cases further
        | some parent =>
          rw [isParent] at further
          obtain ⟨upper, foundUpper, above⟩ := ih further
          exact ⟨upper, foundUpper, above.tail ⟨first, found, isParent⟩⟩

/-- The module that a member of a group is nested under may own it. -/
theorem mayOwn_of_ownerIn {atlas : Atlas} {group : GroupId} {module owner : ModuleId}
    (home : atlas.Home module group) (found : atlas.ownerIn group module = some owner) :
    (∃ upper, atlas.StandsFor owner upper) ∧ atlas.MayOwn owner module := by
  obtain ⟨entity, member, isDefault⟩ := List.exists_of_findSome?_eq_some found
  obtain ⟨defaultModule, different⟩ := Option.filter_eq_some_iff.1 isDefault
  obtain ⟨upper, foundUpper, above⟩ := atOrAbove_of_mem_climb _ member
  have stands : atlas.StandsFor owner upper := ⟨entity, foundUpper, defaultModule⟩
  exact ⟨⟨upper, stands⟩, of_decide_eq_true different, upper, group, stands, home, above⟩

end Atlas

end ModuleAtlas
