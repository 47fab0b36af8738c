import ModuleAtlas.Atlas.Basic
import ModuleAtlas.Hierarchy.Edit

/-!
# Look-ups after growth

What is found in an atlas after one of the steps by which it grows.
-/

namespace ModuleAtlas

namespace Atlas

theorem getElem?_concat_eq_or {α : Type} (items : List α) (item : α) (index : Nat) :
    (items ++ [item])[index]? =
      items[index]?.or (if index = items.length then some item else none) := by
  rw [List.getElem?_append]
  split
  next inside =>
    rw [List.getElem?_eq_getElem inside, Option.some_or]
  next outside =>
    rw [List.getElem?_eq_none (Nat.le_of_not_lt outside), Option.none_or]
    split
    next last => simp [last]
    next beyond =>
      rw [List.getElem?_eq_none]
      have : items.length < index := by omega
      simp only [List.length_cons, List.length_nil]
      omega

theorem getElem?_concat_of_some {α : Type} {items : List α} {index : Nat} {found : α}
    (known : items[index]? = some found) (item : α) : (items ++ [item])[index]? = some found := by
  rw [getElem?_concat_eq_or, known, Option.some_or]

/-- What is found after an item was added was there before or is the new item. -/
theorem getElem?_concat_cases {α : Type} {items : List α} {item found : α} {index : Nat}
    (present : (items ++ [item])[index]? = some found) :
    items[index]? = some found ∨ index = items.length ∧ found = item := by
  rw [getElem?_concat_eq_or] at present
  cases known : items[index]? with
  | some other =>
    rw [known] at present
    exact Or.inl present
  | none =>
    rw [known, Option.none_or] at present
    split at present
    next last => exact Or.inr ⟨last, (Option.some.inj present).symm⟩
    next => cases present

/-! ## Modules -/

theorem module?_addModule (atlas : Atlas) (module : Module) (id : ModuleId) :
    (atlas.addModule module).module? id =
      (atlas.module? id).or (if id.index = atlas.modules.length then some module else none) :=
  getElem?_concat_eq_or atlas.modules module id.index

theorem module?_addModule_of_some {atlas : Atlas} {id : ModuleId} {entity : Module}
    (known : atlas.module? id = some entity) (module : Module) :
    (atlas.addModule module).module? id = some entity :=
  getElem?_concat_of_some known module

theorem module?_addModule_new (atlas : Atlas) (module : Module) :
    (atlas.addModule module).module? ⟨atlas.modules.length⟩ = some module := by
  rw [module?_addModule, if_pos rfl]
  have none : atlas.module? ⟨atlas.modules.length⟩ = none := List.getElem?_eq_none (Nat.le_refl _)
  rw [none, Option.none_or]

theorem module?_addModule_cases {atlas : Atlas} {module entity : Module} {id : ModuleId}
    (found : (atlas.addModule module).module? id = some entity) :
    atlas.module? id = some entity ∨ id = ⟨atlas.modules.length⟩ ∧ entity = module :=
  (getElem?_concat_cases found).imp_right (And.imp_left Handle.ext)

theorem module?_updateModule (atlas : Atlas) (id other : ModuleId) (change : Module → Module) :
    (atlas.updateModule id change).module? other =
      (atlas.module? other).map fun entity => if id = other then change entity else entity := by
  unfold module? updateModule
  rw [List.getElem?_modify, Option.map_eq_map]
  simp only [Handle.ext_iff]

/-! ## Groups -/

theorem group?_addMember (atlas : Atlas) (group id : GroupId) (module : ModuleId) :
    (atlas.addMember group module).group? id =
      (atlas.group? id).map fun entity =>
        if group = id then { entity with members := entity.members ++ [module] } else entity := by
  unfold group? addMember
  rw [List.getElem?_modify, Option.map_eq_map]
  simp only [Handle.ext_iff]

theorem group?_designate (atlas : Atlas) (group id : GroupId) (module : ModuleId) :
    (atlas.designate group module).group? id =
      (atlas.group? id).map fun entity =>
        if group = id then { entity with defaultModule := some module } else entity := by
  unfold group? designate
  rw [List.getElem?_modify, Option.map_eq_map]
  simp only [Handle.ext_iff]

/-- A new group is found behind all others, and its parent notes it as the last of its children. -/
theorem group?_addGroup (atlas : Atlas) (group : Group) (id : GroupId) :
    (atlas.addGroup group).group? id = (atlas.groups ++ [group])[id.index]?.map fun entity =>
      if group.parent = some id then { entity with children := entity.children ++ [group.id] }
      else entity := by
  cases isRoot : group.parent with
  | none =>
    have same : (atlas.addGroup group).groups = atlas.groups ++ [group] := by
      simp [addGroup, isRoot]
    simp only [group?, same, reduceCtorEq, if_false, Option.map_id']
  | some parent =>
    have noted : (atlas.addGroup group).groups =
        noteChild (atlas.groups ++ [group]) parent group.id := by
      simp [addGroup, isRoot]
    simp only [group?, noted, noteChild, List.getElem?_modify, Option.map_eq_map,
      Option.some.injEq, Handle.ext_iff]

theorem group?_addGroup_of_some {atlas : Atlas} {id : GroupId} {entity : Group}
    (known : atlas.group? id = some entity) (group : Group) :
    ∃ children, (atlas.addGroup group).group? id = some { entity with children } := by
  rw [group?_addGroup, getElem?_concat_of_some known, Option.map_some]
  split
  · exact ⟨_, rfl⟩
  · exact ⟨entity.children, rfl⟩

theorem group?_addGroup_cases {atlas : Atlas} {group entity : Group} {id : GroupId}
    (found : (atlas.addGroup group).group? id = some entity) :
    ∃ old children, entity = { old with children } ∧
      (atlas.group? id = some old ∨ id = ⟨atlas.groups.length⟩ ∧ old = group) := by
  rw [group?_addGroup] at found
  obtain ⟨old, present, rfl⟩ := Option.map_eq_some_iff.1 found
  have origin : atlas.group? id = some old ∨ id = ⟨atlas.groups.length⟩ ∧ old = group :=
    (getElem?_concat_cases present).imp_right (And.imp_left Handle.ext)
  split
  · exact ⟨old, _, rfl, origin⟩
  · exact ⟨old, old.children, rfl, origin⟩

/-! ## Projects -/

/-- The first group without parent becomes the root of its project. -/
theorem project?_addGroup (atlas : Atlas) (group : Group) (id : ProjectId) :
    (atlas.addGroup group).project? id = (atlas.project? id).map fun project =>
      if group.parent = none ∧ group.project = id then
        { project with root := project.root.or (some group.id) }
      else project := by
  cases isRoot : group.parent with
  | none =>
    have noted : (atlas.addGroup group).projects =
        noteRoot atlas.projects group.project group.id := by
      simp [addGroup, isRoot]
    simp only [project?, noted, noteRoot, List.getElem?_modify, Option.map_eq_map, true_and,
      Handle.ext_iff]
  | some parent =>
    have same : (atlas.addGroup group).projects = atlas.projects := by
      simp [addGroup, isRoot]
    simp only [project?, same, reduceCtorEq, false_and, if_false, Option.map_id']

end Atlas

end ModuleAtlas
