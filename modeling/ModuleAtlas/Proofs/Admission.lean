import ModuleAtlas.Proofs.Plan

/-!
# What an accepted plan tells

The conditions under which each plan succeeds, and the atlas that it leads to.
-/

namespace ModuleAtlas

theorem bind_eq_ok {ε α β : Type} {first : Except ε α} {next : α → Except ε β} {value : β} :
    first >>= next = .ok value ↔ ∃ middle, first = .ok middle ∧ next middle = .ok value := by
  cases first with
  | error fault => simp [bind, Except.bind]
  | ok middle => simp [bind, Except.bind]

/-- A guard lets pass what does not meet its condition. -/
theorem guard_eq_ok {ε β : Type} {condition : Prop} [Decidable condition] {fault : ε}
    {next : PUnit → Except ε β} {value : β} :
    (if condition then throw fault >>= next else next ⟨⟩) = .ok value ↔
      ¬ condition ∧ next ⟨⟩ = .ok value := by
  by_cases holds : condition
  · rw [if_pos holds]
    exact iff_of_false (fun passed => nomatch passed) fun passed => passed.1 holds
  · rw [if_neg holds]
    exact (and_iff_right holds).symm

namespace Atlas

open Loading (findProject_eq_ok_iff findGroup_eq_ok_iff findModule_eq_ok_iff next_eq_ok)

variable {atlas next : Atlas}

theorem planProject_ok {name : String} {id : ProjectId}
    (planned : atlas.planProject name = .ok (id, next)) :
    id = ⟨atlas.projects.length⟩ ∧
      next = { atlas with projects := atlas.projects ++ [{ id, name }] } := by
  obtain ⟨position, isNext, result⟩ := bind_eq_ok.1 planned
  obtain ⟨rfl, rfl⟩ := Prod.mk.inj (Except.ok.inj result)
  exact ⟨next_eq_ok isNext, rfl⟩

theorem planGroup_ok {project : ProjectId} {parent : Option GroupId} {name : String} {id : GroupId}
    (planned : atlas.planGroup project parent name = .ok (id, next)) :
    (∃ owner, atlas.project? project = some owner) ∧
      (∀ above, parent = some above → ∃ entity, atlas.group? above = some entity) ∧
      id = ⟨atlas.groups.length⟩ ∧ next = atlas.addGroup { id, name, project, parent } := by
  obtain ⟨owner, isOwner, planned⟩ := bind_eq_ok.1 planned
  refine ⟨⟨owner, findProject_eq_ok_iff.1 isOwner⟩, ?_⟩
  cases parent with
  | none =>
    obtain ⟨position, isNext, result⟩ := bind_eq_ok.1 planned
    obtain ⟨rfl, rfl⟩ := Prod.mk.inj (Except.ok.inj result)
    exact ⟨fun above isAbove => (nomatch isAbove), next_eq_ok isNext, rfl⟩
  | some parent =>
    obtain ⟨entity, isEntity, planned⟩ := bind_eq_ok.1 planned
    obtain ⟨position, isNext, result⟩ := bind_eq_ok.1 planned
    obtain ⟨rfl, rfl⟩ := Prod.mk.inj (Except.ok.inj result)
    refine ⟨?_, next_eq_ok isNext, rfl⟩
    rintro above ⟨⟩
    exact ⟨entity, findGroup_eq_ok_iff.1 isEntity⟩

theorem planLoose_ok {name : String} {location : Location} {fictive : Bool} {id : ModuleId}
    (planned : atlas.planLoose name location fictive = .ok (id, next)) :
    id = ⟨atlas.modules.length⟩ ∧
      next = atlas.addModule { id, name, fullName := name, location, group := none, fictive } := by
  obtain ⟨position, isNext, result⟩ := bind_eq_ok.1 planned
  obtain ⟨rfl, rfl⟩ := Prod.mk.inj (Except.ok.inj result)
  exact ⟨next_eq_ok isNext, rfl⟩

theorem planMember_ok {group : GroupId} {name : String} {location : Location} {id : ModuleId}
    (planned : atlas.planMember group name location = .ok (id, next)) :
    ∃ home project, atlas.group? group = some home ∧
      atlas.project? home.project = some project ∧
      (home.name = name → home.defaultModule = none) ∧ id = ⟨atlas.modules.length⟩ ∧
      next = atlas.joined group home
        { id, name, fullName := Module.qualified project.name name, location,
          group := some group } := by
  obtain ⟨position, isNext, planned⟩ := bind_eq_ok.1 planned
  obtain ⟨home, isHome, planned⟩ := bind_eq_ok.1 planned
  obtain ⟨project, isProject, planned⟩ := bind_eq_ok.1 planned
  dsimp only at planned
  have free : home.name = name → home.defaultModule = none := by
    intro named
    rw [if_pos named] at planned
    cases stands : home.defaultModule with
    | none => rfl
    | some existing =>
      rw [stands] at planned
      cases planned
  have result : (position, atlas.joined group home
      { id := position, name, fullName := Module.qualified project.name name, location,
        group := some group }) = (id, next) := by
    by_cases named : home.name = name
    · rw [if_pos named, free named] at planned
      exact Except.ok.inj planned
    · rw [if_neg named] at planned
      exact Except.ok.inj planned
  obtain ⟨rfl, rfl⟩ := Prod.mk.inj result
  exact ⟨home, project, findGroup_eq_ok_iff.1 isHome, findProject_eq_ok_iff.1 isProject, free,
    next_eq_ok isNext, rfl⟩

theorem planDefault_ok {group : GroupId} {module : ModuleId} {done : Unit}
    (planned : atlas.planDefault group module = .ok (done, next)) :
    ∃ home, atlas.group? group = some home ∧ module ∈ home.members ∧
      ((home.defaultModule = none ∧ next = atlas.appointed group home.members module) ∨
        (home.defaultModule = some module ∧ next = atlas)) := by
  obtain ⟨candidate, isCandidate, planned⟩ := bind_eq_ok.1 planned
  obtain ⟨home, isHome, planned⟩ := bind_eq_ok.1 planned
  obtain ⟨member, planned⟩ := guard_eq_ok.1 planned
  refine ⟨home, findGroup_eq_ok_iff.1 isHome, by simpa using member, ?_⟩
  cases stands : home.defaultModule with
  | none =>
    rw [stands] at planned
    exact Or.inl ⟨rfl, (Prod.mk.inj (Except.ok.inj planned)).2.symm⟩
  | some existing =>
    rw [stands] at planned
    dsimp only at planned
    split at planned
    next => cases planned
    next same =>
      refine Or.inr ⟨congrArg some (Decidable.not_not.1 same), ?_⟩
      exact (Prod.mk.inj (Except.ok.inj planned)).2.symm

/-- The entry of a module is found where it is registered. -/
theorem entry_eq_ok_iff {axis : Axis} {id : ModuleId} {entry : Hierarchy.Entry ModuleId} :
    atlas.entry axis id = .ok entry ↔ (atlas.hierarchy axis).get? id = some entry := by
  unfold Atlas.entry
  rw [← Hierarchy.entry_eq_ok_iff]
  cases (atlas.hierarchy axis).entry id with
  | ok found => simp
  | error refusal => simp

theorem planImports_eq_ok_iff {module : ModuleId} {imports : List ModuleId} :
    atlas.planImports module imports = .ok ((), next) ↔
      ∃ importer entry, atlas.module? module = some importer ∧
        atlas.importation.get? module = some entry ∧ entry.directBelow.isEmpty ∧
        atlas.checkImports module imports = .ok () ∧ next = atlas.importing module imports := by
  constructor
  · intro planned
    obtain ⟨importer, isImporter, planned⟩ := bind_eq_ok.1 planned
    obtain ⟨entry, isEntry, planned⟩ := bind_eq_ok.1 planned
    obtain ⟨importless, planned⟩ := guard_eq_ok.1 planned
    obtain ⟨⟨⟩, checked, result⟩ := bind_eq_ok.1 planned
    refine ⟨importer, entry, findModule_eq_ok_iff.1 isImporter, entry_eq_ok_iff.1 isEntry, ?_,
      checked, (Prod.mk.inj (Except.ok.inj result)).2.symm⟩
    simpa using importless
  · rintro ⟨importer, entry, isImporter, isEntry, importless, checked, rfl⟩
    refine bind_eq_ok.2 ⟨importer, findModule_eq_ok_iff.2 isImporter, ?_⟩
    refine bind_eq_ok.2 ⟨entry, entry_eq_ok_iff.2 isEntry, ?_⟩
    refine guard_eq_ok.2 ⟨by simpa using importless, ?_⟩
    exact bind_eq_ok.2 ⟨(), checked, rfl⟩

theorem planVisibility_eq_ok_iff {module target : ModuleId} {level : Visibility} :
    atlas.planVisibility module target level = .ok ((), next) ↔
      ∃ importer imported, atlas.module? module = some importer ∧
        atlas.module? target = some imported ∧ level ≠ .none ∧
        (atlas.settings.strictOrdering →
          atlas.importation.hasDirectEdge module target ∧ atlas.isVisibilityFinal target) ∧
        next = atlas.updateModule module fun _ =>
          importer.absorbing target level imported.scope := by
  constructor
  · intro planned
    obtain ⟨importer, isImporter, planned⟩ := bind_eq_ok.1 planned
    obtain ⟨imported, isImported, planned⟩ := bind_eq_ok.1 planned
    obtain ⟨isLevel, planned⟩ := guard_eq_ok.1 planned
    obtain ⟨edge, planned⟩ := guard_eq_ok.1 planned
    obtain ⟨final, planned⟩ := guard_eq_ok.1 planned
    refine ⟨importer, imported, findModule_eq_ok_iff.1 isImporter,
      findModule_eq_ok_iff.1 isImported, isLevel, fun strict => ?_,
      (Prod.mk.inj (Except.ok.inj planned)).2.symm⟩
    simp only [strict, Bool.true_and, Bool.not_eq_true', Bool.not_eq_false] at edge final
    exact ⟨edge, final⟩
  · rintro ⟨importer, imported, isImporter, isImported, isLevel, ordered, rfl⟩
    refine bind_eq_ok.2 ⟨importer, findModule_eq_ok_iff.2 isImporter, ?_⟩
    refine bind_eq_ok.2 ⟨imported, findModule_eq_ok_iff.2 isImported, ?_⟩
    refine guard_eq_ok.2 ⟨isLevel, guard_eq_ok.2 ⟨?_, guard_eq_ok.2 ⟨?_, rfl⟩⟩⟩
    · intro violated
      simp only [Bool.and_eq_true, Bool.not_eq_true'] at violated
      exact Bool.false_ne_true (violated.2.symm.trans (ordered violated.1).1)
    · intro violated
      simp only [Bool.and_eq_true, Bool.not_eq_true'] at violated
      exact Bool.false_ne_true (violated.2.symm.trans (ordered violated.1).2)

theorem planAttachment_ok {module : ModuleId} {attachment : Module → Module} {done : Unit}
    (planned : atlas.planAttachment module attachment = .ok (done, next)) :
    (∃ entity, atlas.module? module = some entity) ∧
      next = atlas.updateModule module attachment := by
  obtain ⟨entity, isEntity, result⟩ := bind_eq_ok.1 planned
  exact ⟨⟨entity, findModule_eq_ok_iff.1 isEntity⟩, (Prod.mk.inj (Except.ok.inj result)).2.symm⟩

end Atlas

end ModuleAtlas
