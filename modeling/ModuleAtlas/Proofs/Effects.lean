import ModuleAtlas.Proofs.Progress

/-!
# What commands do to imports and scopes

Of the atlas as a whole, visibility only concerns which module imports which, what each module sees
and which imports it has propagated.  Three things can happen to these: the imports of one module
are declared, one module absorbs the scope of another one, or all stays as it is.
-/

namespace ModuleAtlas

/-- Neither declares imports nor gives them levels. -/
def Command.Builds : Command → Prop
  | setImports .. => False
  | setVisibility .. => False
  | declareImports .. => False
  | _ => True

theorem Command.Builds.isSingle {command : Command} (builds : command.Builds) :
    command.IsSingle := by
  cases command with
  | declareImports module imports => exact absurd builds id
  | _ => trivial

namespace Atlas

def scopeOf (atlas : Atlas) (id : ModuleId) : Scope := (atlas.module? id).elim .empty Module.scope

def propagatedBy (atlas : Atlas) (id : ModuleId) : NodeSet ModuleId :=
  (atlas.module? id).elim ∅ Module.propagated

theorem scopeOf_of_some {atlas : Atlas} {id : ModuleId} {entity : Module}
    (known : atlas.module? id = some entity) : atlas.scopeOf id = entity.scope := by
  rw [scopeOf, known, Option.elim_some]

theorem propagatedBy_of_some {atlas : Atlas} {id : ModuleId} {entity : Module}
    (known : atlas.module? id = some entity) : atlas.propagatedBy id = entity.propagated := by
  rw [propagatedBy, known, Option.elim_some]

theorem scopeOf_congr {before after : Atlas} (modules : after.modules = before.modules)
    (id : ModuleId) : after.scopeOf id = before.scopeOf id := by
  rw [scopeOf, scopeOf, module?, module?, modules]

theorem propagatedBy_congr {before after : Atlas} (modules : after.modules = before.modules)
    (id : ModuleId) : after.propagatedBy id = before.propagatedBy id := by
  rw [propagatedBy, propagatedBy, module?, module?, modules]

/-- A known module is final when it has propagated all its direct imports. -/
theorem isVisibilityFinal_iff {atlas : Atlas} (wellFormed : atlas.WellFormed) {id : ModuleId}
    {entity : Module} (known : atlas.module? id = some entity) :
    atlas.isVisibilityFinal id ↔
      ∀ target, atlas.importation.hasDirectEdge id target → target ∈ atlas.propagatedBy id := by
  have registered : (atlas.hierarchy .importation).contains id :=
    wellFormed.contains_iff_known.2 ⟨entity, known⟩
  obtain ⟨entry, found⟩ := Hierarchy.contains_iff.1 registered
  have found : atlas.importation.get? id = some entry := found
  have edges (target : ModuleId) :
      atlas.importation.hasDirectEdge id target ↔ target ∈ entry.directBelow := by
    simp [Hierarchy.hasDirectEdge_iff, found]
  simp only [isVisibilityFinal, known, found, edges, propagatedBy_of_some known, List.all_eq_true,
    decide_eq_true_eq, NodeSet.mem_toList]

/-! ## Commands that leave imports and scopes alone -/

/-- The same imports, scopes and marks; modules may have been added that nothing imports. -/
structure Undisturbed (before after : Atlas) : Prop where
  settings : after.settings = before.settings
  known : ∀ id, (before.module? id).isSome → (after.module? id).isSome
  edges : ∀ x y, after.importation.hasDirectEdge x y = before.importation.hasDirectEdge x y
  scopes : ∀ id, after.scopeOf id = before.scopeOf id
  marks : ∀ id, after.propagatedBy id = before.propagatedBy id

namespace Undisturbed

variable {before middle after : Atlas}

theorem trans (first : Undisturbed before middle) (second : Undisturbed middle after) :
    Undisturbed before after where
  settings := second.settings.trans first.settings
  known id known := second.known id (first.known id known)
  edges x y := (second.edges x y).trans (first.edges x y)
  scopes id := (second.scopes id).trans (first.scopes id)
  marks id := (second.marks id).trans (first.marks id)

theorem of_same (settings : after.settings = before.settings)
    (modules : after.modules = before.modules)
    (importation : after.importation = before.importation) : Undisturbed before after := by
  constructor
  · exact settings
  · intro id known
    rw [module?, modules]
    exact known
  · intro x y
    rw [importation]
  · exact scopeOf_congr modules
  · exact propagatedBy_congr modules

/-- A module is created with nothing in sight. -/
theorem addModule (atlas : Atlas) {module : Module} (blind : module.scope = .empty)
    (unmarked : module.propagated = ∅) : Undisturbed atlas (atlas.addModule module) := by
  have same {β : Type} (part : Module → β) (id : ModuleId) :
      ((atlas.addModule module).module? id).elim (part module) part =
        (atlas.module? id).elim (part module) part := by
    rw [module?_addModule]
    cases atlas.module? id with
    | some entity => rfl
    | none =>
      rw [Option.none_or]
      split
      · rfl
      · rfl
  constructor
  · rfl
  · intro id known
    rw [module?_addModule, Option.isSome_or, known, Bool.true_or]
  · exact fun x y => Hierarchy.hasDirectEdge_register atlas.importation module.id x y
  · intro id
    have scopes := same Module.scope id
    rw [blind] at scopes
    exact scopes
  · intro id
    have marks := same Module.propagated id
    rw [unmarked] at marks
    exact marks

/-- What is attached to a module is not what it sees. -/
theorem attach (atlas : Atlas) (id : ModuleId) {attachment : Module → Module}
    (sameScope : ∀ entity, (attachment entity).scope = entity.scope)
    (sameMarks : ∀ entity, (attachment entity).propagated = entity.propagated) :
    Undisturbed atlas (atlas.updateModule id attachment) := by
  have same {β : Type} (part : Module → β) (kept : ∀ entity, part (attachment entity) = part entity)
      (missing : β) (other : ModuleId) :
      ((atlas.updateModule id attachment).module? other).elim missing part =
        (atlas.module? other).elim missing part := by
    rw [module?_updateModule]
    cases atlas.module? other with
    | none => rfl
    | some entity =>
      rw [Option.map_some]
      split
      · exact kept entity
      · rfl
  constructor
  · rfl
  · intro other known
    rw [module?_updateModule, Option.isSome_map]
    exact known
  · exact fun x y => rfl
  · exact same Module.scope sameScope .empty
  · exact same Module.propagated sameMarks ∅

theorem settled (atlas : Atlas) (group : GroupId) (module : ModuleId) :
    Undisturbed atlas (atlas.settled group module) := by
  unfold Atlas.settled
  cases atlas.ownerIn group module with
  | none => exact .of_same rfl rfl rfl
  | some owner => exact .of_same rfl rfl rfl

theorem joined (atlas : Atlas) (group : GroupId) (home : Group) {module : Module}
    (blind : module.scope = .empty) (unmarked : module.propagated = ∅) :
    Undisturbed atlas (atlas.joined group home module) := by
  have added := Undisturbed.addModule atlas blind unmarked
  have grown : Undisturbed atlas ((atlas.addModule module).addMember group module.id) :=
    added.trans (.of_same rfl rfl rfl)
  by_cases named : home.name = module.name
  · rw [Loading.joined_named named]
    have appointed : Undisturbed atlas
        (((atlas.addModule module).addMember group module.id).appointed group
          (home.members ++ [module.id]) module.id) := grown.trans (.of_same rfl rfl rfl)
    exact appointed.trans (settled _ group module.id)
  · rw [Loading.joined_unnamed named]
    exact grown.trans (settled _ group module.id)

end Undisturbed

theorem undisturbed_of_plan {atlas next : Atlas} {command : Command} (builds : command.Builds)
    {answer : Answer} (planned : atlas.plan command = .ok (answer, next)) :
    Undisturbed atlas next := by
  cases step_of_plan planned with
  | project name => exact .of_same rfl rfl rfl
  | @group project parent name projectKnown parentKnown =>
    cases parent with
    | none => exact .of_same rfl rfl rfl
    | some parent => exact .of_same rfl rfl rfl
  | loose name location fictive => exact .addModule atlas rfl rfl
  | @member group home project name location found inProject free =>
    exact .joined atlas group home rfl rfl
  | appointed found vacant member => exact .of_same rfl rfl rfl
  | confirmed => exact .of_same rfl rfl rfl
  | importing wires =>
    rw [wires builds.isSingle] at builds
    exact absurd builds id
  | absorbing known => exact absurd builds id
  | attached module => exact .attach atlas module (fun _ => rfl) fun _ => rfl

theorem undisturbed_perform {atlas : Atlas} (wellFormed : atlas.WellFormed) {command : Command}
    (builds : command.Builds) : Undisturbed atlas (atlas.perform command).atlas := by
  have unchanged : Undisturbed atlas atlas := .of_same rfl rfl rfl
  exact perform_of_plan wellFormed builds.isSingle unchanged
    fun _ _ planned => undisturbed_of_plan builds planned

theorem undisturbed_run {atlas : Atlas} (wellFormed : atlas.WellFormed) {commands : List Command}
    (builds : ∀ command ∈ commands, command.Builds) : Undisturbed atlas (atlas.run commands) := by
  induction commands generalizing atlas with
  | nil => exact .of_same rfl rfl rfl
  | cons command rest ih =>
    obtain ⟨first, others⟩ := List.forall_mem_cons.1 builds
    have started := undisturbed_perform wellFormed first
    exact started.trans (ih (wellFormed_perform wellFormed command) others)

/-! ## Declaring imports -/

/-- The imports of one module were declared, which had none before. -/
structure Wired (before : Atlas) (module : ModuleId) (imports : List ModuleId) (after : Atlas) :
    Prop where
  settings : after.settings = before.settings
  importless : ∀ y, ¬ before.importation.hasDirectEdge module y
  edges : ∀ x y, after.importation.hasDirectEdge x y ↔
    before.importation.hasDirectEdge x y ∨ x = module ∧ y ∈ imports
  modules : after.modules = before.modules

theorem wired_of_plan {atlas next : Atlas} (wellFormed : atlas.WellFormed) {module : ModuleId}
    {imports : List ModuleId} {answer : Answer}
    (planned : atlas.plan (.setImports module imports) = .ok (answer, next)) :
    Wired atlas module imports next := by
  obtain ⟨⟨done, after⟩, accepted, ⟨⟩⟩ := map_eq_ok.1 planned
  obtain ⟨importer, entry, known, found, isEmpty, checked, rfl⟩ := planImports_eq_ok_iff.1 accepted
  have extendable := Loading.extendable_imports wellFormed known checked
  constructor
  · rfl
  · intro y edge
    rw [Hierarchy.hasDirectEdge_iff, found] at edge
    obtain ⟨other, ⟨⟩, listed⟩ := edge
    exact NodeSet.isEmpty_iff.1 isEmpty y listed
  · exact fun x y => Hierarchy.hasDirectEdge_run_fan (wellFormed.closed .importation) extendable
  · rfl

/-! ## Giving an import its level -/

structure Absorbed (before : Atlas) (module target : ModuleId) (level : Visibility)
    (after : Atlas) : Prop where
  settings : after.settings = before.settings
  importation : after.importation = before.importation
  known : ∀ id, (after.module? id).isSome = (before.module? id).isSome
  scope : after.scopeOf module =
    (before.scopeOf module).absorb target level (before.scopeOf target)
  marks : after.propagatedBy module = (before.propagatedBy module).insert target
  otherScopes : ∀ id, id ≠ module → after.scopeOf id = before.scopeOf id
  otherMarks : ∀ id, id ≠ module → after.propagatedBy id = before.propagatedBy id

theorem Absorbed.marks_kept {before after : Atlas} {m t : ModuleId} {level : Visibility}
    (absorbed : Absorbed before m t level after) {id target : ModuleId}
    (marked : target ∈ before.propagatedBy id) : target ∈ after.propagatedBy id := by
  by_cases same : id = m
  · rw [same] at marked ⊢
    rw [absorbed.marks, NodeSet.mem_insert]
    exact Or.inr marked
  · rw [absorbed.otherMarks id same]
    exact marked

theorem Absorbed.marked {before after : Atlas} {m t : ModuleId} {level : Visibility}
    (absorbed : Absorbed before m t level after) : t ∈ after.propagatedBy m := by
  rw [absorbed.marks, NodeSet.mem_insert]
  exact Or.inl rfl

theorem absorbed_of_plan {atlas next : Atlas} {module target : ModuleId} {level : Visibility}
    {answer : Answer}
    (planned : atlas.plan (.setVisibility module target level) = .ok (answer, next)) :
    Absorbed atlas module target level next := by
  obtain ⟨⟨done, after⟩, accepted, ⟨⟩⟩ := map_eq_ok.1 planned
  obtain ⟨importer, imported, known, knownTarget, _, _, rfl⟩ :=
    planVisibility_eq_ok_iff.1 accepted
  have changed : (atlas.updateModule module fun _ =>
      importer.absorbing target level imported.scope).module? module =
        some (importer.absorbing target level imported.scope) := by
    rw [module?_updateModule, known, Option.map_some, if_pos rfl]
  have others {id : ModuleId} (different : id ≠ module) : (atlas.updateModule module fun _ =>
      importer.absorbing target level imported.scope).module? id = atlas.module? id := by
    rw [module?_updateModule]
    cases atlas.module? id with
    | none => rfl
    | some entity => rw [Option.map_some, if_neg different.symm]
  constructor
  · rfl
  · rfl
  · intro id
    rw [module?_updateModule, Option.isSome_map]
  · rw [scopeOf_of_some changed, scopeOf_of_some known, scopeOf_of_some knownTarget]
    rfl
  · rw [propagatedBy_of_some changed, propagatedBy_of_some known]
    rfl
  · intro id different
    rw [scopeOf, others different, scopeOf]
  · intro id different
    rw [propagatedBy, others different, propagatedBy]

/-- What was true of the modules and the level when an import got its level. -/
theorem admitted_of_plan {atlas next : Atlas} {module target : ModuleId} {level : Visibility}
    {answer : Answer}
    (planned : atlas.plan (.setVisibility module target level) = .ok (answer, next)) :
    (atlas.module? module).isSome ∧ (atlas.module? target).isSome ∧ level ≠ .none ∧
      (atlas.settings.strictOrdering →
        atlas.importation.hasDirectEdge module target ∧ atlas.isVisibilityFinal target) := by
  obtain ⟨result, accepted, _⟩ := map_eq_ok.1 planned
  obtain ⟨importer, imported, known, knownTarget, isLevel, ordered, _⟩ :=
    planVisibility_eq_ok_iff.1 accepted
  exact ⟨known ▸ rfl, knownTarget ▸ rfl, isLevel, ordered⟩

theorem setVisibility_accepted {atlas : Atlas} {module target : ModuleId} {level : Visibility}
    (known : (atlas.module? module).isSome) (knownTarget : (atlas.module? target).isSome)
    (isLevel : level ≠ .none)
    (ordered : atlas.settings.strictOrdering →
      atlas.importation.hasDirectEdge module target ∧ atlas.isVisibilityFinal target) :
    ∃ next, atlas.plan (.setVisibility module target level) = .ok (.done, next) := by
  obtain ⟨importer, found⟩ := Option.isSome_iff_exists.1 known
  obtain ⟨imported, foundTarget⟩ := Option.isSome_iff_exists.1 knownTarget
  refine ⟨atlas.updateModule module fun _ => importer.absorbing target level imported.scope, ?_⟩
  have accepted := planVisibility_eq_ok_iff.2
    ⟨importer, imported, found, foundTarget, isLevel, ordered, rfl⟩
  simp only [plan, accepted, Except.map]

/-! ## Every single command -/

/-- What a single command does to imports and scopes. -/
theorem effect_of_plan {atlas next : Atlas} (wellFormed : atlas.WellFormed) {command : Command}
    (single : command.IsSingle) {answer : Answer}
    (planned : atlas.plan command = .ok (answer, next)) :
    Undisturbed atlas next ∨
      (∃ module imports, command = .setImports module imports ∧ Wired atlas module imports next) ∨
      ∃ module target level, command = .setVisibility module target level ∧
        Absorbed atlas module target level next := by
  cases command with
  | setImports module imports =>
    exact Or.inr (Or.inl ⟨module, imports, rfl, wired_of_plan wellFormed planned⟩)
  | setVisibility module target level =>
    exact Or.inr (Or.inr ⟨module, target, level, rfl, absorbed_of_plan planned⟩)
  | declareImports module imports => exact absurd single id
  | _ =>
    refine Or.inl (undisturbed_of_plan ?_ planned)
    trivial

end Atlas

end ModuleAtlas
