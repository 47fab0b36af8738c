import ModuleAtlas.Proofs.Progress

/-!
# Failed commands

A command that fails leaves the atlas as it was.  All that can be refused is refused before the
first change: in an atlas that commands led to, the edges that are added after a module was created,
a default module appointed or a list of imports checked are all accepted.  Only a declaration of
imports can stop half-way, and then exactly the stages before the one that failed were carried out.
-/

namespace ModuleAtlas

/-- From an atlas an operation gives an answer, whatever was recorded before. -/
def Loading.Succeeds {α : Type} (operation : Loading α) (atlas : Atlas) : Prop :=
  ∀ events, ∃ value session, operation ⟨atlas, events⟩ = .ok value session

theorem Loading.Yields.succeeds {α : Type} {operation : Loading α} {before after : Atlas}
    {value : α} (yields : Yields operation before (.ok value) after) :
    operation.Succeeds before := by
  intro events
  obtain ⟨later, result⟩ := yields events
  exact ⟨value, _, result⟩

namespace Atlas

/-! ## Steps after the first change -/

/--
What operations still do once their checks have passed: wire a checked list of imports, let a member
stand for a group that has no default module, and settle a new member of a group, which stands for
the group first if it is named like it.
-/
structure NoLateFault (atlas : Atlas) : Prop where
  wiring : ∀ {module importer imports}, atlas.module? module = some importer →
    atlas.checkImports module imports = .ok () →
      Loading.Succeeds
        (imports.forM fun imported => Loading.link .importation module imported) atlas
  appointing : ∀ {group home owner}, atlas.group? group = some home → home.defaultModule = none →
    owner ∈ home.members → (Loading.appoint group owner).Succeeds atlas
  settling : ∀ {group home} {module : Module}, atlas.group? group = some home →
    module.id = ⟨atlas.modules.length⟩ → module.group = some group →
    (home.name = module.name → home.defaultModule = none) →
      Loading.Succeeds
        (do
          if home.name = module.name then
            Loading.appoint group module.id
          Loading.nest group module.id)
        ((atlas.addModule module).addMember group module.id)

theorem WellFormed.noLateFault {atlas : Atlas} (wellFormed : atlas.WellFormed) :
    atlas.NoLateFault where
  wiring := by
    intro module importer imports known checked
    have extendable := Loading.extendable_imports wellFormed known checked
    have closed := wellFormed.closed .importation
    exact (Loading.links_yield Loading.link_yields closed extendable).succeeds
  appointing := by
    intro group home owner found vacant member
    exact (Loading.appoint_yields wellFormed found vacant member).succeeds
  settling := by
    intro group home module found next isGroup free
    have grown := Loading.wellFormed_grown wellFormed next isGroup
    have foundGrown := @Loading.group?_grown _ _ _ module found
    have homeGrown := Loading.home_grown next isGroup
    by_cases named : home.name = module.name
    · have member : module.id ∈ home.members ++ [module.id] :=
        List.mem_append_right _ (List.mem_singleton.2 rfl)
      have appoints := Loading.appoint_yields grown foundGrown (free named) member
      have appointed := Loading.wellFormed_appointed grown foundGrown (free named) member
      simp only [if_pos named]
      exact (appoints.bind (Loading.nest_yields appointed homeGrown)).succeeds
    · simp only [if_neg named]
      exact (Loading.nest_yields grown homeGrown).succeeds

/-! ## Failed commands -/

/-- A single command that fails leaves the atlas alone. -/
theorem atlas_perform_of_error {atlas : Atlas} (wellFormed : atlas.WellFormed) {command : Command}
    (single : command.IsSingle) {fault : Fault}
    (failed : (atlas.perform command).answer = .error fault) :
    (atlas.perform command).atlas = atlas := by
  cases planned : atlas.plan command with
  | ok result =>
    have answered := (perform_of_plan_ok wellFormed single planned).1
    rw [failed] at answered
    cases answered
  | error other => exact (perform_of_plan_error wellFormed single planned).2

/--
How far a declaration of imports had come when it failed: it could not be wired, or all of it was
wired and every import before one of them had got its level.
-/
inductive Interrupted (atlas : Atlas) (module : ModuleId) (imports : List (ModuleId × Visibility))
    (fault : Fault) (reached : Atlas) : Prop where
  | wiring
      (refused : (atlas.perform (.setImports module (imports.map Prod.fst))).answer = .error fault)
      (unchanged : reached = atlas)
  | level {before after : List (ModuleId × Visibility)} {target : ModuleId} {level : Visibility}
      {done : List Command} (divided : imports = before ++ (target, level) :: after)
      (stages : done = .setImports module (imports.map Prod.fst) ::
        before.map fun (target, level) => .setVisibility module target level)
      (accepted : ∀ answer ∈ atlas.answers done, ∃ value, answer = .ok value)
      (carriedOut : reached = atlas.run done)
      (refused : (reached.perform (.setVisibility module target level)).answer = .error fault)

theorem interrupted_of_error {atlas : Atlas} (wellFormed : atlas.WellFormed) {module : ModuleId}
    {imports : List (ModuleId × Visibility)} {fault : Fault}
    (failed : (atlas.perform (.declareImports module imports)).answer = .error fault) :
    atlas.Interrupted module imports fault
      (atlas.perform (.declareImports module imports)).atlas := by
  have staged := perform_staged wellFormed (.declareImports module imports)
  rw [failed] at staged
  obtain ⟨done, rest, failing, divided, progress, single, refused⟩ := staged.divided
  have carriedOut := (progress.run_eq wellFormed).symm
  have answered := (perform_of_plan_error (progress.wellFormed wellFormed) single refused).1
  cases done with
  | nil =>
    obtain ⟨rfl, _⟩ := List.cons.inj divided
    rw [carriedOut] at answered
    exact .wiring answered carriedOut
  | cons first done =>
    obtain ⟨rfl, levels⟩ := List.cons.inj divided
    obtain ⟨before, later, dividedImports, rfl, others⟩ := List.map_eq_append_iff.1 levels
    obtain ⟨entry, after, rfl, rfl, _⟩ := List.map_eq_cons_iff.1 others
    exact .level dividedImports rfl (progress.answers_ok wellFormed) carriedOut answered

/--
In every atlas that commands lead to, a command that fails changes nothing, since nothing can be
refused after the first change; a declaration of imports that fails leaves what its stages before
the failing one come to.
-/
theorem failed_command_atomic (settings : Settings) (commands : List Command) :
    let atlas := (empty settings).run commands
    atlas.NoLateFault ∧
      (∀ (command : Command) (fault : Fault), command.IsSingle →
        (atlas.perform command).answer = .error fault →
          (atlas.perform command).atlas = atlas) ∧
      ∀ (module : ModuleId) (imports : List (ModuleId × Visibility)) (fault : Fault),
        (atlas.perform (.declareImports module imports)).answer = .error fault →
          atlas.Interrupted module imports fault
            (atlas.perform (.declareImports module imports)).atlas := by
  intro atlas
  have wellFormed : atlas.WellFormed := wellFormed_reached settings commands
  refine ⟨wellFormed.noLateFault, ?_, ?_⟩
  · intro command fault single failed
    exact atlas_perform_of_error wellFormed single failed
  · intro module imports fault failed
    exact interrupted_of_error wellFormed failed

/-- An import cycle is refused as a whole, a list with an import without level half-way. -/
theorem failed_command_atomic_on_imports :
    let atlas := (empty {}).run
      [.createFictive "a", .createFictive "b", .createFictive "c", .setImports ⟨1⟩ [⟨0⟩]]
    let imports : List (ModuleId × Visibility) := [(⟨2⟩, .pub), (⟨2⟩, .none)]
    ((atlas.perform (.setImports ⟨0⟩ [⟨2⟩, ⟨1⟩])).answer = .error (.cycle "importation" "a" "b") ∧
      (atlas.perform (.setImports ⟨0⟩ [⟨2⟩, ⟨1⟩])).atlas = atlas) ∧
    ((atlas.perform (.declareImports ⟨0⟩ imports)).answer =
        .error (.invalidVisibility "a" "c" .none) ∧
      atlas.Interrupted ⟨0⟩ imports (.invalidVisibility "a" "c" .none)
        (atlas.perform (.declareImports ⟨0⟩ imports)).atlas) := by
  intro atlas imports
  obtain ⟨_, unchanged, interrupted⟩ := failed_command_atomic {}
    [.createFictive "a", .createFictive "b", .createFictive "c", .setImports ⟨1⟩ [⟨0⟩]]
  constructor
  · have refused : (atlas.perform (.setImports ⟨0⟩ [⟨2⟩, ⟨1⟩])).answer =
        .error (.cycle "importation" "a" "b") := by rfl
    exact ⟨refused, unchanged _ _ trivial refused⟩
  · have refused : (atlas.perform (.declareImports ⟨0⟩ imports)).answer =
        .error (.invalidVisibility "a" "c" .none) := by rfl
    exact ⟨refused, interrupted _ _ _ refused⟩

end Atlas

end ModuleAtlas
