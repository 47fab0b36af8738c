import ModuleAtlas.Proofs.History

/-!
# Imports are wired once

Nothing records that the imports of a module were declared but the imports themselves.  So a module
that has imports keeps exactly these and refuses every further declaration, also an empty one.  A
declaration of no imports leaves no record, and another one may follow it.
-/

namespace ModuleAtlas

namespace Atlas

/-! ## What wires imports -/

/-- Only a declaration of its own imports changes what a module imports. -/
theorem edges_of_plan_other {atlas next : Atlas} (wellFormed : atlas.WellFormed)
    {command : Command} (single : command.IsSingle) {answer : Answer}
    (planned : atlas.plan command = .ok (answer, next)) {m : ModuleId}
    (other : ∀ imports, command ≠ .setImports m imports) (y : ModuleId) :
    next.importation.hasDirectEdge m y ↔ atlas.importation.hasDirectEdge m y := by
  rcases effect_of_plan wellFormed single planned with
    undisturbed | ⟨importer, imports, rfl, wired⟩ | ⟨_, _, _, _, absorbed⟩
  · rw [undisturbed.edges]
  · rw [wired.edges, or_iff_left]
    rintro ⟨rfl, _⟩
    exact other imports rfl
  · rw [absorbed.importation]

/-- A module that has imports gets no others, and no declaration of its imports is accepted. -/
theorem Progress.wired {atlas after : Atlas} {trace : List Command}
    (progress : Progress atlas trace after) (wellFormed : atlas.WellFormed) {m z : ModuleId}
    (edge : atlas.importation.hasDirectEdge m z) :
    (∀ imports, .setImports m imports ∉ trace) ∧
      ∀ y, after.importation.hasDirectEdge m y ↔ atlas.importation.hasDirectEdge m y := by
  induction progress with
  | nil => exact ⟨fun _ => List.not_mem_nil, fun _ => Iff.rfl⟩
  | @cons _ _ _ command _ _ single planned _ ih =>
    have other (imports : List ModuleId) : command ≠ .setImports m imports := by
      rintro rfl
      exact (wired_of_plan wellFormed planned).importless z edge
    have kept := edges_of_plan_other wellFormed single planned other
    obtain ⟨noneLater, same⟩ := ih (wellFormed_plan wellFormed planned) ((kept z).2 edge)
    constructor
    · intro imports declared
      rcases List.mem_cons.1 declared with isFirst | later
      · exact other imports isFirst.symm
      · exact noneLater imports later
    · exact fun y => (same y).trans (kept y)

/-- What a module imports at last is what it imported at first and what was declared since. -/
theorem Progress.hasDirectEdge_iff {atlas after : Atlas} {trace : List Command}
    (progress : Progress atlas trace after) (wellFormed : atlas.WellFormed) {m y : ModuleId} :
    after.importation.hasDirectEdge m y ↔ atlas.importation.hasDirectEdge m y ∨
      ∃ imports, .setImports m imports ∈ trace ∧ y ∈ imports := by
  refine ⟨setImports_of_hasDirectEdge wellFormed progress, ?_⟩
  rintro (edge | ⟨imports, declared, listed⟩)
  · exact (grown_of_progress wellFormed progress).edges m y edge
  · obtain ⟨earlier, later, rfl⟩ := List.append_of_mem declared
    obtain ⟨middle, answer, next, before, single, planned, rest⟩ := progress.cut
    have wellFormedMiddle := before.wellFormed wellFormed
    have edge := ((wired_of_plan wellFormedMiddle planned).edges m y).2 (Or.inr ⟨rfl, listed⟩)
    exact (grown_of_progress (wellFormed_plan wellFormedMiddle planned) rest).edges m y edge

/--
Before a declaration of imports only empty ones were accepted, and none follows one that lists any.
-/
theorem Progress.unique_wiring {atlas after : Atlas} {earlier later : List Command} {m : ModuleId}
    {imports : List ModuleId} (wellFormed : atlas.WellFormed)
    (progress : Progress atlas (earlier ++ .setImports m imports :: later) after) :
    (∀ others, .setImports m others ∈ earlier → others = []) ∧
      (imports ≠ [] → ∀ others, .setImports m others ∉ later) := by
  obtain ⟨middle, answer, next, before, single, planned, rest⟩ := progress.cut
  have wellFormedMiddle := before.wellFormed wellFormed
  have wired := wired_of_plan wellFormedMiddle planned
  constructor
  · intro others declared
    refine List.eq_nil_iff_forall_not_mem.2 fun y listed => wired.importless y ?_
    exact (before.hasDirectEdge_iff wellFormed).2 (Or.inr ⟨others, declared, listed⟩)
  · intro nonempty
    obtain ⟨y, listed⟩ := List.exists_mem_of_ne_nil imports nonempty
    have edge := (wired.edges m y).2 (Or.inr ⟨rfl, listed⟩)
    exact (rest.wired (wellFormed_plan wellFormedMiddle planned) edge).1

/-! ## What is refused -/

theorem planImports_of_hasDirectEdge {atlas : Atlas} {m z : ModuleId} {importer : Module}
    (known : atlas.module? m = some importer) (edge : atlas.importation.hasDirectEdge m z)
    (imports : List ModuleId) :
    atlas.planImports m imports = .error (.importsAlreadySet importer.fullName) := by
  obtain ⟨entry, found, listed⟩ := Hierarchy.hasDirectEdge_iff.1 edge
  have isEntry : atlas.entry .importation m = .ok entry := entry_eq_ok_iff.2 found
  have nonempty : (!entry.directBelow.isEmpty) = true := by
    rw [Bool.not_eq_true', Bool.eq_false_iff]
    exact fun isEmpty => NodeSet.isEmpty_iff.1 isEmpty z listed
  unfold planImports
  rw [Loading.findModule_eq_ok_iff.2 known, isEntry]
  change (if (!entry.directBelow.isEmpty) = true then _ else _) = _
  rw [if_pos nonempty]
  rfl

/-- A module that has imports refuses to get any, by itself or with their levels. -/
theorem wiring_refused {atlas : Atlas} (wellFormed : atlas.WellFormed) {m z : ModuleId}
    {importer : Module} (known : atlas.module? m = some importer)
    (edge : atlas.importation.hasDirectEdge m z) :
    (∀ imports, (atlas.perform (.setImports m imports)).answer =
        .error (.importsAlreadySet importer.fullName)) ∧
      ∀ imports, (atlas.perform (.declareImports m imports)).answer =
        .error (.importsAlreadySet importer.fullName) := by
  have refused (imports : List ModuleId) : atlas.plan (.setImports m imports) =
      .error (.importsAlreadySet importer.fullName) := by
    rw [plan, planImports_of_hasDirectEdge known edge]
    rfl
  constructor
  · intro imports
    have single : (Command.setImports m imports).IsSingle := trivial
    exact (perform_of_plan_error wellFormed single (refused imports)).1
  · intro imports
    obtain ⟨result, answered, staged⟩ := perform_declaration wellFormed m imports
    rw [answered]
    rcases staged.cons_cases with ⟨_, _, planned, _⟩ | ⟨fault, failed, rfl, _⟩
    · cases planned.symm.trans (refused _)
    · rw [Except.error.inj (failed.symm.trans (refused _))]
      rfl

/-! ## Write-once imports -/

section Reached

variable {settings : Settings} {commands : List Command} {m y : ModuleId}

/-- A module imports what the declarations that were accepted list. -/
theorem hasDirectEdge_reached_iff :
    ((empty settings).run commands).importation.hasDirectEdge m y ↔
      ∃ imports, .setImports m imports ∈ (empty settings).history commands ∧ y ∈ imports := by
  have wellFormed := wellFormed_empty settings
  rw [(progress_history wellFormed commands).hasDirectEdge_iff wellFormed]
  exact or_iff_right fun edge => nomatch edge

/-- Of the declarations of one module, those around one that is not empty say nothing. -/
theorem unique_wiring_reached {earlier later : List Command} {imports : List ModuleId}
    (divided : (empty settings).history commands = earlier ++ .setImports m imports :: later) :
    (∀ others, .setImports m others ∈ earlier → others = []) ∧
      (imports ≠ [] → ∀ others, .setImports m others ∉ later) := by
  have wellFormed := wellFormed_empty settings
  have progress := progress_history wellFormed commands
  rw [divided] at progress
  exact progress.unique_wiring wellFormed

theorem hasDirectEdge_iff_of_declared {imports : List ModuleId}
    (declared : .setImports m imports ∈ (empty settings).history commands)
    (nonempty : imports ≠ []) :
    ((empty settings).run commands).importation.hasDirectEdge m y ↔ y ∈ imports := by
  obtain ⟨earlier, later, divided⟩ := List.append_of_mem declared
  obtain ⟨nothingBefore, noneLater⟩ := unique_wiring_reached divided
  rw [hasDirectEdge_reached_iff]
  refine ⟨?_, fun listed => ⟨imports, declared, listed⟩⟩
  rintro ⟨others, otherDeclared, listed⟩
  rw [divided] at otherDeclared
  rcases List.mem_append.1 otherDeclared with before | fromHere
  · rw [nothingBefore others before] at listed
    cases listed
  · rcases List.mem_cons.1 fromHere with same | after
    · rw [← (Command.setImports.inj same).2]
      exact listed
    · exact absurd after (noneLater nonempty others)

end Reached

/--
Whatever the settings and the commands, a module imports what its accepted declarations list, those
that were stages of others included.  At most one of them lists anything.  Once it was accepted, the
module has exactly its imports however the run goes on, and every other declaration is refused as a
second one, whatever it lists.
-/
theorem imports_wired_once (settings : Settings) (commands : List Command) (m : ModuleId) :
    let atlas := (empty settings).run commands
    let history := (empty settings).history commands
    (∀ y, atlas.importation.hasDirectEdge m y ↔
      ∃ imports, .setImports m imports ∈ history ∧ y ∈ imports) ∧
    (∀ earlier imports later, history = earlier ++ .setImports m imports :: later →
      (∀ others, .setImports m others ∈ earlier → others = []) ∧
        (imports ≠ [] → ∀ others, .setImports m others ∉ later)) ∧
    ∀ imports, .setImports m imports ∈ history → imports ≠ [] →
      ∀ more,
        let final := (empty settings).run (commands ++ more)
        (∀ y, final.importation.hasDirectEdge m y ↔ y ∈ imports) ∧
          ∃ importer, final.module? m = some importer ∧
            (∀ others, (final.perform (.setImports m others)).answer =
              .error (.importsAlreadySet importer.fullName)) ∧
            ∀ others, (final.perform (.declareImports m others)).answer =
              .error (.importsAlreadySet importer.fullName) := by
  intro atlas history
  refine ⟨fun _ => hasDirectEdge_reached_iff, fun _ _ _ => unique_wiring_reached, ?_⟩
  intro imports declared nonempty more final
  have wellFormed : final.WellFormed := wellFormed_reached settings (commands ++ more)
  have stillDeclared : .setImports m imports ∈ (empty settings).history (commands ++ more) := by
    rw [history_append]
    exact List.mem_append_left _ declared
  have edges (y : ModuleId) : final.importation.hasDirectEdge m y ↔ y ∈ imports :=
    hasDirectEdge_iff_of_declared stillDeclared nonempty
  obtain ⟨z, listed⟩ := List.exists_mem_of_ne_nil imports nonempty
  have edge := (edges z).2 listed
  have registered : (final.hierarchy .importation).contains m :=
    Hierarchy.contains_of_hasDirectEdge edge
  obtain ⟨importer, known⟩ := wellFormed.contains_iff_known.1 registered
  exact ⟨edges, importer, known, wiring_refused wellFormed known edge⟩

/-- Imports that were declared with their levels are refused to be declared again as none. -/
theorem imports_wired_once_with_levels :
    let commands : List Command := [.createFictive "a", .createFictive "b", .setImports ⟨0⟩ [],
      .declareImports ⟨0⟩ [(⟨1⟩, .pub)]]
    let atlas := (empty {}).run commands
    .setImports ⟨0⟩ [⟨1⟩] ∈ (empty {}).history commands ∧
      (∀ y, atlas.importation.hasDirectEdge ⟨0⟩ y ↔ y ∈ [⟨1⟩]) ∧
      ∃ importer, atlas.module? ⟨0⟩ = some importer ∧
        (atlas.perform (.setImports ⟨0⟩ [])).answer =
          .error (.importsAlreadySet importer.fullName) := by
  intro commands atlas
  have declared : .setImports ⟨0⟩ [⟨1⟩] ∈ (empty {}).history commands := by decide
  obtain ⟨_, _, wired⟩ := imports_wired_once {} commands ⟨0⟩
  obtain ⟨edges, importer, known, refused, _⟩ := wired [⟨1⟩] declared (by simp) []
  exact ⟨declared, edges, importer, known, refused []⟩

/-- Declaring no imports closes nothing: a second declaration is accepted and adds an import. -/
theorem wired_again_after_nothing :
    let commands : List Command := [.createFictive "a", .createFictive "b", .setImports ⟨0⟩ [],
      .setImports ⟨0⟩ [⟨1⟩]]
    let unwired := (empty {}).run (commands.take 3)
    let wired := (empty {}).run commands
    (empty {}).answers commands = [.ok (.module ⟨0⟩), .ok (.module ⟨1⟩), .ok .done, .ok .done] ∧
      ¬ unwired.importation.hasDirectEdge ⟨0⟩ ⟨1⟩ ∧ wired.importation.hasDirectEdge ⟨0⟩ ⟨1⟩ := by
  intro commands unwired wired
  exact ⟨rfl, by decide, by decide⟩

end Atlas

end ModuleAtlas
