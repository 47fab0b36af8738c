import ModuleAtlas.Proofs.Acyclic
import ModuleAtlas.Proofs.Provenance
import ModuleAtlas.Proofs.Staleness
import ModuleAtlas.Proofs.Walk

/-!
# What is seen is imported

Scopes and the importation hierarchy are kept apart from each other.  Under strict ordering they
still agree: an import gets a level only while it is wired, imports are never taken back, and what
is absorbed was seen by the import before.  So a module sees only what it imports, directly or
through others, and as far as importation has no cycles, sight has none either.
-/

namespace ModuleAtlas

namespace Scope

def Sees (scope : Scope) (module : ModuleId) : Prop :=
  module ∈ scope.intrude ∨ module ∈ scope.pub ∨ module ∈ scope.priv

instance (scope : Scope) (module : ModuleId) : Decidable (scope.Sees module) :=
  inferInstanceAs (Decidable (_ ∨ _ ∨ _))

theorem levelOf_eq_none_iff {scope : Scope} {module : ModuleId} :
    scope.levelOf module = .none ↔ ¬ scope.Sees module := by
  unfold levelOf Sees
  split
  next intruded => exact iff_of_false nofun (not_not_intro (Or.inl intruded))
  next notIntruded =>
    split
    next isPublic => exact iff_of_false nofun (not_not_intro (Or.inr (Or.inl isPublic)))
    next notPublic =>
      split
      next isPrivate => exact iff_of_false nofun (not_not_intro (Or.inr (Or.inr isPrivate)))
      next notPrivate =>
        exact iff_of_true rfl fun seen =>
          seen.elim notIntruded fun flat => flat.elim notPublic notPrivate

end Scope

namespace Declarations

variable {imports : Declarations} {m x : ModuleId}

/-- The imports along a trail that is not empty. -/
theorem Trail.imported {word : List Visibility} (trail : imports.Trail m word x)
    (nonempty : word ≠ []) : Relation.TransGen imports.Imported m x := by
  induction word generalizing m with
  | nil => exact absurd rfl nonempty
  | cons level word ih =>
    obtain ⟨t, edge, further⟩ := trail
    cases word with
    | nil =>
      have same : x = t := further
      rw [same]
      exact .single ⟨level, edge⟩
    | cons next word => exact .head ⟨level, edge⟩ (ih further (List.cons_ne_nil _ _))

/-- Whatever a scope shows is imported if trails account for it. -/
theorem Accounts.imported {scope : Scope} (accounts : imports.Accounts m scope)
    (seen : scope.Sees x) : Relation.TransGen imports.Imported m x := by
  rcases seen with intruded | isPublic | isPrivate
  · obtain ⟨word, trail, nonempty, _⟩ := accounts.intrude x intruded
    exact trail.imported nonempty
  · obtain ⟨word, trail, _, isPublic⟩ := accounts.pub x isPublic
    exact trail.imported (List.ne_nil_of_mem isPublic)
  · obtain ⟨before, after, trail, _⟩ := accounts.priv x isPrivate
    exact trail.imported (List.append_ne_nil_of_right_ne_nil before (List.cons_ne_nil _ _))

end Declarations

namespace Atlas

open Declarations (ofHistory)

/-! ## Levels are for wired imports -/

/-- A command of a trace was accepted at some moment, and all that was there then still is. -/
theorem Progress.exists_plan_of_mem {start atlas : Atlas} (wellFormed : start.WellFormed)
    {trace : List Command} (progress : Progress start trace atlas) {command : Command}
    (carriedOut : command ∈ trace) :
    ∃ earlier moment answer next, Progress start earlier moment ∧
      moment.plan command = .ok (answer, next) ∧ Grown moment atlas := by
  obtain ⟨earlier, later, rfl⟩ := List.append_of_mem carriedOut
  obtain ⟨moment, answer, next, before, single, planned, rest⟩ := progress.cut
  have grown := grown_of_progress (before.wellFormed wellFormed) (.cons single planned rest)
  exact ⟨earlier, moment, answer, next, before, planned, grown⟩

theorem hasDirectEdge_of_given {start atlas : Atlas} (wellFormed : start.WellFormed)
    (strict : start.settings.strictOrdering) {trace : List Command}
    (progress : Progress start trace atlas) {m t : ModuleId} {level : Visibility}
    (given : .setVisibility m t level ∈ trace) : atlas.importation.hasDirectEdge m t := by
  obtain ⟨earlier, moment, answer, next, before, planned, grown⟩ :=
    progress.exists_plan_of_mem wellFormed given
  have strictMoment : moment.settings.strictOrdering := by
    rw [settings_of_progress wellFormed before]
    exact strict
  obtain ⟨_, _, edge, _⟩ := guards_of_plan strictMoment planned
  exact grown.edges m t edge

theorem path_of_sees {settings : Settings} (strict : settings.strictOrdering)
    (commands : List Command) {m x : ModuleId} :
    let atlas := (empty settings).run commands
    (atlas.scopeOf m).Sees x → atlas.importation.Path m x := by
  intro atlas seen
  have wellFormed := wellFormed_empty settings
  have progress := progress_history wellFormed commands
  have accounted := accounted_of_progress wellFormed (fun _ => rfl) progress
  refine Relation.TransGen.mono ?_ _ _ ((accounted m).imported seen)
  rintro y z ⟨level, given⟩
  exact hasDirectEdge_of_given wellFormed strict progress (Declarations.mem_ofHistory.1 given)

/-! ## Importation without cycles -/

theorem acyclic_importation_of_plan {atlas next : Atlas} (wellFormed : atlas.WellFormed)
    (looked : atlas.settings.checkAcyclic) (acyclic : atlas.importation.Acyclic)
    {command : Command} (single : command.IsSingle) {answer : Answer}
    (planned : atlas.plan command = .ok (answer, next)) : next.importation.Acyclic := by
  rcases effect_of_plan wellFormed single planned with
    undisturbed | ⟨module, imports, rfl, _⟩ | ⟨_, _, _, _, absorbed⟩
  · intro x cycle
    refine acyclic x (Relation.TransGen.mono (fun y z edge => ?_) _ _ cycle)
    rw [← undisturbed.edges]
    exact edge
  · obtain ⟨⟨done, after⟩, accepted, ⟨⟩⟩ := map_eq_ok.1 planned
    obtain ⟨_, _, _, _, _, _, rfl⟩ := planImports_eq_ok_iff.1 accepted
    have checked := wellFormed.checked .importation
    rw [looked] at checked
    exact Hierarchy.acyclic_run_fan (wellFormed.closed .importation) checked acyclic module imports
  · rw [absorbed.importation]
    exact acyclic

theorem acyclic_importation_of_progress {start atlas : Atlas} (wellFormed : start.WellFormed)
    (looked : start.settings.checkAcyclic) (acyclic : start.importation.Acyclic)
    {trace : List Command} (progress : Progress start trace atlas) :
    atlas.importation.Acyclic := by
  induction progress with
  | nil => exact acyclic
  | cons single planned _ ih =>
    have lookedNext := looked
    rw [← (grown_of_plan wellFormed single planned).settings] at lookedNext
    exact ih (wellFormed_plan wellFormed planned) lookedNext
      (acyclic_importation_of_plan wellFormed looked acyclic single planned)

/-- With cycles looked for, importation never has one. -/
theorem acyclic_importation_reached {settings : Settings} (looked : settings.checkAcyclic)
    (commands : List Command) : ((empty settings).run commands).importation.Acyclic :=
  acyclic_importation_of_progress (wellFormed_empty settings) looked
    (Hierarchy.acyclic_empty Axis.importation.name)
    (progress_history (wellFormed_empty settings) commands)

/-! ## Sight follows importation -/

/-- A known module sees another one at the level that its scope tells. -/
theorem visibilityFor_of_ne {atlas : Atlas} (wellFormed : atlas.WellFormed) {m x : ModuleId}
    {entity : Module} (known : atlas.module? m = some entity) (different : x ≠ m) :
    atlas.visibilityFor m x = .ok ((atlas.scopeOf m).levelOf x) := by
  have found : atlas.findModule m = .ok entity := Loading.findModule_eq_ok_iff.2 known
  refine bind_eq_ok.2 ⟨entity, found, ?_⟩
  rw [Module.visibilityFor, wellFormed.ids known, if_neg different, scopeOf_of_some known]
  rfl

/--
Under strict ordering a module sees, at whatever level, only what it imports directly or through
others.  If cycles are looked for as well, no module is in its own scope, and of two modules at most
one sees the other.
-/
theorem seen_is_imported (settings : Settings) (strict : settings.strictOrdering)
    (commands : List Command) :
    let atlas := (empty settings).run commands
    (∀ m x, (atlas.scopeOf m).Sees x → atlas.importation.gt m x) ∧
    (settings.checkAcyclic →
      (∀ m, ¬ (atlas.scopeOf m).Sees m) ∧
      ∀ m x level, m ≠ x → atlas.visibilityFor m x = .ok level → level ≠ .none →
        atlas.visibilityFor x m = .ok .none) := by
  intro atlas
  have wellFormed : atlas.WellFormed := wellFormed_reached settings commands
  have closed : atlas.importation.Closed := wellFormed.closed .importation
  have imported {m x : ModuleId} (seen : (atlas.scopeOf m).Sees x) : atlas.importation.gt m x :=
    closed.gt_iff_path.2 (path_of_sees strict commands seen)
  refine ⟨fun m x seen => imported seen, fun looked => ?_⟩
  have acyclic : atlas.importation.Acyclic := acyclic_importation_reached looked commands
  refine ⟨fun m seen => acyclic.gt_irrefl closed m (imported seen), ?_⟩
  intro m x level different sight visible
  obtain ⟨entity, found, _⟩ := bind_eq_ok.1 sight
  have known := Loading.findModule_eq_ok_iff.1 found
  have isLevel : (atlas.scopeOf m).levelOf x = level :=
    Except.ok.inj ((visibilityFor_of_ne wellFormed known different.symm).symm.trans sight)
  have seen : (atlas.scopeOf m).Sees x := by
    by_contra unseen
    exact visible (isLevel.symm.trans (Scope.levelOf_eq_none_iff.2 unseen))
  -- what is seen is imported and hence known, so its own sight can be asked for
  have registered : (atlas.hierarchy .importation).contains x :=
    closed.contains_target (closed.gt_iff_path.1 (imported seen))
  obtain ⟨target, knownTarget⟩ := wellFormed.contains_iff_known.1 registered
  have blind : ¬ (atlas.scopeOf x).Sees m :=
    fun back => acyclic.gt_asymm closed (imported seen) (imported back)
  rw [visibilityFor_of_ne wellFormed knownTarget different, Scope.levelOf_eq_none_iff.2 blind]

/-- Along a chain of imports the first module sees the last one, which sees nothing. -/
theorem seen_is_imported_on_chain :
    let commands : List Command := [.createFictive "a", .createFictive "b", .createFictive "c",
      .declareImports ⟨1⟩ [(⟨2⟩, .pub)], .declareImports ⟨0⟩ [(⟨1⟩, .priv)]]
    let atlas := (empty { strictOrdering := true }).run commands
    atlas.importation.gt ⟨0⟩ ⟨2⟩ ∧ ¬ (atlas.scopeOf ⟨0⟩).Sees ⟨0⟩ ∧
      atlas.visibilityFor ⟨0⟩ ⟨2⟩ = .ok .priv ∧ atlas.visibilityFor ⟨2⟩ ⟨0⟩ = .ok .none := by
  intro commands atlas
  obtain ⟨imported, oneWay⟩ := seen_is_imported { strictOrdering := true } rfl commands
  obtain ⟨notSelf, notBack⟩ := oneWay rfl
  have sight : atlas.visibilityFor ⟨0⟩ ⟨2⟩ = .ok .priv := by decide
  exact ⟨imported ⟨0⟩ ⟨2⟩ (by decide), notSelf ⟨0⟩, sight,
    notBack ⟨0⟩ ⟨2⟩ .priv (by decide) sight (by decide)⟩

/-- Without strict ordering a module may see what it does not import, itself included. -/
example :
    let commands : List Command := [.createFictive "a", .createFictive "b",
      .setVisibility ⟨1⟩ ⟨0⟩ .pub, .setVisibility ⟨0⟩ ⟨1⟩ .pub]
    let atlas := (empty {}).run commands
    (atlas.scopeOf ⟨0⟩).Sees ⟨0⟩ ∧ ¬ atlas.importation.gt ⟨0⟩ ⟨0⟩ := by
  decide

end Atlas

end ModuleAtlas
