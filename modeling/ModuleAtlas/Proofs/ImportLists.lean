import ModuleAtlas.Proofs.Imported
import ModuleAtlas.Proofs.Insertion
import ModuleAtlas.Proofs.Wiring

/-!
# Accepted lists of imports

Each import of a list is checked on its own, against the hierarchy as it is before the first edge of
the list is added.  That is enough for the whole list: edges out of one module help no path to come
back to it.  So a list is accepted exactly if all its edges together close no cycle, and otherwise
the first import that has something wrong with it decides what is answered.
-/

namespace ModuleAtlas

/-- A list of checks fails as the first of them does that fails. -/
theorem forM_eq_error_iff {α ε : Type} {check : α → Except ε Unit} {items : List α} {fault : ε} :
    items.forM check = .error fault ↔ ∃ before item after, items = before ++ item :: after ∧
      (∀ earlier ∈ before, check earlier = .ok ()) ∧ check item = .error fault := by
  induction items with
  | nil => simp [pure, Except.pure]
  | cons first rest ih =>
    change check first >>= (fun _ => rest.forM check) = .error fault ↔ _
    cases checked : check first with
    | error other =>
      constructor
      · rintro ⟨⟩
        exact ⟨[], first, rest, rfl, List.forall_mem_nil _, checked⟩
      · rintro ⟨before, item, after, divided, passed, failed⟩
        cases before with
        | nil =>
          obtain ⟨rfl, _⟩ := List.cons.inj divided
          exact checked.symm.trans failed
        | cons head before =>
          obtain ⟨rfl, _⟩ := List.cons.inj divided
          cases checked.symm.trans (passed first List.mem_cons_self)
    | ok value =>
      refine ih.trans ⟨?_, ?_⟩
      · rintro ⟨before, item, after, rfl, passed, failed⟩
        exact ⟨first :: before, item, after, rfl, List.forall_mem_cons.2 ⟨checked, passed⟩, failed⟩
      · rintro ⟨before, item, after, divided, passed, failed⟩
        cases before with
        | nil =>
          obtain ⟨rfl, _⟩ := List.cons.inj divided
          cases checked.symm.trans failed
        | cons head before =>
          obtain ⟨_, others⟩ := List.cons.inj divided
          exact ⟨before, item, after, others, (List.forall_mem_cons.1 passed).2, failed⟩

namespace Atlas

def Named (atlas : Atlas) : Prop := ∀ axis, (atlas.hierarchy axis).name = axis.name

section Named

variable {atlas next : Atlas}

theorem named_empty (settings : Settings) : (empty settings).Named := by
  intro axis
  cases axis with
  | nesting => rfl
  | importation => rfl

theorem Named.addModule (named : atlas.Named) (module : Module) :
    (atlas.addModule module).Named := by
  intro axis
  cases axis with
  | nesting => exact (Hierarchy.name_register _ _).trans (named .nesting)
  | importation => exact (Hierarchy.name_register _ _).trans (named .importation)

theorem Named.nested (named : atlas.Named) (owner : ModuleId) (members : List ModuleId) :
    (atlas.nested owner members).Named := by
  intro axis
  cases axis with
  | nesting => exact (Hierarchy.name_run_fan _ _ _).trans (named .nesting)
  | importation => exact named .importation

theorem Named.importing (named : atlas.Named) (module : ModuleId) (imports : List ModuleId) :
    (atlas.importing module imports).Named := by
  intro axis
  cases axis with
  | nesting => exact named .nesting
  | importation => exact (Hierarchy.name_run_fan _ _ _).trans (named .importation)

theorem Named.settled (named : atlas.Named) (group : GroupId) (module : ModuleId) :
    (atlas.settled group module).Named := by
  unfold Atlas.settled
  cases atlas.ownerIn group module with
  | none => exact named
  | some owner => exact named.nested owner [module]

theorem Named.joined (named : atlas.Named) (group : GroupId) (home : Group) (module : Module) :
    (atlas.joined group home module).Named := by
  have grown : ((atlas.addModule module).addMember group module.id).Named :=
    named.addModule module
  by_cases namesake : home.name = module.name
  · rw [Loading.joined_named namesake]
    have appointed : (((atlas.addModule module).addMember group module.id).appointed group
        (home.members ++ [module.id]) module.id).Named := grown.nested _ _
    exact appointed.settled group module.id
  · rw [Loading.joined_unnamed namesake]
    exact grown.settled group module.id

theorem named_of_plan (named : atlas.Named) {command : Command} {answer : Answer}
    (planned : atlas.plan command = .ok (answer, next)) : next.Named := by
  cases step_of_plan planned with
  | project name => exact named
  | @group project parent name projectKnown parentKnown =>
    cases parent with
    | none => exact named
    | some parent => exact named
  | loose name location fictive => exact named.addModule _
  | @member group home project name location found inProject free => exact named.joined group home _
  | appointed found vacant member => exact named.nested _ _
  | confirmed => exact named
  | importing wires => exact named.importing _ _
  | absorbing known => exact named
  | attached module => exact named

theorem named_of_progress {trace : List Command} (named : atlas.Named)
    (progress : Progress atlas trace next) : next.Named := by
  induction progress with
  | nil => exact named
  | cons _ planned _ ih => exact ih (named_of_plan named planned)

theorem named_reached (settings : Settings) (commands : List Command) :
    ((empty settings).run commands).Named :=
  named_of_progress (named_empty settings)
    (progress_history (wellFormed_empty settings) commands)

end Named

/-! ## What is wrong with an import -/

/-- An import is unknown, or it is the importer itself or imports it while cycles are looked for. -/
inductive ImportFault (atlas : Atlas) (module imported : ModuleId) : Fault → Prop where
  | unknown (missing : atlas.module? imported = none) :
      ImportFault atlas module imported (.unknownModule imported)
  | cycle {importer entity : Module} (looked : atlas.settings.checkAcyclic)
      (isImporter : atlas.module? module = some importer)
      (isImported : atlas.module? imported = some entity)
      (back : imported = module ∨ atlas.importation.Path imported module) :
      ImportFault atlas module imported
        (.cycle "importation" importer.fullName entity.fullName)

/-- What is wrong with the first import of a list that something is wrong with. -/
def FirstFault (atlas : Atlas) (module : ModuleId) (imports : List ModuleId) (fault : Fault) :
    Prop :=
  ∃ before imported after, imports = before ++ imported :: after ∧
    (∀ earlier ∈ before, ∀ other, ¬ atlas.ImportFault module earlier other) ∧
    atlas.ImportFault module imported fault

section Checks

variable {atlas : Atlas} {m imported : ModuleId} {importer : Module} {imports : List ModuleId}

theorem wouldCycle_iff (wellFormed : atlas.WellFormed) :
    atlas.wouldCycle m imported ↔ atlas.settings.checkAcyclic ∧
      (imported = m ∨ atlas.importation.Path imported m) := by
  have closed : atlas.importation.Closed := wellFormed.closed .importation
  simp only [wouldCycle, Bool.and_eq_true, Bool.or_eq_true, decide_eq_true_eq, closed.gt_iff_path]

/-- The check of an import fails with what is wrong with it. -/
theorem checkImport_eq_error_iff (wellFormed : atlas.WellFormed) (named : atlas.Named)
    (known : atlas.module? m = some importer) {fault : Fault} :
    atlas.checkImport m imported = .error fault ↔ atlas.ImportFault m imported fault := by
  have name : atlas.importation.name = "importation" := named .importation
  have fullName : atlas.fullNameOf m = importer.fullName := by simp [fullNameOf, known]
  unfold checkImport findModule
  cases found : atlas.module? imported with
  | none =>
    constructor
    · rintro ⟨⟩
      exact .unknown found
    · rintro (⟨_⟩ | ⟨_, _, isImported, _⟩)
      · rfl
      · cases found.symm.trans isImported
  | some entity =>
    have entityName : atlas.fullNameOf imported = entity.fullName := by simp [fullNameOf, found]
    change (if atlas.wouldCycle m imported = true then _ else _) = _ ↔ _
    by_cases cyclic : atlas.wouldCycle m imported
    · obtain ⟨looked, back⟩ := (wouldCycle_iff wellFormed).1 cyclic
      rw [if_pos cyclic, name, fullName, entityName]
      constructor
      · rintro ⟨⟩
        exact .cycle looked known found back
      · rintro (⟨missing⟩ | ⟨_, isImporter, isImported, _⟩)
        · cases found.symm.trans missing
        · obtain rfl := Option.some.inj (known.symm.trans isImporter)
          obtain rfl := Option.some.inj (found.symm.trans isImported)
          rfl
    · rw [if_neg cyclic]
      constructor
      · rintro ⟨⟩
      · rintro (⟨missing⟩ | ⟨looked, _, _, back⟩)
        · cases found.symm.trans missing
        · exact absurd ((wouldCycle_iff wellFormed).2 ⟨looked, back⟩) cyclic

theorem checkImport_eq_ok_iff_no_fault (wellFormed : atlas.WellFormed) (named : atlas.Named)
    (known : atlas.module? m = some importer) :
    atlas.checkImport m imported = .ok () ↔ ∀ fault, ¬ atlas.ImportFault m imported fault := by
  simp only [← checkImport_eq_error_iff wellFormed named known]
  cases atlas.checkImport m imported with
  | ok value => simp
  | error fault => simp

/-- A list of imports is refused for what is wrong with the first that something is wrong with. -/
theorem checkImports_eq_error_iff (wellFormed : atlas.WellFormed) (named : atlas.Named)
    (known : atlas.module? m = some importer) {fault : Fault} :
    atlas.checkImports m imports = .error fault ↔ atlas.FirstFault m imports fault := by
  rw [checkImports, forM_eq_error_iff]
  simp only [checkImport_eq_ok_iff_no_fault wellFormed named known,
    checkImport_eq_error_iff wellFormed named known, FirstFault]

theorem checkImports_eq_ok_iff_no_fault (wellFormed : atlas.WellFormed) (named : atlas.Named)
    (known : atlas.module? m = some importer) :
    atlas.checkImports m imports = .ok () ↔
      ∀ imported ∈ imports, ∀ fault, ¬ atlas.ImportFault m imported fault := by
  rw [Loading.checkImports_eq_ok_iff]
  simp only [checkImport_eq_ok_iff_no_fault wellFormed named known]

/-! ## What is answered -/

/-- A module without imports gets a list of them as the checks of the list say. -/
theorem planImports_of_importless (wellFormed : atlas.WellFormed)
    (known : atlas.module? m = some importer)
    (importless : ∀ y, ¬ atlas.importation.hasDirectEdge m y) :
    atlas.planImports m imports =
      (atlas.checkImports m imports).map fun _ => ((), atlas.importing m imports) := by
  have registered : (atlas.hierarchy .importation).contains m :=
    wellFormed.contains_iff_known.2 ⟨importer, known⟩
  obtain ⟨entry, found⟩ := Hierarchy.contains_iff.1 registered
  have isEmpty : entry.directBelow.isEmpty := by
    refine NodeSet.isEmpty_iff.2 fun y listed => importless y ?_
    exact Hierarchy.hasDirectEdge_iff.2 ⟨entry, found, listed⟩
  have noImports : ¬ (!entry.directBelow.isEmpty) = true := by simp [isEmpty]
  unfold planImports
  rw [Loading.findModule_eq_ok_iff.2 known, entry_eq_ok_iff.2 found]
  change (if (!entry.directBelow.isEmpty) = true then _ else _) = _
  rw [if_neg noImports]
  cases atlas.checkImports m imports with
  | ok value => rfl
  | error fault => rfl

theorem answer_of_importless (wellFormed : atlas.WellFormed)
    (known : atlas.module? m = some importer)
    (importless : ∀ y, ¬ atlas.importation.hasDirectEdge m y) :
    (atlas.perform (.setImports m imports)).answer =
      (atlas.checkImports m imports).map fun _ => .done := by
  have single : (Command.setImports m imports).IsSingle := trivial
  have planned : atlas.plan (.setImports m imports) =
      (atlas.checkImports m imports).map fun _ => (.done, atlas.importing m imports) := by
    rw [plan, planImports_of_importless wellFormed known importless]
    cases atlas.checkImports m imports with
    | ok value => rfl
    | error fault => rfl
  cases checked : atlas.checkImports m imports with
  | ok value =>
    rw [checked] at planned
    exact (perform_of_plan_ok wellFormed single planned).1
  | error fault =>
    rw [checked] at planned
    exact (perform_of_plan_error wellFormed single planned).1

/-- A module without imports is refused a list for what is wrong with the first faulty import. -/
theorem refused_iff_firstFault (wellFormed : atlas.WellFormed) (named : atlas.Named)
    (known : atlas.module? m = some importer)
    (importless : ∀ y, ¬ atlas.importation.hasDirectEdge m y) {fault : Fault} :
    (atlas.perform (.setImports m imports)).answer = .error fault ↔
      atlas.FirstFault m imports fault := by
  rw [← checkImports_eq_error_iff wellFormed named known,
    answer_of_importless wellFormed known importless]
  cases atlas.checkImports m imports with
  | ok value => simp [Except.map]
  | error other => simp [Except.map]

/-- A module without imports gets a list of them that nothing is wrong with. -/
theorem accepted_iff_no_fault (wellFormed : atlas.WellFormed) (named : atlas.Named)
    (known : atlas.module? m = some importer)
    (importless : ∀ y, ¬ atlas.importation.hasDirectEdge m y) :
    (atlas.perform (.setImports m imports)).answer = .ok .done ↔
      ∀ imported ∈ imports, ∀ fault, ¬ atlas.ImportFault m imported fault := by
  rw [← checkImports_eq_ok_iff_no_fault wellFormed named known,
    answer_of_importless wellFormed known importless]
  cases atlas.checkImports m imports with
  | ok value => simp [Except.map]
  | error other => simp [Except.map]

/-- Imports are refused as set already exactly to a module that has some. -/
theorem refused_as_set_iff (wellFormed : atlas.WellFormed) (named : atlas.Named)
    (known : atlas.module? m = some importer) {name : String} :
    (atlas.perform (.setImports m imports)).answer = .error (.importsAlreadySet name) ↔
      name = importer.fullName ∧ ∃ y, atlas.importation.hasDirectEdge m y := by
  constructor
  · intro refused
    by_cases wired : ∃ y, atlas.importation.hasDirectEdge m y
    · obtain ⟨y, edge⟩ := wired
      have other := (wiring_refused wellFormed known edge).1 imports
      rw [refused, Except.error.injEq, Fault.importsAlreadySet.injEq] at other
      exact ⟨other, y, edge⟩
    · have importless := not_exists.1 wired
      have first := (refused_iff_firstFault wellFormed named known importless).1 refused
      obtain ⟨_, _, _, _, _, ⟨⟩⟩ := first
  · rintro ⟨rfl, y, edge⟩
    exact (wiring_refused wellFormed known edge).1 imports

theorem refused_of_unknown (wellFormed : atlas.WellFormed) (missing : atlas.module? m = none) :
    (atlas.perform (.setImports m imports)).answer = .error (.unknownModule m) := by
  have single : (Command.setImports m imports).IsSingle := trivial
  have refused : atlas.plan (.setImports m imports) = .error (.unknownModule m) := by
    simp only [plan, planImports, findModule, missing]
    rfl
  exact (perform_of_plan_error wellFormed single refused).1

/-! ## What is accepted -/

theorem wired_of_accepted (wellFormed : atlas.WellFormed)
    (accepted : (atlas.perform (.setImports m imports)).answer = .ok .done) :
    Wired atlas m imports (atlas.perform (.setImports m imports)).atlas := by
  have single : (Command.setImports m imports).IsSingle := trivial
  exact wired_of_plan wellFormed (plan_of_answer_ok wellFormed single accepted)

/-- Wired imports leave no cycle exactly if they close none with the edges that were there. -/
theorem Wired.acyclic_iff {before after : Atlas} (wired : Wired before m imports after) :
    after.importation.Acyclic ↔ before.importation.AcyclicWith (imports.map (Prod.mk m)) := by
  have pairs (x y : ModuleId) : (x, y) ∈ imports.map (Prod.mk m) ↔ x = m ∧ y ∈ imports := by
    simp [eq_comm, and_comm]
  simp only [Hierarchy.Acyclic, Hierarchy.AcyclicWith, Hierarchy.Path, wired.edges, pairs]

/-- Imports of a module without any, all known, are accepted exactly if they close no cycle. -/
theorem accepted_iff_acyclicWith (wellFormed : atlas.WellFormed) (named : atlas.Named)
    (looked : atlas.settings.checkAcyclic) (acyclic : atlas.importation.Acyclic)
    (known : atlas.module? m = some importer)
    (importless : ∀ y, ¬ atlas.importation.hasDirectEdge m y)
    (allKnown : ∀ imported ∈ imports, (atlas.module? imported).isSome) :
    (atlas.perform (.setImports m imports)).answer = .ok .done ↔
      atlas.importation.AcyclicWith (imports.map (Prod.mk m)) := by
  constructor
  · intro accepted
    rw [← (wired_of_accepted wellFormed accepted).acyclic_iff]
    have single : (Command.setImports m imports).IsSingle := trivial
    have planned := plan_of_answer_ok wellFormed single accepted
    exact acyclic_importation_of_plan wellFormed looked acyclic single planned
  · intro acyclicWith
    rw [accepted_iff_no_fault wellFormed named known importless]
    rintro imported listed _ (⟨missing⟩ | ⟨_, _, _, back⟩)
    · exact Option.isSome_iff_ne_none.1 (allKnown imported listed) missing
    · obtain ⟨different, noPath⟩ := acyclicWith.harmless (List.mem_map_of_mem listed)
      exact back.elim different noPath

end Checks

/--
Every answer to a declaration of imports, whatever commands came before it.  An unknown module gets
no imports, and neither does one that has some.  Any other module is refused its imports for what is
wrong with the first of them that something is wrong with, and gets them if there is no such import.
While cycles are looked for, known imports are accepted if and only if the direct edges with all of
them together form no cycle.  What was accepted is what the module imports directly; the imports of
all other modules stay, and importation is the transitive closure of its direct edges.
-/
theorem imports_accepted_exactly (settings : Settings) (commands : List Command) (m : ModuleId)
    (imports : List ModuleId) :
    let atlas := (empty settings).run commands
    let outcome := atlas.perform (.setImports m imports)
    (atlas.module? m = none → outcome.answer = .error (.unknownModule m)) ∧
    ∀ importer, atlas.module? m = some importer →
      (∀ name, outcome.answer = .error (.importsAlreadySet name) ↔
        name = importer.fullName ∧ ∃ y, atlas.importation.hasDirectEdge m y) ∧
      ((∀ y, ¬ atlas.importation.hasDirectEdge m y) →
        (∀ fault, outcome.answer = .error fault ↔ atlas.FirstFault m imports fault) ∧
        (outcome.answer = .ok .done ↔
          ∀ imported ∈ imports, ∀ fault, ¬ atlas.ImportFault m imported fault) ∧
        (settings.checkAcyclic → (∀ imported ∈ imports, (atlas.module? imported).isSome) →
          (outcome.answer = .ok .done ↔
            atlas.importation.AcyclicWith (imports.map (Prod.mk m))))) ∧
      (outcome.answer = .ok .done →
        (∀ y, outcome.atlas.importation.hasDirectEdge m y ↔ y ∈ imports) ∧
        (∀ x y, x ≠ m → (outcome.atlas.importation.hasDirectEdge x y ↔
          atlas.importation.hasDirectEdge x y)) ∧
        ∀ x y, outcome.atlas.importation.gt x y ↔ outcome.atlas.importation.Path x y) := by
  intro atlas outcome
  have wellFormed : atlas.WellFormed := wellFormed_reached settings commands
  have named : atlas.Named := named_reached settings commands
  refine ⟨fun missing => refused_of_unknown wellFormed missing, fun importer known =>
    ⟨fun name => refused_as_set_iff wellFormed named known, fun importless =>
      ⟨fun fault => refused_iff_firstFault wellFormed named known importless,
        accepted_iff_no_fault wellFormed named known importless, ?_⟩, fun accepted => ?_⟩⟩
  · intro looked allKnown
    have sameSettings : atlas.settings = settings := settings_run settings commands
    have acyclic : atlas.importation.Acyclic := acyclic_importation_reached looked commands
    exact accepted_iff_acyclicWith wellFormed named (sameSettings ▸ looked) acyclic known importless
      allKnown
  · have wired : Wired atlas m imports outcome.atlas := wired_of_accepted wellFormed accepted
    have wellFormedAfter := wellFormed_perform wellFormed (.setImports m imports)
    have closed : outcome.atlas.importation.Closed := wellFormedAfter.closed .importation
    refine ⟨fun y => ?_, fun x y other => ?_, fun x y => closed.gt_iff_path⟩
    · rw [wired.edges, or_iff_right (wired.importless y), and_iff_right rfl]
    · rw [wired.edges, or_iff_left fun new => other new.1]

/-- Imports listed twice are accepted, and an import back is refused before an unknown one. -/
theorem imports_accepted_exactly_in_order :
    let commands : List Command := [.createFictive "a", .createFictive "b", .createFictive "c",
      .setImports ⟨0⟩ [⟨1⟩]]
    let atlas := (empty {}).run commands
    let repeated : List ModuleId := [⟨2⟩, ⟨2⟩]
    let outcome := atlas.perform (.setImports ⟨1⟩ repeated)
    (atlas.perform (.setImports ⟨3⟩ [])).answer = .error (.unknownModule ⟨3⟩) ∧
      (atlas.perform (.setImports ⟨0⟩ [])).answer = .error (.importsAlreadySet "a") ∧
      outcome.answer = .ok .done ∧
      atlas.importation.AcyclicWith (repeated.map (Prod.mk ⟨1⟩)) ∧
      (∀ y, outcome.atlas.importation.hasDirectEdge ⟨1⟩ y ↔ y ∈ repeated) ∧
      atlas.FirstFault ⟨1⟩ [⟨2⟩, ⟨0⟩, ⟨3⟩] (.cycle "importation" "b" "a") := by
  intro commands atlas repeated outcome
  have allKnown : ∀ imported ∈ repeated, (atlas.module? imported).isSome := by decide
  have accepted : outcome.answer = .ok .done := by decide
  have edge : atlas.importation.hasDirectEdge ⟨0⟩ ⟨1⟩ := by decide
  have unknown := (imports_accepted_exactly {} commands ⟨3⟩ []).1 rfl
  obtain ⟨again, _⟩ := (imports_accepted_exactly {} commands ⟨0⟩ []).2 _ rfl
  obtain ⟨already, first, after⟩ := (imports_accepted_exactly {} commands ⟨1⟩ repeated).2 _ rfl
  have importless (y : ModuleId) : ¬ atlas.importation.hasDirectEdge ⟨1⟩ y := fun wired =>
    nomatch accepted.symm.trans ((already "b").2 ⟨rfl, y, wired⟩)
  obtain ⟨_, back, _⟩ := (imports_accepted_exactly {} commands ⟨1⟩ [⟨2⟩, ⟨0⟩, ⟨3⟩]).2 _ rfl
  refine ⟨unknown, (again "a").2 ⟨rfl, _, edge⟩, accepted, ?_, (after accepted).1, ?_⟩
  · exact ((first importless).2.2 rfl allKnown).1 accepted
  · exact ((back importless).1 _).1 (by decide)

end Atlas

end ModuleAtlas
