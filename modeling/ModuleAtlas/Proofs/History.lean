import ModuleAtlas.Proofs.Effects

/-!
# Histories

The history of a run lists the single commands that were accepted, those that a declaration of
imports carried out included.  A history is progress from the first atlas of the run to the last
one, and what holds of every edge and mark can be traced back to a command in it.
-/

namespace ModuleAtlas

namespace Atlas

/-- The commands of a list that are accepted before the first one that fails. -/
def accepted (atlas : Atlas) : List Command → List Command
  | [] => []
  | command :: rest =>
    match (atlas.perform command).answer with
    | .ok _ => command :: (atlas.perform command).atlas.accepted rest
    | .error _ => []

/-- The single commands that were carried out in a run. -/
def history (atlas : Atlas) : List Command → List Command
  | [] => []
  | command :: rest =>
    atlas.accepted command.stages ++ (atlas.perform command).atlas.history rest

theorem accepted_append {atlas after : Atlas} (wellFormed : atlas.WellFormed)
    {done : List Command} (progress : Progress atlas done after) (rest : List Command) :
    atlas.accepted (done ++ rest) = done ++ after.accepted rest := by
  induction progress with
  | nil => rfl
  | @cons atlas next after command later answer single planned _ ih =>
    obtain ⟨answered, reached⟩ := perform_of_plan_ok wellFormed single planned
    have others := ih (wellFormed_plan wellFormed planned)
    simp only [List.cons_append, accepted, answered, reached, others]

theorem Staged.progress {atlas after : Atlas} (wellFormed : atlas.WellFormed)
    {stages : List Command} {result : Except Fault Unit}
    (staged : Staged atlas stages result after) : Progress atlas (atlas.accepted stages) after := by
  cases staged with
  | all progress =>
    have everything := accepted_append wellFormed progress []
    simp only [accepted, List.append_nil] at everything
    rw [everything]
    exact progress
  | @part _ done rest failing fault divided progress single refused =>
    have answered := (perform_of_plan_error (progress.wellFormed wellFormed) single refused).1
    have before := accepted_append wellFormed progress (failing :: rest)
    simp only [accepted, answered, List.append_nil] at before
    rw [divided, before]
    exact progress

theorem mem_of_mem_accepted {atlas : Atlas} {commands : List Command} {command : Command}
    (isAccepted : command ∈ atlas.accepted commands) : command ∈ commands := by
  induction commands generalizing atlas with
  | nil => cases isAccepted
  | cons first rest ih =>
    rw [accepted] at isAccepted
    split at isAccepted
    · rcases List.mem_cons.1 isAccepted with rfl | later
      · exact List.mem_cons_self
      · exact List.mem_cons_of_mem _ (ih later)
    · cases isAccepted

/-- What is in the history of a run is a stage of one of its commands. -/
theorem exists_mem_stages_of_mem_history {atlas : Atlas} {commands : List Command}
    {command : Command} (carriedOut : command ∈ atlas.history commands) :
    ∃ origin ∈ commands, command ∈ origin.stages := by
  induction commands generalizing atlas with
  | nil => cases carriedOut
  | cons first rest ih =>
    rcases List.mem_append.1 carriedOut with isAccepted | later
    · exact ⟨first, List.mem_cons_self, mem_of_mem_accepted isAccepted⟩
    · obtain ⟨origin, listed, staged⟩ := ih later
      exact ⟨origin, List.mem_cons_of_mem _ listed, staged⟩

/-- The history of a run leads where the run leads. -/
theorem progress_history {atlas : Atlas} (wellFormed : atlas.WellFormed) (commands : List Command) :
    Progress atlas (atlas.history commands) (atlas.run commands) := by
  induction commands generalizing atlas with
  | nil => exact .nil atlas
  | cons command rest ih =>
    have first := (perform_staged wellFormed command).progress wellFormed
    exact first.append (ih (wellFormed_perform wellFormed command))

theorem run_append (atlas : Atlas) (first second : List Command) :
    atlas.run (first ++ second) = (atlas.run first).run second := List.foldl_append

theorem history_append (atlas : Atlas) (first second : List Command) :
    atlas.history (first ++ second) = atlas.history first ++ (atlas.run first).history second := by
  induction first generalizing atlas with
  | nil => rfl
  | cons command rest ih =>
    have later := ih (atlas.perform command).atlas
    rw [List.cons_append, history, later, history, List.append_assoc]
    rfl

/-! ## Cutting a history -/

namespace Progress

variable {atlas after : Atlas}

theorem split {first second : List Command} (progress : Progress atlas (first ++ second) after) :
    ∃ middle, Progress atlas first middle ∧ Progress middle second after := by
  induction first generalizing atlas with
  | nil => exact ⟨atlas, .nil atlas, progress⟩
  | cons command rest ih =>
    cases progress with
    | cons single planned later =>
      obtain ⟨middle, earlier, remaining⟩ := ih later
      exact ⟨middle, .cons single planned earlier, remaining⟩

/-- A command of a trace was planned at some moment, and the rest of the trace follows on it. -/
theorem cut {first second : List Command} {command : Command}
    (progress : Progress atlas (first ++ command :: second) after) :
    ∃ middle answer next, Progress atlas first middle ∧ command.IsSingle ∧
      middle.plan command = .ok (answer, next) ∧ Progress next second after := by
  obtain ⟨middle, earlier, remaining⟩ := progress.split
  cases remaining with
  | cons single planned later => exact ⟨middle, _, _, earlier, single, planned, later⟩

theorem last {commands : List Command} {command : Command}
    (progress : Progress atlas (commands ++ [command]) after) :
    ∃ middle answer, Progress atlas commands middle ∧ command.IsSingle ∧
      middle.plan command = .ok (answer, after) := by
  obtain ⟨middle, answer, next, earlier, single, planned, nothing⟩ := progress.cut
  cases nothing
  exact ⟨middle, answer, earlier, single, planned⟩

end Progress

/-! ## What is never taken back -/

structure Grown (before after : Atlas) : Prop where
  settings : after.settings = before.settings
  known : ∀ id, (before.module? id).isSome → (after.module? id).isSome
  edges : ∀ x y, before.importation.hasDirectEdge x y → after.importation.hasDirectEdge x y

theorem Grown.trans {before middle after : Atlas} (first : Grown before middle)
    (second : Grown middle after) : Grown before after where
  settings := second.settings.trans first.settings
  known id known := second.known id (first.known id known)
  edges x y edge := second.edges x y (first.edges x y edge)

theorem grown_of_plan {atlas next : Atlas} (wellFormed : atlas.WellFormed) {command : Command}
    (single : command.IsSingle) {answer : Answer}
    (planned : atlas.plan command = .ok (answer, next)) : Grown atlas next := by
  rcases effect_of_plan wellFormed single planned with
    undisturbed | ⟨_, _, _, wired⟩ | ⟨_, _, _, _, absorbed⟩
  · refine ⟨undisturbed.settings, undisturbed.known, fun x y edge => ?_⟩
    rw [undisturbed.edges]
    exact edge
  · refine ⟨wired.settings, fun id known => ?_, fun x y edge => (wired.edges x y).2 (Or.inl edge)⟩
    rw [module?, wired.modules]
    exact known
  · refine ⟨absorbed.settings, fun id known => (absorbed.known id).trans known, fun x y edge => ?_⟩
    rw [absorbed.importation]
    exact edge

theorem grown_of_progress {atlas after : Atlas} (wellFormed : atlas.WellFormed)
    {trace : List Command} (progress : Progress atlas trace after) : Grown atlas after := by
  induction progress with
  | nil => exact ⟨rfl, fun _ => id, fun _ _ => id⟩
  | cons single planned _ ih =>
    exact (grown_of_plan wellFormed single planned).trans (ih (wellFormed_plan wellFormed planned))

theorem settings_of_progress {atlas after : Atlas} (wellFormed : atlas.WellFormed)
    {trace : List Command} (progress : Progress atlas trace after) :
    after.settings = atlas.settings :=
  (grown_of_progress wellFormed progress).settings

theorem settings_perform {atlas : Atlas} (wellFormed : atlas.WellFormed) (command : Command) :
    (atlas.perform command).atlas.settings = atlas.settings :=
  settings_of_progress wellFormed ((perform_staged wellFormed command).progress wellFormed)

theorem settings_run (settings : Settings) (commands : List Command) :
    ((empty settings).run commands).settings = settings :=
  settings_of_progress (wellFormed_empty settings)
    (progress_history (wellFormed_empty settings) commands)

/-! ## Where edges and marks come from -/

theorem setImports_of_hasDirectEdge {atlas after : Atlas} (wellFormed : atlas.WellFormed)
    {trace : List Command} (progress : Progress atlas trace after) {module target : ModuleId}
    (edge : after.importation.hasDirectEdge module target) :
    atlas.importation.hasDirectEdge module target ∨
      ∃ imports, .setImports module imports ∈ trace ∧ target ∈ imports := by
  induction progress with
  | nil => exact Or.inl edge
  | @cons atlas next after command rest answer single planned _ ih =>
    rcases ih (wellFormed_plan wellFormed planned) edge with earlier | ⟨imports, declared, listed⟩
    · rcases effect_of_plan wellFormed single planned with
        undisturbed | ⟨importer, imports, rfl, wired⟩ | ⟨_, _, _, rfl, absorbed⟩
      · rw [undisturbed.edges] at earlier
        exact Or.inl earlier
      · rcases (wired.edges module target).1 earlier with old | ⟨rfl, listed⟩
        · exact Or.inl old
        · exact Or.inr ⟨imports, List.mem_cons_self, listed⟩
      · rw [absorbed.importation] at earlier
        exact Or.inl earlier
    · exact Or.inr ⟨imports, List.mem_cons_of_mem _ declared, listed⟩

theorem setVisibility_of_mem_propagatedBy {atlas after : Atlas} (wellFormed : atlas.WellFormed)
    {trace : List Command} (progress : Progress atlas trace after) {module target : ModuleId}
    (marked : target ∈ after.propagatedBy module) :
    target ∈ atlas.propagatedBy module ∨ ∃ level, .setVisibility module target level ∈ trace := by
  induction progress with
  | nil => exact Or.inl marked
  | @cons atlas next after command rest answer single planned _ ih =>
    rcases ih (wellFormed_plan wellFormed planned) marked with earlier | ⟨level, propagated⟩
    · rcases effect_of_plan wellFormed single planned with
        undisturbed | ⟨importer, imports, rfl, wired⟩ | ⟨importer, imported, level, rfl, absorbed⟩
      · rw [undisturbed.marks] at earlier
        exact Or.inl earlier
      · rw [propagatedBy_congr wired.modules] at earlier
        exact Or.inl earlier
      · by_cases same : module = importer
        · rw [same, absorbed.marks, NodeSet.mem_insert] at earlier
          rcases earlier with rfl | old
          · exact Or.inr ⟨level, same ▸ List.mem_cons_self⟩
          · exact Or.inl (same ▸ old)
        · rw [absorbed.otherMarks module same] at earlier
          exact Or.inl earlier
    · exact Or.inr ⟨level, List.mem_cons_of_mem _ propagated⟩

end Atlas

end ModuleAtlas
