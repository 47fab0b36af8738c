import ModuleAtlas.Proofs.Imported

/-!
# Scopes as levels

A module may sit in several sets of a scope at once, and each set is absorbed by a rule of its own.
What is asked of a scope is only the highest level of a module in it.  This level can be kept
instead of the sets: absorbing a scope raises levels to a maximum, and how far it raises them
depends on the levels that the absorbed scope shows and on nothing else.
-/

namespace ModuleAtlas

/-! ## Levels and their bounds -/

namespace Visibility

variable {left right bound : Visibility}

theorem rank_max (left right : Visibility) : (max left right).rank = max left.rank right.rank := by
  rw [Nat.max_def]
  change (if left ≤ right then right else left).rank = _
  rw [apply_ite rank]
  rfl

theorem le_max_iff : bound ≤ max left right ↔ bound ≤ left ∨ bound ≤ right := by
  simp only [le_iff, rank_max]
  omega

theorem none_le (level : Visibility) : none ≤ level := Nat.zero_le level.rank

theorem le_intrude (level : Visibility) : level ≤ intrude := by
  cases level <;> decide

theorem not_le_none (above : bound ≠ none) : ¬ bound ≤ none := by
  cases bound with
  | none => exact absurd rfl above
  | _ => decide

/-- A level is below another one if its bounds above none are bounds of the other one. -/
theorem le_of_bounds (bounds : ∀ bound, bound ≠ none → bound ≤ left → bound ≤ right) :
    left ≤ right := by
  by_cases lowest : left = none
  · rw [lowest]
    exact none_le right
  · exact bounds left lowest (Nat.le_refl _)

/-- Levels with the same bounds above none are equal. -/
theorem eq_of_bounds (same : ∀ bound, bound ≠ none → (bound ≤ left ↔ bound ≤ right)) :
    left = right := by
  refine rank_injective (Nat.le_antisymm ?_ ?_)
  · exact le_of_bounds fun bound above => (same bound above).1
  · exact le_of_bounds fun bound above => (same bound above).2

end Visibility

namespace Scope

variable {scope imported : Scope} {target x : ModuleId} {level bound : Visibility}
  {seen : ModuleId → Visibility}

/-! ## The sets behind a level -/

theorem intrude_le_levelOf : .intrude ≤ scope.levelOf x ↔ x ∈ scope.intrude := by
  unfold levelOf
  by_cases intruded : x ∈ scope.intrude
  · rw [if_pos intruded]
    exact iff_of_true (Visibility.le_intrude _) intruded
  · rw [if_neg intruded]
    refine iff_of_false ?_ intruded
    split
    · decide
    · split
      · decide
      · decide

theorem pub_le_levelOf : .pub ≤ scope.levelOf x ↔ x ∈ scope.exported := by
  rw [mem_exported]
  unfold levelOf
  by_cases intruded : x ∈ scope.intrude
  · rw [if_pos intruded]
    exact iff_of_true (Visibility.le_intrude _) (Or.inl intruded)
  · rw [if_neg intruded, or_iff_right intruded]
    by_cases isPublic : x ∈ scope.pub
    · rw [if_pos isPublic]
      exact iff_of_true (by decide) isPublic
    · rw [if_neg isPublic]
      refine iff_of_false ?_ isPublic
      split
      · decide
      · decide

theorem priv_le_levelOf : .priv ≤ scope.levelOf x ↔ scope.Sees x := by
  rw [← not_iff_not, ← levelOf_eq_none_iff]
  cases scope.levelOf x with
  | none => decide
  | _ => decide

/-! ## What absorbing does to a level -/

theorem sees_absorb :
    (scope.absorb target level imported).Sees x ↔
      scope.Sees x ∨ level = .intrude ∧ (x = target ∨ imported.Sees x) ∨
        (level = .pub ∨ level = .priv) ∧ (x = target ∨ x ∈ imported.exported) := by
  simp only [Sees, mem_intrude_absorb, mem_pub_absorb, mem_priv_absorb]
  cases level with
  | none => simp
  | _ =>
    simp
    tauto

/--
The level that an import gives to a module, where `seen` tells the levels that its target sees: the
target gets the level of the import, intrusion passes on every level, and a public or private import
passes on what its target sees at least publicly.
-/
def contribution (target : ModuleId) (level : Visibility) (seen : ModuleId → Visibility)
    (x : ModuleId) : Visibility :=
  if x = target then level
  else
    match level with
    | .intrude => seen x
    | .pub | .priv => if .pub ≤ seen x then level else .none
    | .none => .none

theorem le_contribution_iff (above : bound ≠ .none) :
    bound ≤ contribution target level seen x ↔
      level = .intrude ∧ (x = target ∨ bound ≤ seen x) ∨
        level ≠ .intrude ∧ bound ≤ level ∧ (x = target ∨ .pub ≤ seen x) := by
  have notBelow := Visibility.not_le_none above
  unfold contribution
  by_cases same : x = target
  · rw [if_pos same]
    by_cases intrusion : level = .intrude
    · simp [same, intrusion, Visibility.le_intrude]
    · simp [same, intrusion]
  · rw [if_neg same]
    cases level with
    | intrude => simp [same]
    | none => simp [notBelow]
    | _ =>
      by_cases exported : .pub ≤ seen x
      · simp [exported]
      · simp [exported, same, notBelow]

/-- Absorbing a scope raises the level of every module to what the import gives it. -/
theorem levelOf_absorb (scope imported : Scope) (target x : ModuleId) (level : Visibility) :
    (scope.absorb target level imported).levelOf x =
      max (scope.levelOf x) (contribution target level imported.levelOf x) := by
  refine Visibility.eq_of_bounds fun bound above => ?_
  rw [Visibility.le_max_iff, le_contribution_iff above]
  -- each bound asks for one set, so the rules of the sets can be compared level by level
  cases bound with
  | none => exact absurd rfl above
  | intrude =>
    simp only [intrude_le_levelOf, mem_intrude_absorb]
    refine or_congr_right ?_
    cases level with
    | intrude => simp
    | _ => simp [Visibility.le_iff, Visibility.rank]
  | pub =>
    simp only [pub_le_levelOf, mem_exported_absorb]
    refine or_congr_right ?_
    cases level with
    | intrude => simp
    | _ => simp [Visibility.le_iff, Visibility.rank]
  | priv =>
    simp only [priv_le_levelOf, pub_le_levelOf, sees_absorb]
    refine or_congr_right ?_
    cases level with
    | intrude => simp
    | _ => simp [Visibility.le_iff, Visibility.rank]

end Scope

/-! ## Level maps -/

def LevelMap := ModuleId → ModuleId → Visibility

namespace LevelMap

def blank : LevelMap := fun _ _ => .none

def propagate (levels : LevelMap) (module target : ModuleId) (level : Visibility) : LevelMap :=
  fun id x =>
    if id = module then max (levels id x) (Scope.contribution target level (levels target) x)
    else levels id x

/-- The levels after an accepted command; only giving an import its level changes any. -/
def after (levels : LevelMap) : Command → LevelMap
  | .setVisibility module target level => levels.propagate module target level
  | _ => levels

def ofHistory (history : List Command) : LevelMap := history.foldl after blank

end LevelMap

namespace Atlas

def Realizes (atlas : Atlas) (levels : LevelMap) : Prop :=
  ∀ m x, (atlas.scopeOf m).levelOf x = levels m x

theorem Realizes.absorb {atlas next : Atlas} {levels : LevelMap} (realizes : atlas.Realizes levels)
    {m t : ModuleId} {level : Visibility} (absorbed : Absorbed atlas m t level next) :
    next.Realizes (levels.propagate m t level) := by
  intro id x
  unfold LevelMap.propagate
  by_cases same : id = m
  · have seen : (atlas.scopeOf t).levelOf = levels t := funext (realizes t)
    rw [if_pos same, same, absorbed.scope, Scope.levelOf_absorb, realizes, seen]
  · rw [if_neg same, absorbed.otherScopes id same, realizes]

/-- A command changes the scopes as it changes the levels that they show. -/
theorem Realizes.step {atlas next : Atlas} {levels : LevelMap} (realizes : atlas.Realizes levels)
    (wellFormed : atlas.WellFormed) {command : Command} (single : command.IsSingle)
    {answer : Answer} (planned : atlas.plan command = .ok (answer, next)) :
    next.Realizes (levels.after command) := by
  cases command with
  | setVisibility module target level => exact realizes.absorb (absorbed_of_plan planned)
  | setImports module imports =>
    intro m x
    rw [scopeOf_congr (wired_of_plan wellFormed planned).modules]
    exact realizes m x
  | declareImports module imports => exact absurd single id
  | _ =>
    intro m x
    rw [(undisturbed_of_plan (by trivial) planned).scopes]
    exact realizes m x

theorem Realizes.progress {start atlas : Atlas} {levels : LevelMap} {history : List Command}
    (realizes : start.Realizes levels) (wellFormed : start.WellFormed)
    (progress : Progress start history atlas) :
    atlas.Realizes (history.foldl LevelMap.after levels) := by
  induction progress generalizing levels with
  | nil => exact realizes
  | cons single planned _ ih =>
    exact ih (realizes.step wellFormed single planned) (wellFormed_plan wellFormed planned)

theorem realizes_reached (settings : Settings) (commands : List Command) :
    ((empty settings).run commands).Realizes
      (LevelMap.ofHistory ((empty settings).history commands)) := by
  have wellFormed := wellFormed_empty settings
  have blind : (empty settings).Realizes LevelMap.blank := fun _ _ => rfl
  exact blind.progress wellFormed (progress_history wellFormed commands)

/-- A known module intrudes itself and sees the others at the level that its scope tells. -/
theorem visibilityFor_of_known {atlas : Atlas} (wellFormed : atlas.WellFormed) {m : ModuleId}
    (known : (atlas.module? m).isSome) (x : ModuleId) :
    atlas.visibilityFor m x =
      .ok (if x = m then .intrude else (atlas.scopeOf m).levelOf x) := by
  obtain ⟨entity, found⟩ := Option.isSome_iff_exists.1 known
  by_cases same : x = m
  · refine bind_eq_ok.2 ⟨entity, Loading.findModule_eq_ok_iff.2 found, ?_⟩
    rw [Module.visibilityFor, wellFormed.ids found, if_pos same, if_pos same]
    rfl
  · rw [if_neg same]
    exact visibilityFor_of_ne wellFormed found same

/--
Whatever the settings and the commands, the scopes show the levels that are computed from the
accepted commands alone, by a map that keeps one level for each pair of modules.  So what a scope
answers, now and after any further command, does not depend on the lower sets that a module sits in.
-/
theorem scopes_realize_levels (settings : Settings) (commands : List Command) :
    let atlas := (empty settings).run commands
    let levels := LevelMap.ofHistory ((empty settings).history commands)
    (∀ m x, (atlas.scopeOf m).levelOf x = levels m x) ∧
    (∀ m x, (atlas.module? m).isSome →
      atlas.visibilityFor m x = .ok (if x = m then .intrude else levels m x)) ∧
    ∀ (others : Settings) (otherCommands : List Command),
      let twin := (empty others).run otherCommands
      (∀ m x, (twin.scopeOf m).levelOf x = (atlas.scopeOf m).levelOf x) →
      ∀ (command : Command) (answer twinAnswer : Answer), command.IsSingle →
        (atlas.perform command).answer = .ok answer →
        (twin.perform command).answer = .ok twinAnswer →
          ∀ m x, ((twin.perform command).atlas.scopeOf m).levelOf x =
            ((atlas.perform command).atlas.scopeOf m).levelOf x := by
  intro atlas levels
  have wellFormed : atlas.WellFormed := wellFormed_reached settings commands
  have realizes : atlas.Realizes levels := realizes_reached settings commands
  refine ⟨realizes, fun m x known => ?_, ?_⟩
  · rw [visibilityFor_of_known wellFormed known, realizes]
  · intro others otherCommands twin same command answer twinAnswer single answered twinAnswered m x
    have twinWellFormed : twin.WellFormed := wellFormed_reached others otherCommands
    have twinRealizes : twin.Realizes levels := fun m x => (same m x).trans (realizes m x)
    have planned := plan_of_answer_ok wellFormed single answered
    have twinPlanned := plan_of_answer_ok twinWellFormed single twinAnswered
    rw [realizes.step wellFormed single planned]
    exact twinRealizes.step twinWellFormed single twinPlanned m x

/--
The second module has the third one in its public and in its private set, in the twin in its public
set only.  The first module intrudes the second one and sees the third one publicly in both.
-/
theorem scopes_realize_levels_of_overlap :
    let commands : List Command := [.createFictive "a", .createFictive "b", .createFictive "c",
      .setVisibility ⟨1⟩ ⟨2⟩ .priv, .setVisibility ⟨1⟩ ⟨2⟩ .pub]
    let otherCommands : List Command := [.createFictive "a", .createFictive "b",
      .createFictive "c", .setVisibility ⟨1⟩ ⟨2⟩ .pub]
    let atlas := (empty {}).run commands
    let twin := (empty {}).run otherCommands
    let command : Command := .setVisibility ⟨0⟩ ⟨1⟩ .intrude
    (⟨2⟩ ∈ (atlas.scopeOf ⟨1⟩).priv ∧ ¬ ⟨2⟩ ∈ (twin.scopeOf ⟨1⟩).priv) ∧
      (atlas.scopeOf ⟨1⟩).levelOf ⟨2⟩ =
        LevelMap.ofHistory ((empty {}).history commands) ⟨1⟩ ⟨2⟩ ∧
      atlas.visibilityFor ⟨1⟩ ⟨1⟩ = .ok .intrude ∧
      ((twin.perform command).atlas.scopeOf ⟨0⟩).levelOf ⟨2⟩ =
        ((atlas.perform command).atlas.scopeOf ⟨0⟩).levelOf ⟨2⟩ := by
  intro commands otherCommands atlas twin command
  obtain ⟨sameLevels, sight, continued⟩ := scopes_realize_levels {} commands
  refine ⟨by decide, sameLevels ⟨1⟩ ⟨2⟩, sight ⟨1⟩ ⟨1⟩ rfl, ?_⟩
  have overlapping : atlas.scopeOf ⟨1⟩ = { pub := .singleton ⟨2⟩, priv := .singleton ⟨2⟩ } := by
    decide
  have plain : twin.scopeOf ⟨1⟩ = { pub := .singleton ⟨2⟩ } := by decide
  have same : ∀ m x, (twin.scopeOf m).levelOf x = (atlas.scopeOf m).levelOf x := by
    rintro ⟨_ | _ | _ | beyond⟩ x
    · rfl
    · rw [overlapping, plain]
      by_cases third : x = ⟨2⟩
      · simp [Scope.levelOf, third]
      · simp [Scope.levelOf, third]
    · rfl
    · rfl
  exact continued {} otherCommands same command .done .done trivial rfl rfl ⟨0⟩ ⟨2⟩

end Atlas

end ModuleAtlas
