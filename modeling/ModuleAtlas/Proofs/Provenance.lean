import Mathlib.Data.List.Induction
import ModuleAtlas.Atlas.Query
import ModuleAtlas.Proofs.History
import ModuleAtlas.Proofs.Sight

/-!
# Where visibility comes from

Scopes may be folded in too early, repeatedly, from the module itself or around cycles, and what is
folded in is then incomplete.  It is never too much: whatever a module sees at a level is reached by
a trail of imports that were given their levels in the run and that spell a word of that level.
-/

namespace ModuleAtlas

namespace Declarations

variable {imports more : Declarations} {m t x : ModuleId} {level : Visibility}

/-! ## The imports of a history -/

def ofHistory (history : List Command) : Declarations := fun module =>
  history.filterMap fun command =>
    match command with
    | .setVisibility importer target level =>
      if importer = module then some (target, level) else none
    | _ => none

theorem mem_ofHistory {history : List Command} :
    (t, level) ∈ ofHistory history m ↔ .setVisibility m t level ∈ history := by
  simp only [ofHistory, List.mem_filterMap]
  constructor
  · rintro ⟨command, listed, gives⟩
    split at gives
    next importer target other =>
      split at gives
      next same =>
        obtain ⟨rfl, rfl⟩ := Prod.mk.inj (Option.some.inj gives)
        exact same ▸ listed
      next => cases gives
    next => cases gives
  · intro listed
    exact ⟨_, listed, if_pos rfl⟩

/-! ## More imports, more trails -/

def Within (imports more : Declarations) : Prop := ∀ m, ∀ entry ∈ imports m, entry ∈ more m

theorem within_ofHistory (history : List Command) (command : Command) :
    (ofHistory history).Within (ofHistory (history ++ [command])) := by
  rintro m ⟨t, level⟩ member
  exact mem_ofHistory.2 (List.mem_append_left _ (mem_ofHistory.1 member))

theorem Trail.mono (within : imports.Within more) {word : List Visibility}
    (trail : imports.Trail m word x) : more.Trail m word x := by
  induction word generalizing m with
  | nil => exact trail
  | cons level word ih =>
    obtain ⟨t, edge, further⟩ := trail
    exact ⟨t, within m (t, level) edge, ih further⟩

theorem Intrudes.mono (within : imports.Within more) (intrudes : imports.Intrudes m x) :
    more.Intrudes m x := by
  obtain ⟨word, trail, spelling⟩ := intrudes
  exact ⟨word, trail.mono within, spelling⟩

theorem SeesPublicly.mono (within : imports.Within more) (sees : imports.SeesPublicly m x) :
    more.SeesPublicly m x := by
  obtain ⟨word, trail, spelling⟩ := sees
  exact ⟨word, trail.mono within, spelling⟩

theorem SeesPrivately.mono (within : imports.Within more) (sees : imports.SeesPrivately m x) :
    more.SeesPrivately m x := by
  obtain ⟨before, after, trail, spelling⟩ := sees
  exact ⟨before, after, trail.mono within, spelling⟩

/-! ## Scopes that trails account for -/

/-- Trails lead from a module to everything in a scope, and spell words of its level there. -/
structure Accounts (imports : Declarations) (m : ModuleId) (scope : Scope) : Prop where
  intrude : ∀ x ∈ scope.intrude, imports.Intrudes m x
  pub : ∀ x ∈ scope.pub, imports.SeesPublicly m x
  priv : ∀ x ∈ scope.priv, imports.SeesPrivately m x

namespace Accounts

variable {scope imported : Scope}

theorem empty (imports : Declarations) (m : ModuleId) : imports.Accounts m .empty where
  intrude _ seen := absurd seen NodeSet.not_mem_empty
  pub _ seen := absurd seen NodeSet.not_mem_empty
  priv _ seen := absurd seen NodeSet.not_mem_empty

theorem mono (within : imports.Within more) (accounts : imports.Accounts m scope) :
    more.Accounts m scope where
  intrude x seen := (accounts.intrude x seen).mono within
  pub x seen := (accounts.pub x seen).mono within
  priv x seen := (accounts.priv x seen).mono within

/-- A trail accounts for a module itself and for what it exports. -/
theorem exports (accounts : imports.Accounts m scope) (passed : x = m ∨ x ∈ scope.exported) :
    imports.Exports m x := by
  rw [exports_iff]
  rcases passed with same | exported
  · exact Or.inl same
  · rcases Scope.mem_exported.1 exported with intruded | seen
    · exact Or.inr (Or.inl (accounts.intrude x intruded))
    · exact Or.inr (Or.inr (accounts.pub x seen))

/-- An import puts its edge in front of the trails that account for the scope of its target. -/
theorem absorb (edge : (t, level) ∈ imports m) (accounts : imports.Accounts m scope)
    (target : imports.Accounts t imported) :
    imports.Accounts m (scope.absorb t level imported) where
  intrude x seen := by
    rcases Scope.mem_intrude_absorb.1 seen with old | ⟨rfl, same | intruded⟩
    · exact accounts.intrude x old
    · exact intrudes_iff.2 ⟨t, edge, Or.inl same⟩
    · exact intrudes_iff.2 ⟨t, edge, Or.inr (target.intrude x intruded)⟩
  pub x seen := by
    rcases Scope.mem_pub_absorb.1 seen with old | ⟨rfl, visible⟩ | ⟨rfl, passed⟩
    · exact accounts.pub x old
    · exact seesPublicly_iff.2 ⟨t, Or.inl ⟨edge, target.pub x visible⟩⟩
    · exact seesPublicly_iff.2 ⟨t, Or.inr ⟨edge, target.exports passed⟩⟩
  priv x seen := by
    rcases Scope.mem_priv_absorb.1 seen with old | ⟨rfl, visible⟩ | ⟨rfl, passed⟩
    · exact accounts.priv x old
    · exact seesPrivately_iff.2 ⟨t, Or.inl ⟨edge, target.priv x visible⟩⟩
    · exact seesPrivately_iff.2 ⟨t, Or.inr ⟨edge, target.exports passed⟩⟩

end Accounts

end Declarations

namespace Atlas

open Declarations (ofHistory)

/-! ## Runs -/

def Accounted (atlas : Atlas) (imports : Declarations) : Prop :=
  ∀ m, imports.Accounts m (atlas.scopeOf m)

theorem Accounted.mono {atlas : Atlas} {imports more : Declarations} (within : imports.Within more)
    (accounted : atlas.Accounted imports) : atlas.Accounted more :=
  fun id => (accounted id).mono within

/-- Giving a declared import its level adds to a scope only what the declarations account for. -/
theorem Accounted.absorb {atlas next : Atlas} {imports : Declarations} {m t : ModuleId}
    {level : Visibility} (accounted : atlas.Accounted imports) (edge : (t, level) ∈ imports m)
    (absorbed : Absorbed atlas m t level next) : next.Accounted imports := by
  intro id
  by_cases same : id = m
  · rw [same, absorbed.scope]
    exact (accounted m).absorb edge (accounted t)
  · rw [absorbed.otherScopes id same]
    exact accounted id

/-- One more command adds to a scope only what its own declaration accounts for. -/
theorem Accounted.step {atlas next : Atlas} (wellFormed : atlas.WellFormed)
    {history : List Command} (accounted : atlas.Accounted (ofHistory history)) {command : Command}
    (single : command.IsSingle) {answer : Answer}
    (planned : atlas.plan command = .ok (answer, next)) :
    next.Accounted (ofHistory (history ++ [command])) := by
  have earlier := accounted.mono (Declarations.within_ofHistory history command)
  rcases effect_of_plan wellFormed single planned with
    undisturbed | ⟨_, _, _, wired⟩ | ⟨module, target, level, rfl, absorbed⟩
  · intro id
    rw [undisturbed.scopes]
    exact earlier id
  · intro id
    rw [scopeOf_congr wired.modules]
    exact earlier id
  · have last := List.mem_singleton_self (Command.setVisibility module target level)
    have edge := Declarations.mem_ofHistory.2 (List.mem_append_right history last)
    exact earlier.absorb edge absorbed

theorem accounted_of_progress {start atlas : Atlas} (wellFormed : start.WellFormed)
    (blind : ∀ id, start.scopeOf id = .empty) {history : List Command}
    (progress : Progress start history atlas) : atlas.Accounted (ofHistory history) := by
  induction history using List.reverseRecOn generalizing atlas with
  | nil =>
    cases progress
    intro id
    rw [blind]
    exact .empty _ id
  | append_singleton history command ih =>
    obtain ⟨middle, answer, earlier, single, planned⟩ := progress.last
    exact (ih earlier).step (earlier.wellFormed wellFormed) single planned

/-! ## What stays private -/

/-- What a module sees privately is neither the module itself nor exported by it. -/
theorem not_passed_of_private {atlas : Atlas} (wellFormed : atlas.WellFormed) {t x : ModuleId}
    (hidden : atlas.visibilityFor t x = .ok .priv) :
    ¬ (x = t ∨ x ∈ (atlas.scopeOf t).exported) := by
  obtain ⟨entity, found, level⟩ := bind_eq_ok.1 hidden
  have known := Loading.findModule_eq_ok_iff.1 found
  have level : entity.visibilityFor x = .priv := Except.ok.inj level
  rw [scopeOf_of_some known, Scope.mem_exported]
  unfold Module.visibilityFor Scope.levelOf at level
  rw [wellFormed.ids known] at level
  split at level
  next => cases level
  next different =>
    split at level
    next => cases level
    next notIntruded =>
      split at level
      next => cases level
      next notPublic =>
        rintro (same | intruded | isPublic)
        · exact different same
        · exact notIntruded intruded
        · exact notPublic isPublic

/-- Public and private levels add nothing to a scope but the target and what it exports. -/
theorem scope_kept_of_not_passed {atlas : Atlas} (wellFormed : atlas.WellFormed) {m t x : ModuleId}
    {level : Visibility} (flat : level = .pub ∨ level = .priv)
    (notPassed : ¬ (x = t ∨ x ∈ (atlas.scopeOf t).exported)) :
    let next := (atlas.perform (.setVisibility m t level)).atlas
    (x ∈ (next.scopeOf m).intrude ↔ x ∈ (atlas.scopeOf m).intrude) ∧
      (x ∈ (next.scopeOf m).pub ↔ x ∈ (atlas.scopeOf m).pub) ∧
      (x ∈ (next.scopeOf m).priv ↔ x ∈ (atlas.scopeOf m).priv) := by
  intro next
  have single : (Command.setVisibility m t level).IsSingle := trivial
  have notIntrude : level ≠ .intrude := by
    rcases flat with rfl | rfl
    · exact nofun
    · exact nofun
  cases planned : atlas.plan (.setVisibility m t level) with
  | error fault =>
    have unchanged : next = atlas := (perform_of_plan_error wellFormed single planned).2
    rw [unchanged]
    exact ⟨Iff.rfl, Iff.rfl, Iff.rfl⟩
  | ok result =>
    obtain ⟨answer, after⟩ := result
    have reached : next = after := (perform_of_plan_ok wellFormed single planned).2
    rw [reached, (absorbed_of_plan planned).scope, Scope.mem_intrude_absorb, Scope.mem_pub_absorb,
      Scope.mem_priv_absorb]
    simp only [notIntrude, notPassed, false_and, and_false, or_false, and_self]

/--
Whatever the settings and in whatever order commands come, a module sees another one at a level only
if a trail of imports that got their levels in the run leads there and spells a word of that level.
In particular a public or private level for a module passes on nothing that the module only sees
privately.
-/
theorem visible_by_trail (settings : Settings) (commands : List Command) :
    let atlas := (empty settings).run commands
    let imports := ofHistory ((empty settings).history commands)
    (∀ m x, (x ∈ (atlas.scopeOf m).intrude → imports.Intrudes m x) ∧
      (x ∈ (atlas.scopeOf m).pub → imports.SeesPublicly m x) ∧
      (x ∈ (atlas.scopeOf m).priv → imports.SeesPrivately m x)) ∧
    ∀ m t x level, level = .pub ∨ level = .priv → atlas.visibilityFor t x = .ok .priv →
      let next := (atlas.perform (.setVisibility m t level)).atlas
      (x ∈ (next.scopeOf m).intrude ↔ x ∈ (atlas.scopeOf m).intrude) ∧
        (x ∈ (next.scopeOf m).pub ↔ x ∈ (atlas.scopeOf m).pub) ∧
        (x ∈ (next.scopeOf m).priv ↔ x ∈ (atlas.scopeOf m).priv) := by
  intro atlas imports
  have wellFormed : atlas.WellFormed := wellFormed_reached settings commands
  have accounted : atlas.Accounted imports :=
    accounted_of_progress (wellFormed_empty settings) (fun _ => rfl)
      (progress_history (wellFormed_empty settings) commands)
  constructor
  · intro m x
    exact ⟨(accounted m).intrude x, (accounted m).pub x, (accounted m).priv x⟩
  · intro m t x level flat hidden
    exact scope_kept_of_not_passed wellFormed flat (not_passed_of_private wellFormed hidden)

/--
The second module sees itself publicly around a cycle, and it sees the last one privately.  A public
level for the second module does not show the last one to the first.
-/
theorem visible_by_trail_around_cycle :
    let commands : List Command := [.createFictive "a", .createFictive "b", .createFictive "c",
      .setVisibility ⟨1⟩ ⟨0⟩ .pub, .setVisibility ⟨0⟩ ⟨1⟩ .intrude, .setVisibility ⟨1⟩ ⟨2⟩ .priv,
      .setVisibility ⟨1⟩ ⟨0⟩ .pub]
    let atlas := (empty {}).run commands
    let imports := ofHistory ((empty {}).history commands)
    imports.Intrudes ⟨0⟩ ⟨1⟩ ∧ imports.SeesPublicly ⟨1⟩ ⟨1⟩ ∧ imports.SeesPrivately ⟨1⟩ ⟨2⟩ ∧
      ¬ ⟨2⟩ ∈ (((atlas.perform (.setVisibility ⟨0⟩ ⟨1⟩ .pub)).atlas).scopeOf ⟨0⟩).pub := by
  intro commands atlas imports
  obtain ⟨trails, kept⟩ := visible_by_trail {} commands
  refine ⟨(trails ⟨0⟩ ⟨1⟩).1 (by decide), (trails ⟨1⟩ ⟨1⟩).2.1 (by decide),
    (trails ⟨1⟩ ⟨2⟩).2.2 (by decide), fun seen => ?_⟩
  have before := (kept ⟨0⟩ ⟨1⟩ ⟨2⟩ .pub (Or.inl rfl) rfl).2.1.1 seen
  exact absurd before (by decide)

end Atlas

end ModuleAtlas
