import ModuleAtlas.Proofs.Imported

/-!
# Stable scopes

Without strict ordering a scope may be absorbed before it is complete, and what it gains later is
then missing from its importer.  Once no import would add anything if it got its level again,
nothing is missing any more: along a trail of imports, each scope holds what the next one exports,
whether or not the trail runs through a cycle.
-/

namespace ModuleAtlas

namespace Declarations

def Held (imports : Declarations) (scopes : ModuleId → Scope) : Prop :=
  ∀ m t level, (t, level) ∈ imports m → (scopes m).Holds t level (scopes t)

/-- A scope shows, at the level of the trail, whatever trails from a module lead to. -/
structure Covers (imports : Declarations) (m : ModuleId) (scope : Scope) : Prop where
  intrude : ∀ x, imports.Intrudes m x → x ∈ scope.intrude
  pub : ∀ x, imports.SeesPublicly m x → x ∈ scope.pub
  priv : ∀ x, imports.SeesPrivately m x → x ∈ scope.priv

/-! ## Trails through held scopes -/

namespace Held

variable {imports : Declarations} {scopes : ModuleId → Scope} {m x : ModuleId}
  {word : List Visibility}

theorem mem_intrude (held : imports.Held scopes) (trail : imports.Trail m word x)
    (nonempty : word ≠ []) (intrusions : ∀ level ∈ word, level = .intrude) :
    x ∈ (scopes m).intrude := by
  induction word generalizing m with
  | nil => exact absurd rfl nonempty
  | cons level word ih =>
    obtain ⟨t, edge, further⟩ := trail
    obtain ⟨rfl, intrusionsRest⟩ := List.forall_mem_cons.1 intrusions
    refine (held m t .intrude edge).intrude rfl x ?_
    cases word with
    | nil => exact Or.inl further
    | cons next word => exact Or.inr (ih further (List.cons_ne_nil _ _) intrusionsRest)

/-- A trail of levels that are passed on leads to the module itself or to what it exports. -/
theorem mem_exported (held : imports.Held scopes) (trail : imports.Trail m word x)
    (passed : ∀ level ∈ word, Passed level) : x = m ∨ x ∈ (scopes m).exported := by
  induction word generalizing m with
  | nil => exact Or.inl trail
  | cons level word ih =>
    obtain ⟨t, edge, further⟩ := trail
    obtain ⟨first, passedRest⟩ := List.forall_mem_cons.1 passed
    have exported := ih further passedRest
    rw [Scope.mem_exported]
    rcases first with rfl | rfl
    · have holds := held m t .intrude edge
      rcases exported with same | exported
      · exact Or.inr (Or.inl (holds.intrude rfl x (Or.inl same)))
      · rcases Scope.mem_exported.1 exported with intruded | isPublic
        · exact Or.inr (Or.inl (holds.intrude rfl x (Or.inr intruded)))
        · exact Or.inr (Or.inr (holds.intrudePub rfl x isPublic))
    · exact Or.inr (Or.inr ((held m t .pub edge).pub rfl x exported))

theorem mem_pub (held : imports.Held scopes) (trail : imports.Trail m word x)
    (passed : ∀ level ∈ word, Passed level) (isPublic : .pub ∈ word) : x ∈ (scopes m).pub := by
  induction word generalizing m with
  | nil => cases isPublic
  | cons level word ih =>
    obtain ⟨t, edge, further⟩ := trail
    obtain ⟨first, passedRest⟩ := List.forall_mem_cons.1 passed
    rcases first with rfl | rfl
    · have later : Visibility.pub ∈ word := by simpa using isPublic
      exact (held m t .intrude edge).intrudePub rfl x (ih further passedRest later)
    · exact (held m t .pub edge).pub rfl x (held.mem_exported further passedRest)

theorem mem_priv (held : imports.Held scopes) {before after : List Visibility}
    (trail : imports.Trail m (before ++ .priv :: after) x)
    (intrusions : ∀ level ∈ before, level = .intrude) (passed : ∀ level ∈ after, Passed level) :
    x ∈ (scopes m).priv := by
  induction before generalizing m with
  | nil =>
    obtain ⟨t, edge, further⟩ := trail
    exact (held m t .priv edge).priv rfl x (held.mem_exported further passed)
  | cons level before ih =>
    obtain ⟨t, edge, further⟩ := trail
    obtain ⟨rfl, intrusionsRest⟩ := List.forall_mem_cons.1 intrusions
    exact (held m t .intrude edge).intrudePriv rfl x (ih further intrusionsRest)

/-- Scopes that hold what their imports would add miss no trail. -/
theorem covers (held : imports.Held scopes) (m : ModuleId) : imports.Covers m (scopes m) where
  intrude := by
    rintro x ⟨word, trail, nonempty, intrusions⟩
    exact held.mem_intrude trail nonempty intrusions
  pub := by
    rintro x ⟨word, trail, passed, isPublic⟩
    exact held.mem_pub trail passed isPublic
  priv := by
    rintro x ⟨before, after, trail, intrusions, passed⟩
    exact held.mem_priv trail intrusions passed

end Held

end Declarations

namespace Atlas

open Declarations (ofHistory)

/-- Giving an import again any level that it got in a trace changes no scope. -/
def Stable (atlas : Atlas) (trace : List Command) : Prop :=
  ∀ m t level, .setVisibility m t level ∈ trace → ∀ id,
    (atlas.perform (.setVisibility m t level)).atlas.scopeOf id = atlas.scopeOf id

/-! ## Giving levels again -/

/-- Without strict ordering imports between known modules may get their levels again at any time. -/
structure Repeatable (imports : Declarations) (ids : List ModuleId) (atlas : Atlas) : Prop where
  wellFormed : atlas.WellFormed
  lenient : ¬ atlas.settings.strictOrdering
  known : ∀ id, (atlas.module? id).isSome ↔ id ∈ ids
  importers : ∀ {m t}, imports.Imported m t → m ∈ ids
  targets : ∀ {m t}, imports.Imported m t → t ∈ ids
  levels : ∀ {m t level}, (t, level) ∈ imports m → level ≠ .none
  accounted : atlas.Accounted imports

theorem repeatable_reached {settings : Settings} (lenient : ¬ settings.strictOrdering)
    (commands : List Command) :
    let atlas := (empty settings).run commands
    Repeatable (ofHistory ((empty settings).history commands)) (atlas.modules.map Module.id)
      atlas := by
  intro atlas
  have start := wellFormed_empty settings
  have progress := progress_history start commands
  have wellFormed : atlas.WellFormed := wellFormed_reached settings commands
  have known (id : ModuleId) :
      (atlas.module? id).isSome ↔ id ∈ atlas.modules.map Module.id := by
    rw [Option.isSome_iff_exists, wellFormed.known_iff_mem_ids]
  have admitted {m t : ModuleId} {level : Visibility}
      (declared : (t, level) ∈ ofHistory ((empty settings).history commands) m) :
      (atlas.module? m).isSome ∧ (atlas.module? t).isSome ∧ level ≠ .none := by
    obtain ⟨_, moment, _, _, _, planned, grown⟩ :=
      progress.exists_plan_of_mem start (Declarations.mem_ofHistory.1 declared)
    obtain ⟨knownImporter, knownTarget, isLevel, _⟩ := admitted_of_plan planned
    exact ⟨grown.known m knownImporter, grown.known t knownTarget, isLevel⟩
  constructor
  · exact wellFormed
  · rw [settings_run]
    exact lenient
  · exact known
  · rintro m t ⟨level, declared⟩
    exact (known m).1 (admitted declared).1
  · rintro m t ⟨level, declared⟩
    exact (known t).1 (admitted declared).2.1
  · exact fun declared => (admitted declared).2.2
  · exact accounted_of_progress start (fun _ => rfl) progress

namespace Repeatable

variable {imports : Declarations} {ids : List ModuleId} {atlas : Atlas} {m t : ModuleId}
  {level : Visibility}

theorem accepted (repeatable : Repeatable imports ids atlas) (declared : (t, level) ∈ imports m) :
    ∃ next, atlas.plan (.setVisibility m t level) = .ok (.done, next) :=
  setVisibility_accepted ((repeatable.known m).2 (repeatable.importers ⟨level, declared⟩))
    ((repeatable.known t).2 (repeatable.targets ⟨level, declared⟩)) (repeatable.levels declared)
    fun strict => absurd strict repeatable.lenient

theorem absorb (repeatable : Repeatable imports ids atlas) (declared : (t, level) ∈ imports m)
    {next : Atlas} {answer : Answer}
    (planned : atlas.plan (.setVisibility m t level) = .ok (answer, next)) :
    Repeatable imports ids next := by
  have absorbed := absorbed_of_plan planned
  refine ⟨wellFormed_plan repeatable.wellFormed planned, ?_, fun id => ?_, repeatable.importers,
    repeatable.targets, repeatable.levels, repeatable.accounted.absorb declared absorbed⟩
  · rw [absorbed.settings]
    exact repeatable.lenient
  · rw [absorbed.known]
    exact repeatable.known id

/-- Only known modules are in sight. -/
theorem mem_of_sees (repeatable : Repeatable imports ids atlas) {x : ModuleId}
    (seen : (atlas.scopeOf m).Sees x) : x ∈ ids := by
  have imported := (repeatable.accounted m).imported seen
  obtain ⟨_, _, last⟩ := Relation.TransGen.tail'_iff.1 imported
  exact repeatable.targets last

end Repeatable

/-- Absorbing a scope changes no scope exactly if it was held before. -/
theorem Absorbed.scopes_same_iff {before after : Atlas} {m t : ModuleId} {level : Visibility}
    (absorbed : Absorbed before m t level after) :
    (∀ id, after.scopeOf id = before.scopeOf id) ↔
      (before.scopeOf m).Holds t level (before.scopeOf t) := by
  constructor
  · intro same
    have holds := Scope.holds_absorb (before.scopeOf m) t level (before.scopeOf t)
    rw [← absorbed.scope, same] at holds
    exact holds
  · intro holds id
    by_cases isImporter : id = m
    · rw [isImporter, absorbed.scope]
      exact holds.absorb_eq
    · exact absorbed.otherScopes id isImporter

/-- To be stable means that all scopes hold what their imports would add. -/
theorem Repeatable.stable_iff_held {imports : Declarations} {ids : List ModuleId} {atlas : Atlas}
    (repeatable : Repeatable imports ids atlas) {trace : List Command}
    (given : ∀ m t level, .setVisibility m t level ∈ trace ↔ (t, level) ∈ imports m) :
    atlas.Stable trace ↔ imports.Held atlas.scopeOf := by
  refine forall_congr' fun m => forall_congr' fun t => forall_congr' fun level => ?_
  rw [given]
  refine forall_congr' fun declared => ?_
  have single : (Command.setVisibility m t level).IsSingle := trivial
  obtain ⟨next, planned⟩ := repeatable.accepted declared
  rw [(perform_of_plan_ok repeatable.wellFormed single planned).2]
  exact (absorbed_of_plan planned).scopes_same_iff

end Atlas

end ModuleAtlas
