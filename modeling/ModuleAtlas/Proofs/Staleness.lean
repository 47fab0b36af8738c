import Mathlib.Data.List.Induction
import ModuleAtlas.Proofs.History

/-!
# Stale scopes

Strict ordering only looks at what is declared when an import gets its level.  It refuses an import
that is not final then, but a module without imports is final, and may still get imports afterwards;
and nothing keeps an import from getting another level later.  Both leave those behind that have
already absorbed the module, as far as their own level passes on what it gains: intrusion passes on
all of it, a public or private import nothing that is gained privately.  Apart from that, nothing
that a module gains is missing from them.
-/

namespace ModuleAtlas

/--
The level at which an import at the outer level passes on what its target sees at the inner one.
Intrusion keeps the level; a public or private import does not tell intrusion from publicity and
passes on nothing that is private.
-/
def Visibility.passes (outer inner : Visibility) : Visibility :=
  match outer with
  | intrude => inner
  | pub | priv => if pub ≤ inner then outer else none
  | none => none

namespace Scope

/-- A scope already holds what absorbing another one at a level would add. -/
structure Holds (scope : Scope) (module : ModuleId) (level : Visibility) (imported : Scope) :
    Prop where
  intrude : level = .intrude → ∀ x, x = module ∨ x ∈ imported.intrude → x ∈ scope.intrude
  intrudePub : level = .intrude → ∀ x ∈ imported.pub, x ∈ scope.pub
  intrudePriv : level = .intrude → ∀ x ∈ imported.priv, x ∈ scope.priv
  pub : level = .pub → ∀ x, x = module ∨ x ∈ imported.exported → x ∈ scope.pub
  priv : level = .priv → ∀ x, x = module ∨ x ∈ imported.exported → x ∈ scope.priv

variable {scope imported : Scope} {module : ModuleId} {level outer inner : Visibility}

theorem holds_absorb (scope : Scope) (module : ModuleId) (level : Visibility) (imported : Scope) :
    (scope.absorb module level imported).Holds module level imported where
  intrude isLevel _ seen := mem_intrude_absorb.2 (Or.inr ⟨isLevel, seen⟩)
  intrudePub isLevel _ seen := mem_pub_absorb.2 (Or.inr (Or.inl ⟨isLevel, seen⟩))
  intrudePriv isLevel _ seen := mem_priv_absorb.2 (Or.inr (Or.inl ⟨isLevel, seen⟩))
  pub isLevel _ seen := mem_pub_absorb.2 (Or.inr (Or.inr ⟨isLevel, seen⟩))
  priv isLevel _ seen := mem_priv_absorb.2 (Or.inr (Or.inr ⟨isLevel, seen⟩))

/-- What is held stays held when more is absorbed. -/
theorem Holds.absorb (holds : scope.Holds module level imported) (other : ModuleId)
    (otherLevel : Visibility) (otherScope : Scope) :
    (scope.absorb other otherLevel otherScope).Holds module level imported where
  intrude isLevel x seen := mem_intrude_absorb.2 (Or.inl (holds.intrude isLevel x seen))
  intrudePub isLevel x seen := mem_pub_absorb.2 (Or.inl (holds.intrudePub isLevel x seen))
  intrudePriv isLevel x seen := mem_priv_absorb.2 (Or.inl (holds.intrudePriv isLevel x seen))
  pub isLevel x seen := mem_pub_absorb.2 (Or.inl (holds.pub isLevel x seen))
  priv isLevel x seen := mem_priv_absorb.2 (Or.inl (holds.priv isLevel x seen))

/-- Absorbing what is held already changes nothing. -/
theorem Holds.absorb_eq (holds : scope.Holds module level imported) :
    scope.absorb module level imported = scope := by
  have intrude : (scope.absorb module level imported).intrude = scope.intrude := by
    refine NodeSet.ext fun x => mem_intrude_absorb.trans (or_iff_left_of_imp ?_)
    exact fun new => holds.intrude new.1 x new.2
  have pub : (scope.absorb module level imported).pub = scope.pub := by
    refine NodeSet.ext fun x => mem_pub_absorb.trans (or_iff_left_of_imp ?_)
    rintro (new | new)
    · exact holds.intrudePub new.1 x new.2
    · exact holds.pub new.1 x new.2
  have priv : (scope.absorb module level imported).priv = scope.priv := by
    refine NodeSet.ext fun x => mem_priv_absorb.trans (or_iff_left_of_imp ?_)
    rintro (new | new)
    · exact holds.intrudePriv new.1 x new.2
    · exact holds.priv new.1 x new.2
  exact congr (congr (congrArg Scope.mk intrude) pub) priv

/-! ## What an import at a level passes on -/

theorem mem_exported_absorb {x : ModuleId} :
    x ∈ (scope.absorb module level imported).exported ↔
      x ∈ scope.exported ∨
        (level = .intrude ∨ level = .pub) ∧ (x = module ∨ x ∈ imported.exported) := by
  simp only [mem_exported, mem_intrude_absorb, mem_pub_absorb]
  cases level with
  | intrude =>
    simp
    tauto
  | pub =>
    simp
    tauto
  | priv => simp
  | none => simp

/-- What an import at a level passes on of a scope, in the sets where the importer gets it. -/
def passed (scope : Scope) (level : Visibility) : Scope :=
  match level with
  | .intrude => scope
  | .pub => { pub := scope.exported }
  | .priv => { priv := scope.exported }
  | .none => .empty

/-- Of the scope that it absorbs, an import only looks at what it passes on. -/
theorem absorb_congr {other : Scope} (same : imported.passed level = other.passed level) :
    scope.absorb module level imported = scope.absorb module level other := by
  cases level with
  | none => rfl
  | intrude => exact congrArg (scope.absorb module .intrude) same
  | pub =>
    have exported : imported.exported = other.exported := congrArg Scope.pub same
    simp only [absorb, exported]
  | priv =>
    have exported : imported.exported = other.exported := congrArg Scope.priv same
    simp only [absorb, exported]

theorem Holds.congr {other : Scope} (holds : scope.Holds module level imported)
    (same : imported.passed level = other.passed level) : scope.Holds module level other := by
  have absorbing := holds_absorb scope module level other
  rw [← absorb_congr same, holds.absorb_eq] at absorbing
  exact absorbing

theorem exported_absorb :
    (scope.absorb module inner imported).exported =
      if .pub ≤ inner then scope.exported.insert module ∪ imported.exported
      else scope.exported := by
  refine NodeSet.ext fun x => mem_exported_absorb.trans ?_
  by_cases isPassed : .pub ≤ inner
  · have exports : inner = .intrude ∨ inner = .pub := by
      cases inner with
      | intrude => exact Or.inl rfl
      | pub => exact Or.inr rfl
      | _ => exact absurd isPassed (by decide)
    rw [if_pos isPassed, and_iff_right exports, NodeSet.mem_union, NodeSet.mem_insert, or_assoc,
      or_left_comm]
  · rw [if_neg isPassed, or_iff_left]
    rintro ⟨rfl | rfl, _⟩
    · exact isPassed (by decide)
    · exact isPassed (by decide)

/-- What is passed on of a scope absorbs what is passed on of the level. -/
theorem passed_absorb :
    (scope.absorb module inner imported).passed outer =
      (scope.passed outer).absorb module (outer.passes inner) imported := by
  cases outer with
  | none => rfl
  | intrude => rfl
  | pub =>
    change Scope.mk ∅ (scope.absorb module inner imported).exported ∅ = _
    rw [exported_absorb, Visibility.passes]
    split
    · rfl
    · rfl
  | priv =>
    change Scope.mk ∅ ∅ (scope.absorb module inner imported).exported = _
    rw [exported_absorb, Visibility.passes]
    split
    · rfl
    · rfl

/-- A scope that absorbs itself holds what it has become. -/
theorem holds_absorb_self (scope : Scope) (module : ModuleId) (level : Visibility) :
    (scope.absorb module level scope).Holds module level (scope.absorb module level scope) := by
  have holds := holds_absorb scope module level scope
  cases level with
  | none => exact ⟨nofun, nofun, nofun, nofun, nofun⟩
  | intrude =>
    refine ⟨fun isLevel x seen => ?_, fun _ _ => id, fun _ _ => id, nofun, nofun⟩
    rcases seen with same | already
    · exact holds.intrude isLevel x (Or.inl same)
    · exact already
  | pub =>
    refine ⟨nofun, nofun, nofun, fun isLevel x seen => ?_, nofun⟩
    rcases seen with same | exported
    · exact holds.pub isLevel x (Or.inl same)
    · rcases mem_exported.1 exported with intruded | already
      · exact holds.pub isLevel x (Or.inr (mem_exported.2 (Or.inl intruded)))
      · exact already
  | priv => exact ⟨nofun, nofun, nofun, nofun, holds.priv⟩

/-- What absorbing adds is held by what is passed on as well, as far as it is passed on. -/
theorem Holds.passed (holds : scope.Holds module level imported) (outer : Visibility) :
    (scope.passed outer).Holds module (outer.passes level) imported := by
  have absorbing := holds_absorb (scope.passed outer) module (outer.passes level) imported
  rw [← passed_absorb, holds.absorb_eq] at absorbing
  exact absorbing

end Scope

/-! ## Reopened modules -/

/--
A module gained something that the outer level passes on, after it was propagated through at that
level: `before` ends with the propagation, `after` is what came then.  An import of the module got a
level that is passed on.  Either the import was declared only then; or it had a level already, but
none that is passed on in the same way; or it had one, and it was itself reopened since the last
time that it got one.
-/
inductive Reopened : Visibility → List Command → List Command → ModuleId → Prop where
  | late {outer level : Visibility} {before first rest : List Command} {module target : ModuleId}
      {imports : List ModuleId} (isPassed : outer.passes level ≠ .none)
      (declared : .setImports module imports ∈ first) (listed : target ∈ imports) :
      Reopened outer before (first ++ .setVisibility module target level :: rest) module
  | level {outer level other : Visibility} {before first rest : List Command}
      {module target : ModuleId} (isPassed : outer.passes level ≠ .none)
      (had : .setVisibility module target other ∈ before)
      (new : ∀ earlier, outer.passes earlier = outer.passes level →
        .setVisibility module target earlier ∉ before) :
      Reopened outer before (first ++ .setVisibility module target level :: rest) module
  | again {outer level other : Visibility} {before first rest earlier later : List Command}
      {module target : ModuleId} (isPassed : outer.passes level ≠ .none)
      (alike : outer.passes other = outer.passes level)
      (had : before ++ first = earlier ++ .setVisibility module target other :: later)
      (last : ∀ between, outer.passes between = outer.passes level →
        .setVisibility module target between ∉ later)
      (reopened : Reopened (outer.passes level)
        (earlier ++ [.setVisibility module target other]) later target) :
      Reopened outer before (first ++ .setVisibility module target level :: rest) module

namespace Reopened

variable {outer : Visibility} {before after : List Command} {module : ModuleId}

theorem append (reopened : Reopened outer before after module) (more : List Command) :
    Reopened outer before (after ++ more) module := by
  cases reopened with
  | late isPassed declared listed =>
    rw [List.append_assoc, List.cons_append]
    exact .late isPassed declared listed
  | level isPassed had new =>
    rw [List.append_assoc, List.cons_append]
    exact .level isPassed had new
  | again isPassed alike had last reopened =>
    rw [List.append_assoc, List.cons_append]
    exact .again isPassed alike had last reopened

/-- Only levels that are passed on reopen a module. -/
theorem given (reopened : Reopened outer before after module) :
    ∃ target level, outer.passes level ≠ .none ∧ .setVisibility module target level ∈ after := by
  cases reopened with
  | late isPassed => exact ⟨_, _, isPassed, List.mem_append_right _ List.mem_cons_self⟩
  | level isPassed => exact ⟨_, _, isPassed, List.mem_append_right _ List.mem_cons_self⟩
  | again isPassed => exact ⟨_, _, isPassed, List.mem_append_right _ List.mem_cons_self⟩

end Reopened

namespace Atlas

/-- One module holds what absorbing the other one at a level would add to its scope. -/
def Folded (atlas : Atlas) (module target : ModuleId) (level : Visibility) : Prop :=
  ∃ importer imported, atlas.module? module = some importer ∧
    atlas.module? target = some imported ∧ importer.scope.Holds target level imported.scope

theorem folded_iff {atlas : Atlas} {module target : ModuleId} {level : Visibility} :
    atlas.Folded module target level ↔
      (atlas.module? module).isSome ∧ (atlas.module? target).isSome ∧
        (atlas.scopeOf module).Holds target level (atlas.scopeOf target) := by
  unfold Folded scopeOf
  cases atlas.module? module with
  | none => simp
  | some importer =>
    cases atlas.module? target with
    | none => simp
    | some imported => simp

/-- Of one module folded into another one, all is there that the other one passes on in its turn. -/
def FoldedFor (atlas : Atlas) (outer : Visibility) (module target : ModuleId)
    (level : Visibility) : Prop :=
  (atlas.module? module).isSome ∧ (atlas.module? target).isSome ∧
    ((atlas.scopeOf module).passed outer).Holds target (outer.passes level) (atlas.scopeOf target)

theorem Folded.foldedFor {atlas : Atlas} {module target : ModuleId} {level : Visibility}
    (folded : atlas.Folded module target level) (outer : Visibility) :
    atlas.FoldedFor outer module target level := by
  obtain ⟨known, knownTarget, holds⟩ := folded_iff.1 folded
  exact ⟨known, knownTarget, holds.passed outer⟩

/-- Intrusion passes on all there is. -/
theorem FoldedFor.folded {atlas : Atlas} {module target : ModuleId} {level : Visibility}
    (folded : atlas.FoldedFor .intrude module target level) : atlas.Folded module target level :=
  folded_iff.2 folded

/-- Strict ordering gives levels to wired imports only, and only from final ones. -/
theorem guards_of_plan {atlas next : Atlas} (strict : atlas.settings.strictOrdering)
    {module target : ModuleId} {level : Visibility} {answer : Answer}
    (planned : atlas.plan (.setVisibility module target level) = .ok (answer, next)) :
    (atlas.module? module).isSome ∧ (atlas.module? target).isSome ∧
      atlas.importation.hasDirectEdge module target ∧ atlas.isVisibilityFinal target := by
  obtain ⟨known, knownTarget, _, ordered⟩ := admitted_of_plan planned
  exact ⟨known, knownTarget, ordered strict⟩

/-! ## Steps -/

section Steps

variable {atlas next : Atlas} {m t u : ModuleId} {outer v w : Visibility}

theorem folded_of_absorbed (absorbed : Absorbed atlas m t v next)
    (known : (atlas.module? m).isSome) (knownTarget : (atlas.module? t).isSome) :
    next.Folded m t v := by
  refine folded_iff.2 ⟨?_, ?_, ?_⟩
  · rw [absorbed.known]
    exact known
  · rw [absorbed.known]
    exact knownTarget
  · by_cases same : t = m
    · rw [same] at absorbed ⊢
      rw [absorbed.scope]
      exact Scope.holds_absorb_self _ m v
    · rw [absorbed.scope, absorbed.otherScopes t same]
      exact Scope.holds_absorb _ t v _

theorem FoldedFor.of_same (folded : atlas.FoldedFor outer m t v)
    (known : ∀ id, (atlas.module? id).isSome → (next.module? id).isSome)
    (scopes : ∀ id, next.scopeOf id = atlas.scopeOf id) : next.FoldedFor outer m t v := by
  obtain ⟨knownImporter, knownTarget, holds⟩ := folded
  refine ⟨known m knownImporter, known t knownTarget, ?_⟩
  rw [scopes, scopes]
  exact holds

/-- Fewer things matter of a target than it gains: only what the importer takes over from it. -/
theorem FoldedFor.absorb {module target : ModuleId} {level : Visibility}
    (folded : atlas.FoldedFor outer m t v) (absorbed : Absorbed atlas module target level next)
    (same : (atlas.scopeOf t).passed (outer.passes v) = (next.scopeOf t).passed (outer.passes v)) :
    next.FoldedFor outer m t v := by
  obtain ⟨known, knownTarget, holds⟩ := folded
  refine ⟨(absorbed.known m).trans known, (absorbed.known t).trans knownTarget, ?_⟩
  have held := holds.congr same
  by_cases importer : m = module
  · rw [importer] at held ⊢
    rw [absorbed.scope, Scope.passed_absorb]
    exact held.absorb target _ _
  · rw [absorbed.otherScopes m importer]
    exact held

/-- A level that is not passed on adds nothing to what is passed on. -/
theorem Absorbed.passed_of_none (absorbed : Absorbed atlas t u w next)
    (notPassed : outer.passes w = .none) :
    (atlas.scopeOf t).passed outer = (next.scopeOf t).passed outer := by
  rw [absorbed.scope, Scope.passed_absorb, notPassed]
  rfl

/-- Neither does absorbing once more what is folded in already. -/
theorem Absorbed.passed_of_foldedFor (absorbed : Absorbed atlas t u w next)
    (folded : atlas.FoldedFor outer t u v) (alike : outer.passes v = outer.passes w) :
    (atlas.scopeOf t).passed outer = (next.scopeOf t).passed outer := by
  rw [absorbed.scope, Scope.passed_absorb, ← alike]
  exact folded.2.2.absorb_eq.symm

end Steps

/-! ## Runs -/

/-- A list in which some item has a property can be cut at the last one that has it. -/
theorem exists_last_split {α : Type} {p : α → Prop} {items : List α}
    (holding : ∃ item ∈ items, p item) :
    ∃ before item after, items = before ++ item :: after ∧ p item ∧ ∀ other ∈ after, ¬ p other := by
  induction items with
  | nil => simp at holding
  | cons first rest ih =>
    by_cases later : ∃ item ∈ rest, p item
    · obtain ⟨before, item, after, rfl, holds, last⟩ := ih later
      exact ⟨first :: before, item, after, rfl, holds, last⟩
    · obtain ⟨item, listed, holds⟩ := holding
      have here : item = first := by
        rcases List.mem_cons.1 listed with same | listed
        · exact same
        · exact absurd ⟨item, listed, holds⟩ later
      refine ⟨[], first, rest, rfl, here ▸ holds, fun other listed holds => ?_⟩
      exact later ⟨other, listed, holds⟩

section Runs

variable {start atlas : Atlas} {m t u : ModuleId} {outer v w : Visibility}
  {before later : List Command}

/--
A module that was final when it was propagated through gets a level for an import that had none
only after the import was declared.
-/
theorem reopened_of_new (wellFormed : start.WellFormed) (strict : start.settings.strictOrdering)
    (unmarked : ∀ module target, ¬ target ∈ start.propagatedBy module)
    (progress : Progress start (before ++ [.setVisibility m t v] ++ later) atlas)
    (edge : atlas.importation.hasDirectEdge t u) (isPassed : outer.passes w ≠ .none)
    (new : ∀ earlier, outer.passes earlier = outer.passes w →
      .setVisibility t u earlier ∉ before ++ [.setVisibility m t v]) :
    Reopened outer (before ++ [.setVisibility m t v]) (later ++ [.setVisibility t u w]) t := by
  obtain ⟨propagated, first, second⟩ := progress.split
  obtain ⟨middle, answer, earliest, single, planned⟩ := first.last
  have strictMiddle : middle.settings.strictOrdering := by
    rw [settings_of_progress wellFormed earliest]
    exact strict
  have wellFormedMiddle := earliest.wellFormed wellFormed
  obtain ⟨_, knownTarget, _, final⟩ := guards_of_plan strictMiddle planned
  rcases setImports_of_hasDirectEdge (first.wellFormed wellFormed) second edge with
    edge | ⟨imports, declared, listed⟩
  · obtain ⟨entity, found⟩ := Option.isSome_iff_exists.1 knownTarget
    rw [(absorbed_of_plan planned).importation] at edge
    have marked := (isVisibilityFinal_iff wellFormedMiddle found).1 final u edge
    rcases setVisibility_of_mem_propagatedBy wellFormed earliest marked with marked | ⟨other, had⟩
    · exact absurd marked (unmarked t u)
    · exact .level isPassed (List.mem_append_left _ had) new
  · exact .late isPassed declared listed

/--
A module that is not reopened by a level of its own import passes on what it passed on before.
Either the level is not passed on, or all that is passed on of the import is there since it last got
a level like this one: `complete` says so of every earlier level that has stayed undisturbed.
-/
theorem passed_of_quiet (wellFormed : start.WellFormed) (strict : start.settings.strictOrdering)
    (unmarked : ∀ module target, ¬ target ∈ start.propagatedBy module)
    (progress : Progress start (before ++ [.setVisibility m t v] ++ later) atlas)
    {next : Atlas} {answer : Answer}
    (planned : atlas.plan (.setVisibility t u w) = .ok (answer, next))
    (quiet : ¬ Reopened outer (before ++ [.setVisibility m t v])
      (later ++ [.setVisibility t u w]) t)
    (complete : ∀ past level since,
      before ++ [.setVisibility m t v] ++ later = past ++ .setVisibility t u level :: since →
      ¬ Reopened (outer.passes level) (past ++ [.setVisibility t u level]) since u →
      atlas.FoldedFor outer t u level) :
    (atlas.scopeOf t).passed outer = (next.scopeOf t).passed outer := by
  have absorbed := absorbed_of_plan planned
  by_cases isPassed : outer.passes w = .none
  · exact absorbed.passed_of_none isPassed
  by_cases had : ∃ call ∈ before ++ [.setVisibility m t v] ++ later,
      ∃ level, outer.passes level = outer.passes w ∧ call = .setVisibility t u level
  · obtain ⟨past, _, since, cut, ⟨level, alike, rfl⟩, last⟩ := exists_last_split had
    have notBetween (between : Visibility) (alike : outer.passes between = outer.passes w)
        (given : .setVisibility t u between ∈ since) : False :=
      last _ given ⟨between, alike, rfl⟩
    refine absorbed.passed_of_foldedFor (complete past level since cut fun reopened => ?_) alike
    exact quiet (.again isPassed alike cut notBetween (alike ▸ reopened))
  · have strictNow : atlas.settings.strictOrdering := by
      rw [settings_of_progress wellFormed progress]
      exact strict
    obtain ⟨_, _, edge, _⟩ := guards_of_plan strictNow planned
    refine absurd (reopened_of_new wellFormed strict unmarked progress edge isPassed ?_) quiet
    intro level alike given
    exact had ⟨_, List.mem_append_left _ given, level, alike, rfl⟩

/-- What was propagated stays complete as long as the target is not reopened. -/
theorem foldedFor_of_progress (wellFormed : start.WellFormed)
    (strict : start.settings.strictOrdering)
    (unmarked : ∀ module target, ¬ target ∈ start.propagatedBy module) {trace : List Command}
    (progress : Progress start trace atlas)
    (divided : trace = before ++ .setVisibility m t v :: later)
    (quiet : ¬ Reopened (outer.passes v) (before ++ [.setVisibility m t v]) later t) :
    atlas.FoldedFor outer m t v := by
  induction trace using List.reverseRecOn generalizing atlas before later m t outer v with
  | nil => exact absurd divided.symm (List.append_ne_nil_of_right_ne_nil _ (List.cons_ne_nil _ _))
  | append_singleton trace command ih =>
    obtain ⟨middle, answer, earlier, single, planned⟩ := progress.last
    have wellFormedMiddle := earlier.wellFormed wellFormed
    have strictMiddle : middle.settings.strictOrdering := by
      rw [settings_of_progress wellFormed earlier]
      exact strict
    -- the last command is the propagation itself, or one after it that must not undo it
    rcases List.eq_nil_or_concat later with rfl | ⟨later, last, rfl⟩
    · obtain ⟨rfl, isLast⟩ := List.append_inj' divided rfl
      obtain ⟨rfl, _⟩ := List.cons.inj isLast
      obtain ⟨known, knownTarget, _, _⟩ := guards_of_plan strictMiddle planned
      exact (folded_of_absorbed (absorbed_of_plan planned) known knownTarget).foldedFor outer
    · rw [List.concat_eq_append, ← List.cons_append, ← List.append_assoc] at divided
      obtain ⟨rfl, isLast⟩ := List.append_inj' divided rfl
      obtain ⟨rfl, _⟩ := List.cons.inj isLast
      rw [List.concat_eq_append] at quiet
      have folded := ih earlier rfl fun reopened => quiet (reopened.append [command])
      rcases effect_of_plan wellFormedMiddle single planned with
        undisturbed | ⟨_, _, _, wired⟩ | ⟨module, u, w, rfl, absorbed⟩
      · exact folded.of_same undisturbed.known undisturbed.scopes
      · refine folded.of_same (fun id known => ?_) (scopeOf_congr wired.modules)
        rw [module?, wired.modules]
        exact known
      · refine folded.absorb absorbed ?_
        by_cases same : t = module
        · subst same
          rw [List.append_cons] at ih earlier
          exact passed_of_quiet wellFormed strict unmarked earlier planned quiet
            fun _ _ _ cut quietSince => ih earlier cut quietSince
        · rw [absorbed.otherScopes t same]

end Runs

/--
Under strict ordering, whatever was propagated at some point of a run is complete at its end, unless
the module that it came from has since gained something that the level passes on.
-/
theorem folded_unless_reopened (settings : Settings) (strict : settings.strictOrdering)
    (commands before after : List Command) (m t : ModuleId) (v : Visibility)
    (divided : (empty settings).history commands = before ++ .setVisibility m t v :: after)
    (quiet : ¬ Reopened v (before ++ [.setVisibility m t v]) after t) :
    ((empty settings).run commands).Folded m t v := by
  have wellFormed := wellFormed_empty settings
  have unmarked (module target : ModuleId) : ¬ target ∈ (empty settings).propagatedBy module :=
    NodeSet.not_mem_empty
  have progress := progress_history wellFormed commands
  have foldedFor : ((empty settings).run commands).FoldedFor .intrude m t v :=
    foldedFor_of_progress wellFormed strict unmarked progress divided quiet
  exact foldedFor.folded

/--
An import of the target may get every level once more after the propagation.  It is public already,
so that intrusion shows nothing new to a public import, and what is private is not passed on; for
the same reason nothing is missing of an import that has meanwhile got a private import of its own.
-/
theorem folded_despite_further_levels :
    let commands : List Command := [.createFictive "a", .createFictive "b", .createFictive "c",
      .createFictive "d", .declareImports ⟨1⟩ [(⟨2⟩, .pub)], .declareImports ⟨0⟩ [(⟨1⟩, .pub)],
      .setVisibility ⟨1⟩ ⟨2⟩ .intrude, .setVisibility ⟨1⟩ ⟨2⟩ .priv,
      .declareImports ⟨2⟩ [(⟨3⟩, .priv)], .setVisibility ⟨1⟩ ⟨2⟩ .pub]
    let before : List Command := [.createFictive "a", .createFictive "b", .createFictive "c",
      .createFictive "d", .setImports ⟨1⟩ [⟨2⟩], .setVisibility ⟨1⟩ ⟨2⟩ .pub, .setImports ⟨0⟩ [⟨1⟩]]
    let after : List Command := [.setVisibility ⟨1⟩ ⟨2⟩ .intrude, .setVisibility ⟨1⟩ ⟨2⟩ .priv,
      .setImports ⟨2⟩ [⟨3⟩], .setVisibility ⟨2⟩ ⟨3⟩ .priv, .setVisibility ⟨1⟩ ⟨2⟩ .pub]
    let start := empty { strictOrdering := true }
    start.history commands = before ++ .setVisibility ⟨0⟩ ⟨1⟩ .pub :: after ∧
      (¬ Reopened .pub (before ++ [.setVisibility ⟨0⟩ ⟨1⟩ .pub]) after ⟨1⟩) ∧
        (start.run commands).Folded ⟨0⟩ ⟨1⟩ .pub := by
  intro commands before after start
  have divided : start.history commands = before ++ .setVisibility ⟨0⟩ ⟨1⟩ .pub :: after := by
    decide
  have quiet : ¬ Reopened .pub (before ++ [.setVisibility ⟨0⟩ ⟨1⟩ .pub]) after ⟨1⟩ := by
    generalize isAfter : after = given
    intro reopened
    cases reopened with
    | @late _ _ _ _ _ _ _ imports _ declared _ =>
      have wired : .setImports ⟨1⟩ imports ∈ after := isAfter ▸ List.mem_append_left _ declared
      simp [after] at wired
    | @level _ level _ _ _ _ _ target isPassed _ new =>
      have member : .setVisibility ⟨1⟩ target level ∈ after :=
        isAfter ▸ List.mem_append_right _ List.mem_cons_self
      simp [after] at member
      rcases member with ⟨rfl, rfl⟩ | ⟨rfl, rfl⟩ | ⟨rfl, rfl⟩
      · exact new .pub rfl (by decide)
      · exact isPassed rfl
      · exact new .pub rfl (by decide)
    | @again _ level _ _ first _ earlier later _ target _ _ had _ reopened =>
      have member : .setVisibility ⟨1⟩ target level ∈ after :=
        isAfter ▸ List.mem_append_right _ List.mem_cons_self
      have sameTarget : target = ⟨2⟩ := by
        simp [after] at member
        tauto
      -- all that the import itself was given is private
      obtain ⟨inner, innerLevel, innerPassed, isGiven⟩ := reopened.given
      have listed : .setVisibility ⟨2⟩ inner innerLevel ∈
          before ++ [.setVisibility ⟨0⟩ ⟨1⟩ .pub] ++ after := by
        rw [isAfter, ← List.append_assoc, had, ← sameTarget]
        exact List.mem_append_left _ (List.mem_append_right _ (List.mem_cons_of_mem _ isGiven))
      have isPrivate : innerLevel = .priv := by
        simp [before, after] at listed
        exact listed.2
      have notPassed : (Visibility.pub.passes level).passes .priv = .none := by
        cases level <;> rfl
      exact innerPassed (isPrivate ▸ notPassed)
  exact ⟨divided, quiet, folded_unless_reopened { strictOrdering := true } rfl commands before after
    ⟨0⟩ ⟨1⟩ .pub divided quiet⟩

/--
Each way of being reopened leaves a module behind, and intrusion is left behind by a private import
as well.
-/
theorem not_folded_when_reopened :
    let start := empty { strictOrdering := true }
    let late : List Command := [.createFictive "a", .createFictive "b", .createFictive "c",
      .setImports ⟨0⟩ [⟨1⟩], .setVisibility ⟨0⟩ ⟨1⟩ .pub, .setImports ⟨1⟩ [⟨2⟩],
      .setVisibility ⟨1⟩ ⟨2⟩ .pub]
    let releveled : List Command := [.createFictive "a", .createFictive "b", .createFictive "c",
      .setImports ⟨1⟩ [⟨2⟩], .setVisibility ⟨1⟩ ⟨2⟩ .priv, .setImports ⟨0⟩ [⟨1⟩],
      .setVisibility ⟨0⟩ ⟨1⟩ .pub, .setVisibility ⟨1⟩ ⟨2⟩ .pub]
    let again : List Command := [.createFictive "a", .createFictive "b", .createFictive "c",
      .createFictive "d", .setImports ⟨1⟩ [⟨2⟩], .setVisibility ⟨1⟩ ⟨2⟩ .pub, .setImports ⟨0⟩ [⟨1⟩],
      .setVisibility ⟨0⟩ ⟨1⟩ .pub, .setImports ⟨2⟩ [⟨3⟩], .setVisibility ⟨2⟩ ⟨3⟩ .pub,
      .setVisibility ⟨1⟩ ⟨2⟩ .pub]
    let lateUnderIntrusion : List Command := [.createFictive "a", .createFictive "b",
      .createFictive "c", .setImports ⟨0⟩ [⟨1⟩], .setVisibility ⟨0⟩ ⟨1⟩ .intrude,
      .setImports ⟨1⟩ [⟨2⟩], .setVisibility ⟨1⟩ ⟨2⟩ .priv]
    (.setVisibility ⟨0⟩ ⟨1⟩ .pub ∈ start.history late ∧ ¬ (start.run late).Folded ⟨0⟩ ⟨1⟩ .pub) ∧
      (.setVisibility ⟨0⟩ ⟨1⟩ .pub ∈ start.history releveled ∧
        ¬ (start.run releveled).Folded ⟨0⟩ ⟨1⟩ .pub) ∧
      (.setVisibility ⟨0⟩ ⟨1⟩ .pub ∈ start.history again ∧
        ¬ (start.run again).Folded ⟨0⟩ ⟨1⟩ .pub) ∧
      .setVisibility ⟨0⟩ ⟨1⟩ .intrude ∈ start.history lateUnderIntrusion ∧
        ¬ (start.run lateUnderIntrusion).Folded ⟨0⟩ ⟨1⟩ .intrude := by
  intro start late releveled again lateUnderIntrusion
  refine ⟨⟨by decide, fun folded => ?_⟩, ⟨by decide, fun folded => ?_⟩,
    ⟨by decide, fun folded => ?_⟩, by decide, fun folded => ?_⟩
  · have seen := (folded_iff.1 folded).2.2.pub rfl ⟨2⟩ (Or.inr (by decide))
    exact absurd seen (by decide)
  · have seen := (folded_iff.1 folded).2.2.pub rfl ⟨2⟩ (Or.inr (by decide))
    exact absurd seen (by decide)
  · have seen := (folded_iff.1 folded).2.2.pub rfl ⟨3⟩ (Or.inr (by decide))
    exact absurd seen (by decide)
  · have seen := (folded_iff.1 folded).2.2.intrudePriv rfl ⟨2⟩ (by decide)
    exact absurd seen (by decide)

end Atlas

end ModuleAtlas
