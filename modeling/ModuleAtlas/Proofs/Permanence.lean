import Mathlib.Data.List.Nodup
import ModuleAtlas.Proofs.Arrangement
import ModuleAtlas.Proofs.Convergence
import ModuleAtlas.Proofs.Levels

/-!
# What is never taken back

Commands only ever add.  Whatever an atlas knows of modules, members, default modules, edges, scopes
and marks is still there after any command, whether it succeeds, fails or stops half-way.  So no
module ever sees less of another one than before, and a scope that absorbs another one grows by as
many entries as are new to it.
-/

namespace ModuleAtlas

/-! ## Levels that are opened once -/

namespace Visibility

variable {lower upper level required : Visibility}

/-- Intrusion opens what is private as well; any level at all opens what asks for more. -/
theorem grants_iff : level.grants required ↔
    .intrude ≤ level ∧ .priv ≤ required ∨ .priv ≤ level ∧ .priv < required := by
  cases level with
  | none => cases required <;> decide
  | _ => cases required <;> decide

/-- A higher level opens whatever a lower one opens. -/
theorem grants_mono (below : lower ≤ upper) (granted : lower.grants required) :
    upper.grants required := by
  rcases grants_iff.1 granted with ⟨full, asked⟩ | ⟨some, asked⟩
  · exact grants_iff.2 (Or.inl ⟨Nat.le_trans full below, asked⟩)
  · exact grants_iff.2 (Or.inr ⟨Nat.le_trans some below, asked⟩)

end Visibility

/-! ## Entries of scopes -/

/-- Of a list without duplicates, what a part of it leaves is counted by subtraction. -/
theorem length_filter_not_mem {α : Type} [BEq α] [LawfulBEq α] {part whole : List α}
    (partOnce : part.Nodup) (once : whole.Nodup) (within : ∀ x ∈ part, x ∈ whole) :
    (whole.filter fun x => x ∉ part).length = whole.length - part.length := by
  have kept : (whole.filter fun x => x ∈ part).Perm part := by
    refine (List.perm_ext_iff_of_nodup (once.filter _) partOnce).2 fun x => ?_
    simpa using within x
  have total := List.length_eq_length_filter_add (l := whole) fun x => x ∈ part
  simp only [← decide_not] at total
  have counted := kept.length_eq
  omega

namespace Scope

def entries (scope : Scope) : List (Visibility × ModuleId) :=
  scope.intrude.toList.map (Prod.mk .intrude) ++
    (scope.pub.toList.map (Prod.mk .pub) ++ scope.priv.toList.map (Prod.mk .priv))

theorem mem_entries {scope : Scope} {entry : Visibility × ModuleId} :
    entry ∈ scope.entries ↔ entry.1 = .intrude ∧ entry.2 ∈ scope.intrude ∨
      entry.1 = .pub ∧ entry.2 ∈ scope.pub ∨ entry.1 = .priv ∧ entry.2 ∈ scope.priv := by
  obtain ⟨level, x⟩ := entry
  simp [entries, eq_comm]
  tauto

theorem length_entries (scope : Scope) : scope.entries.length = scope.size := by
  simp only [entries, List.length_append, List.length_map, size, NodeSet.size, Nat.add_assoc]

theorem nodup_entries (scope : Scope) : scope.entries.Nodup := by
  have once (level : Visibility) (set : NodeSet ModuleId) :
      (set.toList.map (Prod.mk level)).Nodup :=
    List.Nodup.map (Prod.mk_right_injective level) (NodeSet.nodup set)
  have lower := List.nodup_append.2 ⟨once .pub scope.pub, once .priv scope.priv, by simp⟩
  refine List.nodup_append.2 ⟨once .intrude scope.intrude, lower, ?_⟩
  rintro entry intruded _ shown rfl
  obtain ⟨x, _, rfl⟩ := List.mem_map.1 intruded
  simp at shown

namespace Within

variable {part whole : Scope} {x : ModuleId}

theorem entries (within : part.Within whole) {entry : Visibility × ModuleId}
    (shown : entry ∈ part.entries) : entry ∈ whole.entries := by
  rw [mem_entries] at shown ⊢
  rcases shown with ⟨level, seen⟩ | ⟨level, seen⟩ | ⟨level, seen⟩
  · exact Or.inl ⟨level, within.intrude _ seen⟩
  · exact Or.inr (Or.inl ⟨level, within.pub _ seen⟩)
  · exact Or.inr (Or.inr ⟨level, within.priv _ seen⟩)

/-- The difference in size counts the entries that only the larger scope has. -/
theorem added_eq (within : part.Within whole) :
    part.added whole = (whole.entries.filter fun entry => entry ∉ part.entries).length := by
  rw [length_filter_not_mem (nodup_entries part) (nodup_entries whole)
    fun _ shown => within.entries shown, length_entries, length_entries]
  rfl

/-- The larger of two scopes shows every module at least at the same level. -/
theorem levelOf_le (within : part.Within whole) : part.levelOf x ≤ whole.levelOf x := by
  refine Visibility.le_of_bounds fun bound above seen => ?_
  cases bound with
  | none => exact absurd rfl above
  | intrude => exact intrude_le_levelOf.2 (within.intrude x (intrude_le_levelOf.1 seen))
  | pub =>
    rw [pub_le_levelOf, mem_exported] at seen ⊢
    exact seen.imp (within.intrude x) (within.pub x)
  | priv =>
    rw [priv_le_levelOf] at seen ⊢
    exact seen.imp (within.intrude x) (Or.imp (within.pub x) (within.priv x))

end Within

end Scope

/-! ## Modules as they were created -/

/-- A later state of a module: what it was given when it was created is the same. -/
structure Module.Remains (earlier later : Module) : Prop where
  id : later.id = earlier.id
  name : later.name = earlier.name
  fullName : later.fullName = earlier.fullName
  location : later.location = earlier.location
  group : later.group = earlier.group

namespace Module.Remains

theorem refl (module : Module) : module.Remains module := ⟨rfl, rfl, rfl, rfl, rfl⟩

theorem trans {first second third : Module} (earlier : first.Remains second)
    (later : second.Remains third) : first.Remains third where
  id := later.id.trans earlier.id
  name := later.name.trans earlier.name
  fullName := later.fullName.trans earlier.fullName
  location := later.location.trans earlier.location
  group := later.group.trans earlier.group

end Module.Remains

namespace Atlas

def Retains (before after : Atlas) : Prop :=
  ∀ id earlier, before.module? id = some earlier →
    ∃ later, after.module? id = some later ∧ earlier.Remains later

namespace Retains

variable {atlas after : Atlas}

theorem of_same (modules : after.modules = atlas.modules) : Retains atlas after := by
  intro id earlier known
  refine ⟨earlier, ?_, .refl earlier⟩
  rw [module?, modules]
  exact known

theorem of_append {module : Module} (modules : after.modules = atlas.modules ++ [module]) :
    Retains atlas after := by
  intro id earlier known
  refine ⟨earlier, ?_, .refl earlier⟩
  rw [module?, modules]
  exact module?_addModule_of_some known module

theorem addModule (atlas : Atlas) (module : Module) : Retains atlas (atlas.addModule module) := by
  have modules : (atlas.addModule module).modules = atlas.modules ++ [module] := rfl
  exact .of_append modules

theorem updateModule (changed : ModuleId) {change : Module → Module}
    (remains : ∀ {earlier}, atlas.module? changed = some earlier →
      earlier.Remains (change earlier)) : Retains atlas (atlas.updateModule changed change) := by
  intro id earlier known
  rw [module?_updateModule, known, Option.map_some]
  by_cases same : changed = id
  · rw [if_pos same]
    exact ⟨change earlier, rfl, remains (same ▸ known)⟩
  · rw [if_neg same]
    exact ⟨earlier, rfl, .refl earlier⟩

end Retains

theorem modules_settled (atlas : Atlas) (group : GroupId) (module : ModuleId) :
    (atlas.settled group module).modules = atlas.modules := by
  unfold settled
  split <;> rfl

theorem modules_joined (atlas : Atlas) (group : GroupId) (home : Group) (module : Module) :
    (atlas.joined group home module).modules = atlas.modules ++ [module] := by
  by_cases named : home.name = module.name
  · rw [Loading.joined_named named, modules_settled]
    rfl
  · rw [Loading.joined_unnamed named, modules_settled]
    rfl

theorem retains_of_plan {atlas next : Atlas} {command : Command} {answer : Answer}
    (planned : atlas.plan command = .ok (answer, next)) : Retains atlas next := by
  cases step_of_plan planned with
  | project name => exact .of_same rfl
  | group name projectKnown parentKnown => exact .of_same (regroups_addGroup atlas _).modules
  | loose name location fictive => exact .addModule atlas _
  | @member group home project name location found inProject free =>
    exact .of_append (modules_joined atlas group home _)
  | appointed found vacant member => exact .of_same rfl
  | confirmed => exact .of_same rfl
  | importing wires => exact .of_same rfl
  | @absorbing module _ _ importer _ isImporter =>
    refine .updateModule module fun {earlier} known => ?_
    rw [Option.some.inj (known.symm.trans isImporter)]
    exact ⟨rfl, rfl, rfl, rfl, rfl⟩
  | attached module => exact .updateModule module fun _ => ⟨rfl, rfl, rfl, rfl, rfl⟩

/-! ## Atlases that only grow -/

/-- Everything that one atlas knows is known by the other one as well. -/
structure Keeps (before after : Atlas) : Prop where
  modules : Retains before after
  members : ∀ {group module}, before.Lists group module → after.Lists group module
  standing : ∀ {module group}, before.StandsFor module group → after.StandsFor module group
  edges : ∀ axis x y,
    (before.hierarchy axis).hasDirectEdge x y → (after.hierarchy axis).hasDirectEdge x y
  closure : ∀ axis x y, (before.hierarchy axis).gt x y → (after.hierarchy axis).gt x y
  scopes : ∀ id, (before.scopeOf id).Within (after.scopeOf id)
  marks : ∀ id target, target ∈ before.propagatedBy id → target ∈ after.propagatedBy id

namespace Keeps

theorem refl (atlas : Atlas) : Keeps atlas atlas where
  modules := .of_same rfl
  members := id
  standing := id
  edges _ _ _ := id
  closure _ _ _ := id
  scopes _ := .refl _
  marks _ _ := id

theorem trans {before middle after : Atlas} (first : Keeps before middle)
    (second : Keeps middle after) : Keeps before after where
  modules := by
    intro id earlier known
    obtain ⟨later, found, remains⟩ := first.modules id earlier known
    obtain ⟨last, foundLast, remainsLast⟩ := second.modules id later found
    exact ⟨last, foundLast, remains.trans remainsLast⟩
  members lists := second.members (first.members lists)
  standing stands := second.standing (first.standing stands)
  edges axis x y edge := second.edges axis x y (first.edges axis x y edge)
  closure axis x y path := second.closure axis x y (first.closure axis x y path)
  scopes id := (first.scopes id).trans (second.scopes id)
  marks id target marked := second.marks id target (first.marks id target marked)

end Keeps

/-- A single command adds to scopes and to marks. -/
theorem sight_of_plan {atlas next : Atlas} (wellFormed : atlas.WellFormed) {command : Command}
    (single : command.IsSingle) {answer : Answer}
    (planned : atlas.plan command = .ok (answer, next)) (id : ModuleId) :
    (atlas.scopeOf id).Within (next.scopeOf id) ∧
      ∀ target, target ∈ atlas.propagatedBy id → target ∈ next.propagatedBy id := by
  rcases effect_of_plan wellFormed single planned with
    undisturbed | ⟨_, _, _, wired⟩ | ⟨_, _, _, _, absorbed⟩
  · rw [undisturbed.scopes, undisturbed.marks]
    exact ⟨.refl _, fun _ marked => marked⟩
  · rw [scopeOf_congr wired.modules, propagatedBy_congr wired.modules]
    exact ⟨.refl _, fun _ marked => marked⟩
  · exact ⟨absorbed.within id, fun _ => absorbed.marks_kept⟩

theorem keeps_of_plan {atlas next : Atlas} (wellFormed : atlas.WellFormed) {command : Command}
    (single : command.IsSingle) {answer : Answer}
    (planned : atlas.plan command = .ok (answer, next)) : Keeps atlas next := by
  obtain ⟨_, _, _, adds⟩ := adds_of_plan wellFormed single planned
  have edges (axis : Axis) (x y : ModuleId) (edge : (atlas.hierarchy axis).hasDirectEdge x y) :
      (next.hierarchy axis).hasDirectEdge x y := by
    cases axis with
    | nesting => exact adds.edges.2 (Or.inl edge)
    | importation => exact (grown_of_plan wellFormed single planned).edges x y edge
  have wellFormedNext := wellFormed_plan wellFormed planned
  constructor
  · exact retains_of_plan planned
  · exact fun lists => adds.lists.2 (Or.inl lists)
  · exact fun stands => adds.stands.2 (Or.inl stands)
  · exact edges
  · intro axis x y above
    rw [(wellFormed.closed axis).gt_iff_path] at above
    rw [(wellFormedNext.closed axis).gt_iff_path]
    exact Relation.TransGen.mono (edges axis) x y above
  · exact fun id => (sight_of_plan wellFormed single planned id).1
  · exact fun id => (sight_of_plan wellFormed single planned id).2

theorem keeps_of_progress {atlas after : Atlas} (wellFormed : atlas.WellFormed)
    {trace : List Command} (progress : Progress atlas trace after) : Keeps atlas after := by
  induction progress with
  | nil => exact .refl _
  | cons single planned _ ih =>
    exact (keeps_of_plan wellFormed single planned).trans (ih (wellFormed_plan wellFormed planned))

/-! ## Sight that only grows -/

section Sight

variable {before after : Atlas} {m x : ModuleId}

/-- What a module sees is never seen at a lower level later. -/
theorem Keeps.visibilityFor (keeps : Keeps before after) (wellFormed : before.WellFormed)
    (wellFormedAfter : after.WellFormed) {level : Visibility}
    (sight : before.visibilityFor m x = .ok level) :
    ∃ higher, after.visibilityFor m x = .ok higher ∧ level ≤ higher := by
  obtain ⟨entity, found, _⟩ := bind_eq_ok.1 sight
  have known := Loading.findModule_eq_ok_iff.1 found
  obtain ⟨later, knownLater, _⟩ := keeps.modules m entity known
  refine ⟨_, visibilityFor_of_known wellFormedAfter (knownLater ▸ rfl) x, ?_⟩
  rw [visibilityFor_of_known wellFormed (known ▸ rfl)] at sight
  rw [← Except.ok.inj sight]
  by_cases itself : x = m
  · rw [if_pos itself, if_pos itself]
    exact Nat.le_refl _
  · rw [if_neg itself, if_neg itself]
    exact (keeps.scopes m).levelOf_le

theorem isVisible_eq (atlas : Atlas) (m x : ModuleId) (required : Visibility) :
    atlas.isVisible m x required =
      (atlas.visibilityFor m x).map fun level => level.grants required := by
  unfold isVisible visibilityFor
  cases atlas.findModule m with
  | ok entity => rfl
  | error fault => rfl

/-- What may be used once may be used from then on. -/
theorem Keeps.isVisible (keeps : Keeps before after) (wellFormed : before.WellFormed)
    (wellFormedAfter : after.WellFormed) {required : Visibility}
    (visible : before.isVisible m x required = .ok true) :
    after.isVisible m x required = .ok true := by
  rw [isVisible_eq] at visible ⊢
  obtain ⟨level, sight, granted⟩ := map_eq_ok.1 visible
  obtain ⟨higher, later, above⟩ := keeps.visibilityFor wellFormed wellFormedAfter sight
  exact map_eq_ok.2 ⟨higher, later, Visibility.grants_mono above granted⟩

end Sight

/--
Whatever the settings and the commands, nothing is taken back: not by any further command, whether
it succeeds or fails, and not by any number of them.  So the level at which a module sees another
one never sinks, and an entity that may be used may be used from then on.  Whatever a scope absorbs,
its size grows by the number of entries that it did not have.
-/
theorem nothing_taken_back (settings : Settings) (commands : List Command) :
    let atlas := (empty settings).run commands
    (∀ command, Keeps atlas (atlas.perform command).atlas) ∧
    (∀ more,
      let later := (empty settings).run (commands ++ more)
      Keeps atlas later ∧
        (∀ m x level, atlas.visibilityFor m x = .ok level →
          ∃ higher, later.visibilityFor m x = .ok higher ∧ level ≤ higher) ∧
        ∀ m x required, atlas.isVisible m x required = .ok true →
          later.isVisible m x required = .ok true) ∧
    ∀ (scope imported : Scope) (target : ModuleId) (level : Visibility),
      let absorbed := scope.absorb target level imported
      scope.size ≤ absorbed.size ∧
        scope.added absorbed =
          (absorbed.entries.filter fun entry => entry ∉ scope.entries).length := by
  intro atlas
  have wellFormed : atlas.WellFormed := wellFormed_reached settings commands
  refine ⟨fun command => ?_, fun more => ?_, fun scope imported target level => ?_⟩
  · exact keeps_of_progress wellFormed ((perform_staged wellFormed command).progress wellFormed)
  · intro later
    have continued : later = atlas.run more := run_append (empty settings) commands more
    have keeps : Keeps atlas later := by
      rw [continued]
      exact keeps_of_progress wellFormed (progress_history wellFormed more)
    have wellFormedLater : later.WellFormed := wellFormed_reached settings (commands ++ more)
    exact ⟨keeps, fun _ _ _ => keeps.visibilityFor wellFormed wellFormedLater,
      fun _ _ _ => keeps.isVisible wellFormed wellFormedLater⟩
  · have within := Scope.within_absorb scope target level imported
    exact ⟨within.size_le, within.added_eq⟩

/-- An import that was private is intruded: it is seen at a higher level, and nothing is closed. -/
theorem nothing_taken_back_on_intrusion :
    let commands : List Command := [.createFictive "a", .createFictive "b", .createFictive "c",
      .declareImports ⟨1⟩ [(⟨2⟩, .priv)], .declareImports ⟨0⟩ [(⟨1⟩, .priv)]]
    let atlas := (empty {}).run commands
    let later := (empty {}).run (commands ++ [.setVisibility ⟨0⟩ ⟨1⟩ .intrude])
    let scope := atlas.scopeOf ⟨0⟩
    let absorbed := scope.absorb ⟨1⟩ .intrude (atlas.scopeOf ⟨1⟩)
    (atlas.perform (.setImports ⟨0⟩ [⟨2⟩])).answer = .error (.importsAlreadySet "a") ∧
      Keeps atlas (atlas.perform (.setImports ⟨0⟩ [⟨2⟩])).atlas ∧
      (∃ higher, later.visibilityFor ⟨0⟩ ⟨1⟩ = .ok higher ∧ .priv ≤ higher) ∧
      later.isVisible ⟨0⟩ ⟨1⟩ .pub = .ok true ∧
      scope.added absorbed = 2 ∧
      scope.added absorbed =
        (absorbed.entries.filter fun entry => entry ∉ scope.entries).length := by
  intro commands atlas later scope absorbed
  obtain ⟨keeps, later, counts⟩ := nothing_taken_back {} commands
  obtain ⟨_, sight, visible⟩ := later [.setVisibility ⟨0⟩ ⟨1⟩ .intrude]
  exact ⟨rfl, keeps _, sight ⟨0⟩ ⟨1⟩ .priv rfl, visible ⟨0⟩ ⟨1⟩ .pub rfl, by decide,
    (counts scope _ ⟨1⟩ .intrude).2⟩

end Atlas

end ModuleAtlas
