import ModuleAtlas.Atlas.Query
import ModuleAtlas.Proofs.Effects
import ModuleAtlas.Proofs.Sight
import ModuleAtlas.Proofs.Sorting

/-!
# Propagation in an admissible order

Imports are declared module by module and then given their levels, each module after the modules
that it imports.  A module whose turn it is finds the scopes of its imports telling all their
trails, so that its own scope does the same in the end.
-/

namespace ModuleAtlas

namespace Declarations

def Imported (imports : Declarations) (m t : ModuleId) : Prop := ∃ level, (t, level) ∈ imports m

/-- Declarations between given modules, with a level for every import and without cycles. -/
structure Fits (imports : Declarations) (ids : List ModuleId) : Prop where
  importers : ∀ {m t}, imports.Imported m t → m ∈ ids
  targets : ∀ {m t}, imports.Imported m t → t ∈ ids
  levels : ∀ {m t level}, (t, level) ∈ imports m → level ≠ .none
  acyclic : ∀ m, ¬ Relation.TransGen imports.Imported m m

def ImportsFirst (imports : Declarations) (order : List ModuleId) : Prop :=
  order.Pairwise fun earlier later => ¬ imports.Imported earlier later

def wire (imports : Declarations) (m : ModuleId) : Command :=
  .setImports m ((imports m).map Prod.fst)

/-- The commands that give the imports of a module their levels, in the order of declaration. -/
def levels (imports : Declarations) (m : ModuleId) : List Command :=
  (imports m).map fun (target, level) => .setVisibility m target level

theorem imported_iff_mem {imports : Declarations} {m t : ModuleId} :
    imports.Imported m t ↔ t ∈ (imports m).map Prod.fst := by
  simp [Imported]

theorem Fits.ne {imports : Declarations} {ids : List ModuleId} (fits : imports.Fits ids)
    {m t : ModuleId} (imported : imports.Imported m t) : t ≠ m := by
  rintro rfl
  exact fits.acyclic t (.single imported)

end Declarations

namespace Atlas

variable {imports : Declarations} {ids : List ModuleId}

/-! ## Declaring all imports -/

/-- Imports are accepted as long as only declared edges are there. -/
theorem wire_accepted (fits : imports.Fits ids) {atlas : Atlas} (wellFormed : atlas.WellFormed)
    (sameIds : atlas.modules.map Module.id = ids)
    (declared : ∀ {x y}, atlas.importation.hasDirectEdge x y → imports.Imported x y)
    {m : ModuleId} (listed : m ∈ ids) (importless : ∀ y, ¬ atlas.importation.hasDirectEdge m y) :
    ∃ next, atlas.plan (imports.wire m) = .ok (.done, next) := by
  have known {id : ModuleId} (member : id ∈ ids) : ∃ entity, atlas.module? id = some entity :=
    wellFormed.known_iff_mem_ids.2 (sameIds ▸ member)
  obtain ⟨importer, isImporter⟩ := known listed
  have registered : (atlas.hierarchy .importation).contains m :=
    wellFormed.contains_iff_known.2 ⟨importer, isImporter⟩
  obtain ⟨entry, found⟩ := Hierarchy.contains_iff.1 registered
  have found : atlas.importation.get? m = some entry := found
  have isEmpty : entry.directBelow.isEmpty := by
    refine NodeSet.isEmpty_iff.2 fun y member => importless y ?_
    exact Hierarchy.hasDirectEdge_iff.2 ⟨entry, found, member⟩
  have checked : atlas.checkImports m ((imports m).map Prod.fst) = .ok () := by
    refine Loading.checkImports_eq_ok_iff.2 fun t member => ?_
    have edge := Declarations.imported_iff_mem.2 member
    refine Loading.checkImport_eq_ok_iff.2 ⟨known (fits.targets edge), ?_⟩
    have noWayBack : ¬ atlas.importation.gt t m := by
      intro above
      have path := (wellFormed.closed .importation).gt_iff_path.1 above
      have back : Relation.TransGen imports.Imported t m :=
        Relation.TransGen.mono (fun _ _ step => declared step) _ _ path
      exact fits.acyclic m (.head edge back)
    simp [wouldCycle, fits.ne edge, noWayBack]
  refine ⟨atlas.importing m ((imports m).map Prod.fst), ?_⟩
  have accepted := planImports_eq_ok_iff.2
    ⟨importer, entry, isImporter, found, isEmpty, checked, rfl⟩
  simp only [Declarations.wire, plan, accepted, Except.map]

/-- Modules without imports get the declared ones, in any order of modules. -/
theorem wiring_progress (fits : imports.Fits ids) {wiring : List ModuleId} {atlas : Atlas}
    (wellFormed : atlas.WellFormed) (sameIds : atlas.modules.map Module.id = ids)
    (declared : ∀ {x y}, atlas.importation.hasDirectEdge x y → imports.Imported x y)
    (once : wiring.Nodup) (listed : ∀ m ∈ wiring, m ∈ ids)
    (importless : ∀ m ∈ wiring, ∀ y, ¬ atlas.importation.hasDirectEdge m y) :
    ∃ next, Progress atlas (wiring.map imports.wire) next ∧ next.modules = atlas.modules ∧
      ∀ x y, next.importation.hasDirectEdge x y ↔
        atlas.importation.hasDirectEdge x y ∨ x ∈ wiring ∧ imports.Imported x y := by
  induction wiring generalizing atlas with
  | nil => exact ⟨atlas, .nil atlas, rfl, by simp⟩
  | cons m rest ih =>
    obtain ⟨fresh, onceRest⟩ := List.nodup_cons.1 once
    obtain ⟨listedFirst, listedRest⟩ := List.forall_mem_cons.1 listed
    obtain ⟨importlessFirst, importlessRest⟩ := List.forall_mem_cons.1 importless
    obtain ⟨middle, planned⟩ :=
      wire_accepted fits wellFormed sameIds declared listedFirst importlessFirst
    have wired := wired_of_plan wellFormed planned
    have edges (x y : ModuleId) : middle.importation.hasDirectEdge x y ↔
        atlas.importation.hasDirectEdge x y ∨ x = m ∧ imports.Imported x y := by
      rw [wired.edges]
      refine or_congr_right (and_congr_right ?_)
      rintro rfl
      exact Declarations.imported_iff_mem.symm
    obtain ⟨next, progress, modules, edgesNext⟩ := ih (wellFormed_plan wellFormed planned)
      (by rw [wired.modules, sameIds])
      (fun edge => ((edges _ _).1 edge).elim declared And.right) onceRest listedRest
      (fun other member y edge => ((edges _ _).1 edge).elim (importlessRest other member y)
        fun new => fresh (new.1 ▸ member))
    refine ⟨next, .cons trivial planned progress, modules.trans wired.modules, fun x y => ?_⟩
    rw [edgesNext, edges, List.mem_cons, or_and_right, or_assoc]

/-! ## Giving all imports their levels -/

/-- An atlas of the given modules in which exactly the declared imports are wired. -/
structure Ready (imports : Declarations) (ids : List ModuleId) (atlas : Atlas) : Prop where
  wellFormed : atlas.WellFormed
  edges : ∀ x y, atlas.importation.hasDirectEdge x y ↔ imports.Imported x y
  known : ∀ id, (atlas.module? id).isSome ↔ id ∈ ids

/-- The scope of a module tells the trails that start with given imports, which are all marked. -/
structure Told (imports : Declarations) (atlas : Atlas) (m : ModuleId)
    (given : List (ModuleId × Visibility)) : Prop where
  scope : imports.Tells given (atlas.scopeOf m)
  marks : ∀ entry ∈ given, entry.1 ∈ atlas.propagatedBy m

theorem Told.final {atlas : Atlas} (ready : Ready imports ids atlas) {m : ModuleId}
    {entity : Module} (known : atlas.module? m = some entity)
    (told : Told imports atlas m (imports m)) :
    atlas.isVisibilityFinal m := by
  refine (isVisibilityFinal_iff ready.wellFormed known).2 fun t edge => ?_
  obtain ⟨level, member⟩ := (ready.edges m t).1 edge
  exact told.marks (t, level) member

section Absorbing

variable {atlas next : Atlas} {m t : ModuleId} {level : Visibility}

theorem Told.absorb {given : List (ModuleId × Visibility)}
    (absorbed : Absorbed atlas m t level next) (told : Told imports atlas m given)
    (toldTarget : Told imports atlas t (imports t)) :
    Told imports next m (given ++ [(t, level)]) where
  scope := by
    rw [absorbed.scope]
    exact told.scope.absorb toldTarget.scope level
  marks := by
    intro entry member
    rw [absorbed.marks, NodeSet.mem_insert]
    rcases List.mem_append.1 member with earlier | last
    · exact Or.inr (told.marks entry earlier)
    · rw [List.mem_singleton.1 last]
      exact Or.inl rfl

theorem Told.other {id : ModuleId} {given : List (ModuleId × Visibility)}
    (absorbed : Absorbed atlas m t level next) (different : id ≠ m)
    (told : Told imports atlas id given) : Told imports next id given where
  scope := by
    rw [absorbed.otherScopes id different]
    exact told.scope
  marks := by
    intro entry member
    rw [absorbed.otherMarks id different]
    exact told.marks entry member

/-- A declared import gets its level once its target is final. -/
theorem level_accepted_of_final (fits : imports.Fits ids) (ready : Ready imports ids atlas)
    (member : (t, level) ∈ imports m) (final : atlas.isVisibilityFinal t) :
    ∃ next, atlas.plan (.setVisibility m t level) = .ok (.done, next) := by
  have edge : imports.Imported m t := ⟨level, member⟩
  refine setVisibility_accepted ((ready.known m).2 (fits.importers edge))
    ((ready.known t).2 (fits.targets edge)) (fits.levels member) fun _ => ?_
  exact ⟨(ready.edges m t).2 edge, final⟩

/-- A declared import gets its level once the scope of its target tells all trails. -/
theorem level_accepted (fits : imports.Fits ids) (ready : Ready imports ids atlas)
    (member : (t, level) ∈ imports m) (told : Told imports atlas t (imports t)) :
    ∃ next, atlas.plan (.setVisibility m t level) = .ok (.done, next) := by
  have known := (ready.known t).2 (fits.targets ⟨level, member⟩)
  obtain ⟨imported, found⟩ := Option.isSome_iff_exists.1 known
  exact level_accepted_of_final fits ready member (told.final ready found)

theorem Ready.absorb (ready : Ready imports ids atlas) {answer : Answer}
    (planned : atlas.plan (.setVisibility m t level) = .ok (answer, next)) :
    Ready imports ids next where
  wellFormed := wellFormed_plan ready.wellFormed planned
  edges := by
    rw [(absorbed_of_plan planned).importation]
    exact ready.edges
  known := by
    intro id
    rw [(absorbed_of_plan planned).known]
    exact ready.known id

end Absorbing

/-- The turn of one module: its imports get their levels, and no other scope changes. -/
theorem levels_progress (fits : imports.Fits ids) {m : ModuleId}
    {given rest : List (ModuleId × Visibility)} {atlas : Atlas} (ready : Ready imports ids atlas)
    (declared : ∀ entry ∈ rest, entry ∈ imports m)
    (ahead : ∀ t, imports.Imported m t → Told imports atlas t (imports t))
    (told : Told imports atlas m given) :
    ∃ next,
      Progress atlas (rest.map fun (target, level) => .setVisibility m target level) next ∧
      Ready imports ids next ∧ Told imports next m (given ++ rest) ∧
      ∀ id pairs, id ≠ m → Told imports atlas id pairs → Told imports next id pairs := by
  induction rest generalizing given atlas with
  | nil =>
    rw [List.append_nil]
    exact ⟨atlas, .nil atlas, ready, told, fun _ _ _ same => same⟩
  | cons entry rest ih =>
    obtain ⟨t, level⟩ := entry
    obtain ⟨member, declaredRest⟩ := List.forall_mem_cons.1 declared
    have toldTarget := ahead t ⟨level, member⟩
    obtain ⟨middle, planned⟩ := level_accepted fits ready member toldTarget
    have absorbed := absorbed_of_plan planned
    obtain ⟨next, progress, readyNext, toldNext, others⟩ := ih (ready.absorb planned) declaredRest
      (fun u edge => (ahead u edge).other absorbed (fits.ne edge)) (told.absorb absorbed toldTarget)
    rw [List.append_assoc] at toldNext
    refine ⟨next, .cons trivial planned progress, readyNext, toldNext, ?_⟩
    intro id pairs different same
    exact others id pairs different (same.other absorbed different)

/--
Modules take their turns in an order that puts imports first.  If a turn comes out well once the
turns of all imports have, and spoils nothing for other modules, the whole walk comes out well.
-/
theorem walk_induction (fits : imports.Fits ids) (Ahead Done : Atlas → ModuleId → Prop)
    (turn : ∀ {atlas m}, Ready imports ids atlas → Ahead atlas m →
      (∀ t, imports.Imported m t → Done atlas t) →
      ∃ next, Progress atlas (imports.levels m) next ∧ Ready imports ids next ∧ Done next m ∧
        ∀ id, id ≠ m → (Ahead atlas id → Ahead next id) ∧ (Done atlas id → Done next id))
    {order : List ModuleId} {atlas : Atlas} (ready : Ready imports ids atlas)
    (importsFirst : imports.ImportsFirst order) (once : order.Nodup)
    (waiting : ∀ m ∈ order, Ahead atlas m) (others : ∀ m ∈ ids, m ∈ order ∨ Done atlas m) :
    ∃ next, Progress atlas (order.flatMap imports.levels) next ∧ Ready imports ids next ∧
      ∀ m ∈ ids, Done next m := by
  induction order generalizing atlas with
  | nil =>
    refine ⟨atlas, .nil atlas, ready, fun m known => ?_⟩
    exact (others m known).resolve_left List.not_mem_nil
  | cons m rest ih =>
    obtain ⟨behind, importsFirstRest⟩ := List.pairwise_cons.1 importsFirst
    obtain ⟨fresh, onceRest⟩ := List.nodup_cons.1 once
    obtain ⟨waitingFirst, waitingRest⟩ := List.forall_mem_cons.1 waiting
    -- nothing that the first module imports is still to come
    have ahead (t : ModuleId) (edge : imports.Imported m t) : Done atlas t := by
      refine (others t (fits.targets edge)).resolve_left fun listed => ?_
      rcases List.mem_cons.1 listed with same | later
      · exact fits.ne edge same
      · exact behind t later edge
    obtain ⟨middle, first, readyMiddle, doneMiddle, kept⟩ := turn ready waitingFirst ahead
    have ne {t : ModuleId} (member : t ∈ rest) : t ≠ m := fun same => fresh (same ▸ member)
    obtain ⟨next, progress, readyNext, doneNext⟩ := ih readyMiddle importsFirstRest onceRest
      (fun t member => (kept t (ne member)).1 (waitingRest t member))
      (fun t known => by
        by_cases same : t = m
        · rw [same]
          exact Or.inr doneMiddle
        · rcases others t known with listed | done
          · exact Or.inl ((List.mem_cons.1 listed).resolve_left same)
          · exact Or.inr ((kept t same).2 done))
    exact ⟨next, first.append progress, readyNext, doneNext⟩

/-- Modules take their turns; those that had theirs, or have none to come, are told in the end. -/
theorem walk_progress (fits : imports.Fits ids) {order : List ModuleId} {atlas : Atlas}
    (ready : Ready imports ids atlas) (importsFirst : imports.ImportsFirst order)
    (once : order.Nodup) (untold : ∀ m ∈ order, Told imports atlas m [])
    (others : ∀ m ∈ ids, m ∈ order ∨ Told imports atlas m (imports m)) :
    ∃ next, Progress atlas (order.flatMap imports.levels) next ∧ Ready imports ids next ∧
      ∀ m ∈ ids, Told imports next m (imports m) := by
  refine walk_induction fits (fun atlas m => Told imports atlas m [])
    (fun atlas m => Told imports atlas m (imports m)) ?_ ready importsFirst once untold others
  intro atlas m ready untold ahead
  obtain ⟨next, turn, readyNext, told, kept⟩ :=
    levels_progress fits ready (fun _ member => member) ahead untold
  refine ⟨next, turn, readyNext, told, fun id different => ?_⟩
  exact ⟨kept id _ different, kept id _ different⟩

/-! ## What a walk comes to -/

theorem told_of_blind {atlas : Atlas} {m : ModuleId} (blind : atlas.scopeOf m = .empty) :
    Told imports atlas m [] where
  scope := by
    rw [blind]
    exact .empty imports
  marks := fun _ member => nomatch member

/-- Sorted by weight, modules stand behind what they import. -/
theorem Ready.importOrder {atlas : Atlas} (ready : Ready imports ids atlas)
    (fits : imports.Fits ids) : imports.ImportsFirst atlas.importOrder := by
  have ordered := Hierarchy.linearize_ordered (ready.wellFormed.closed .importation)
    (atlas.modules.map Module.id)
  refine List.Pairwise.imp ?_ ordered
  intro earlier later onCycle imported
  have cycle : atlas.importation.Path later later :=
    onCycle (.single ((ready.edges earlier later).2 imported))
  apply fits.acyclic later
  exact Relation.TransGen.mono (fun x y => (ready.edges x y).1) _ _ cycle

/-- Once the imports of every module are declared, exactly the declared imports are wired. -/
theorem ready_of_wiring (fits : imports.Fits ids) {atlas : Atlas} (wellFormed : atlas.WellFormed)
    (sameIds : atlas.modules.map Module.id = ids)
    (noEdge : ∀ x y, ¬ atlas.importation.hasDirectEdge x y) {wiring : List ModuleId}
    (everyModule : wiring.Perm ids) :
    ∃ next, Progress atlas (wiring.map imports.wire) next ∧ Ready imports ids next ∧
      next.modules = atlas.modules := by
  have once : wiring.Nodup := everyModule.nodup_iff.2 (sameIds ▸ wellFormed.nodup_ids)
  obtain ⟨next, progress, modules, edges⟩ := wiring_progress fits wellFormed sameIds
    (fun edge => absurd edge (noEdge _ _)) once (fun m member => everyModule.mem_iff.1 member)
    fun m _ => noEdge m
  have wellFormedNext := progress.wellFormed wellFormed
  refine ⟨next, progress, ⟨wellFormedNext, ?_, ?_⟩, modules⟩
  · intro x y
    rw [edges, or_iff_right (noEdge x y)]
    exact and_iff_right_of_imp fun edge => everyModule.mem_iff.2 (fits.importers edge)
  · intro id
    rw [Option.isSome_iff_exists, wellFormedNext.known_iff_mem_ids, modules, sameIds]

/--
Imports without cycles are declared module by module in any order, then modules get their levels in
any order that puts imports first, as the import order does.  Nothing is refused, every module is
final, and every scope tells which trails of imports lead where.
-/
theorem propagation_exact (settings : Settings) (building : List Command)
    (builds : ∀ command ∈ building, command.Builds) (imports : Declarations) :
    let atlas := (empty settings).run building
    let ids := atlas.modules.map Module.id
    imports.Fits ids → ∀ wiring : List ModuleId, wiring.Perm ids →
      let wired := atlas.run (wiring.map imports.wire)
      (wired.importOrder.Perm ids ∧ imports.ImportsFirst wired.importOrder) ∧
      ∀ order : List ModuleId, order.Perm ids → imports.ImportsFirst order →
        let commands := wiring.map imports.wire ++ order.flatMap imports.levels
        let final := atlas.run commands
        (∀ answer ∈ atlas.answers commands, ∃ value, answer = .ok value) ∧
        ∀ m ∈ ids, ∃ entity, final.module? m = some entity ∧ final.isVisibilityFinal m ∧
          ∀ x, (x ∈ entity.scope.intrude ↔ imports.Intrudes m x) ∧
            (x ∈ entity.scope.pub ↔ imports.SeesPublicly m x) ∧
            (x ∈ entity.scope.priv ↔ imports.SeesPrivately m x) := by
  intro atlas ids fits wiring everyModule wired
  have wellFormed : atlas.WellFormed := wellFormed_reached settings building
  have undisturbed : Undisturbed (empty settings) atlas :=
    undisturbed_run (wellFormed_empty settings) builds
  have noEdge (x y : ModuleId) : ¬ atlas.importation.hasDirectEdge x y := by
    rw [undisturbed.edges]
    exact Bool.false_ne_true
  obtain ⟨reached, wiringDone, ready, modules⟩ :=
    ready_of_wiring fits wellFormed rfl noEdge everyModule
  have sameWired : wired = reached := wiringDone.run_eq wellFormed
  rw [sameWired]
  refine ⟨⟨?_, ready.importOrder fits⟩, ?_⟩
  · have listed : reached.modules.map Module.id = ids := congrArg (List.map Module.id) modules
    rw [← listed]
    exact Hierarchy.linearize_perm _ _
  · intro order everyTurn importsFirst commands final
    have untold (m : ModuleId) : Told imports reached m [] := by
      apply told_of_blind
      rw [scopeOf_congr modules, undisturbed.scopes]
      rfl
    obtain ⟨last, walkDone, readyLast, told⟩ := walk_progress fits ready importsFirst
      (everyTurn.nodup_iff.2 wellFormed.nodup_ids) (fun m _ => untold m)
      fun m known => Or.inl (everyTurn.mem_iff.2 known)
    have progress := wiringDone.append walkDone
    have sameFinal : final = last := progress.run_eq wellFormed
    refine ⟨progress.answers_ok wellFormed, fun m known => ?_⟩
    obtain ⟨entity, found⟩ := Option.isSome_iff_exists.1 ((readyLast.known m).2 known)
    have tells := (told m known).scope
    rw [scopeOf_of_some found] at tells
    rw [sameFinal]
    refine ⟨entity, found, (told m known).final readyLast found, fun x => ?_⟩
    exact ⟨tells.mem_intrude, tells.mem_pub, tells.mem_priv⟩

def diamond : Declarations
  | ⟨0⟩ => [(⟨1⟩, .intrude), (⟨2⟩, .priv)]
  | ⟨1⟩ => [(⟨3⟩, .pub)]
  | ⟨2⟩ => [(⟨3⟩, .priv), (⟨3⟩, .intrude)]
  | _ => []

theorem diamond_edge {m t : ModuleId} {level : Visibility} (member : (t, level) ∈ diamond m) :
    m ∈ [⟨0⟩, ⟨1⟩, ⟨2⟩, ⟨3⟩] ∧ t ∈ [⟨0⟩, ⟨1⟩, ⟨2⟩, ⟨3⟩] ∧ m.index < t.index ∧ level ≠ .none := by
  have listed : ∀ m ∈ [⟨0⟩, ⟨1⟩, ⟨2⟩, ⟨3⟩], ∀ entry ∈ diamond m,
      entry.1 ∈ [⟨0⟩, ⟨1⟩, ⟨2⟩, ⟨3⟩] ∧ m.index < entry.1.index ∧ entry.2 ≠ .none := by decide
  by_cases known : m ∈ [⟨0⟩, ⟨1⟩, ⟨2⟩, ⟨3⟩]
  · exact ⟨known, listed m known (t, level) member⟩
  · unfold diamond at member
    split at member
    next => exact absurd (by decide) known
    next => exact absurd (by decide) known
    next => exact absurd (by decide) known
    next => cases member

theorem diamond_ascends {m t : ModuleId} (imported : diamond.Imported m t) : m.index < t.index := by
  obtain ⟨level, member⟩ := imported
  exact (diamond_edge member).2.2.1

theorem diamond_fits : diamond.Fits [⟨0⟩, ⟨1⟩, ⟨2⟩, ⟨3⟩] where
  importers := fun ⟨_, member⟩ => (diamond_edge member).1
  targets := fun ⟨_, member⟩ => (diamond_edge member).2.1
  levels := fun member => (diamond_edge member).2.2.2
  acyclic := by
    intro m cycle
    have ascends {x y : ModuleId} (trail : Relation.TransGen diamond.Imported x y) :
        x.index < y.index := by
      induction trail with
      | single edge => exact diamond_ascends edge
      | tail _ edge ih => exact Nat.lt_trans ih (diamond_ascends edge)
    exact Nat.lt_irrefl _ (ascends cycle)

/-- Through one import the first module sees the last one publicly, through the other privately. -/
theorem propagation_exact_on_diamond :
    let atlas := (empty { strictOrdering := true }).run
      [.createFictive "a", .createFictive "b", .createFictive "c", .createFictive "d"]
    let final := atlas.run ([⟨2⟩, ⟨0⟩, ⟨1⟩, ⟨3⟩].map diamond.wire ++
      [⟨3⟩, ⟨2⟩, ⟨1⟩, ⟨0⟩].flatMap diamond.levels)
    final.isVisibilityFinal ⟨0⟩ ∧ diamond.SeesPublicly ⟨0⟩ ⟨3⟩ ∧
      diamond.SeesPrivately ⟨0⟩ ⟨3⟩ ∧ ¬ diamond.Intrudes ⟨0⟩ ⟨3⟩ := by
  intro atlas final
  have descending : [⟨3⟩, ⟨2⟩, ⟨1⟩, ⟨0⟩].Pairwise fun earlier later : ModuleId =>
      later.index < earlier.index := by decide
  have importsFirst : diamond.ImportsFirst [⟨3⟩, ⟨2⟩, ⟨1⟩, ⟨0⟩] :=
    descending.imp fun less imported => Nat.lt_asymm less (diamond_ascends imported)
  have exact := propagation_exact { strictOrdering := true }
    [.createFictive "a", .createFictive "b", .createFictive "c", .createFictive "d"]
    (by simp [Command.Builds]) diamond diamond_fits [⟨2⟩, ⟨0⟩, ⟨1⟩, ⟨3⟩] (by decide)
  obtain ⟨_, each⟩ := exact.2 [⟨3⟩, ⟨2⟩, ⟨1⟩, ⟨0⟩] (by decide) importsFirst
  obtain ⟨entity, found, isFinal, sight⟩ := each ⟨0⟩ (by decide)
  obtain ⟨intrude, pub, priv⟩ := sight ⟨3⟩
  have found : final.scopeOf ⟨0⟩ = entity.scope := scopeOf_of_some found
  rw [← found] at intrude pub priv
  refine ⟨isFinal, pub.1 (by decide), priv.1 (by decide), fun trail => ?_⟩
  exact absurd (intrude.2 trail) (by decide)

end Atlas

end ModuleAtlas
