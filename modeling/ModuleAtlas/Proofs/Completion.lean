import ModuleAtlas.Proofs.Imported

/-!
# Completing what is half propagated

Strict ordering refuses a level whose target is not final, and one might fear that modules come to
wait for each other.  They do not as long as importation has no cycles: from every atlas that was
reached, whatever was propagated in it before, a walk in the order of imports finds each target
final when its turn has come, and no later turn takes a mark back.
-/

namespace ModuleAtlas

namespace Atlas

/-! ## Marks -/

def Marked (imports : Declarations) (atlas : Atlas) (m : ModuleId) : Prop :=
  ∀ t, imports.Imported m t → t ∈ atlas.propagatedBy m

variable {imports : Declarations} {ids : List ModuleId}

theorem Ready.isVisibilityFinal_iff {atlas : Atlas} (ready : Ready imports ids atlas)
    {m : ModuleId} (listed : m ∈ ids) : atlas.isVisibilityFinal m ↔ Marked imports atlas m := by
  obtain ⟨entity, known⟩ := Option.isSome_iff_exists.1 ((ready.known m).2 listed)
  rw [Atlas.isVisibilityFinal_iff ready.wellFormed known]
  simp only [ready.edges, Marked]

/-! ## One turn -/

/-- In its turn a module whose imports are final gets all its marks, and nothing is refused. -/
theorem marking_progress (fits : imports.Fits ids) {m : ModuleId}
    {rest : List (ModuleId × Visibility)} {atlas : Atlas} (ready : Ready imports ids atlas)
    (declared : ∀ entry ∈ rest, entry ∈ imports m)
    (ahead : ∀ t, imports.Imported m t → Marked imports atlas t) :
    ∃ next,
      Progress atlas (rest.map fun (target, level) => .setVisibility m target level) next ∧
      Ready imports ids next ∧ (∀ entry ∈ rest, entry.1 ∈ next.propagatedBy m) ∧
      ∀ id target, target ∈ atlas.propagatedBy id → target ∈ next.propagatedBy id := by
  induction rest generalizing atlas with
  | nil => exact ⟨atlas, .nil atlas, ready, fun _ member => (nomatch member), fun _ _ => id⟩
  | cons entry rest ih =>
    obtain ⟨t, level⟩ := entry
    obtain ⟨member, declaredRest⟩ := List.forall_mem_cons.1 declared
    have edge : imports.Imported m t := ⟨level, member⟩
    have final := (ready.isVisibilityFinal_iff (fits.targets edge)).2 (ahead t edge)
    obtain ⟨middle, planned⟩ := level_accepted_of_final fits ready member final
    have absorbed := absorbed_of_plan planned
    obtain ⟨next, progress, readyNext, marked, kept⟩ := ih (ready.absorb planned) declaredRest
      fun u imported v further => absorbed.marks_kept (ahead u imported v further)
    refine ⟨next, .cons trivial planned progress, readyNext, ?_, ?_⟩
    · exact List.forall_mem_cons.2 ⟨kept m t absorbed.marked, marked⟩
    · exact fun id target old => kept id target (absorbed.marks_kept old)

/-- A walk that puts imports first marks everything, whatever was marked before. -/
theorem marking_walk (fits : imports.Fits ids) {atlas : Atlas} (ready : Ready imports ids atlas)
    {order : List ModuleId} (everyTurn : order.Perm ids) (importsFirst : imports.ImportsFirst order)
    (once : order.Nodup) :
    ∃ next, Progress atlas (order.flatMap imports.levels) next ∧ Ready imports ids next ∧
      ∀ m ∈ ids, Marked imports next m := by
  refine walk_induction fits (fun _ _ => True) (Marked imports) ?_ ready importsFirst once
    (fun _ _ => trivial) fun m listed => Or.inl (everyTurn.mem_iff.2 listed)
  intro atlas m ready _ ahead
  obtain ⟨next, turn, readyNext, marked, kept⟩ :=
    marking_progress fits ready (fun _ member => member) ahead
  refine ⟨next, turn, readyNext, ?_, fun other _ => ⟨id, fun before => ?_⟩⟩
  · rintro t ⟨level, member⟩
    exact marked (t, level) member
  · exact fun t edge => kept other t (before t edge)

/-! ## Every atlas that was reached -/

/-- Imports that are wired in an atlas without cycles fit its modules. -/
theorem ready_of_acyclic {atlas : Atlas} (wellFormed : atlas.WellFormed)
    (acyclic : atlas.importation.Acyclic)
    (wired : ∀ m t, imports.Imported m t ↔ atlas.importation.hasDirectEdge m t)
    (levels : ∀ m t level, (t, level) ∈ imports m → level ≠ .none) :
    imports.Fits (atlas.modules.map Module.id) ∧
      Ready imports (atlas.modules.map Module.id) atlas := by
  have listed {id : ModuleId} (registered : (atlas.hierarchy .importation).contains id) :
      id ∈ atlas.modules.map Module.id :=
    wellFormed.known_iff_mem_ids.1 (wellFormed.contains_iff_known.1 registered)
  constructor
  · constructor
    · exact fun edge => listed (Hierarchy.contains_of_hasDirectEdge ((wired _ _).1 edge))
    · exact fun edge => listed ((wellFormed.closed .importation).registered ((wired _ _).1 edge))
    · exact levels _ _ _
    · exact fun m cycle => acyclic m (Relation.TransGen.mono (fun x y => (wired x y).1) _ _ cycle)
  · refine ⟨wellFormed, fun x y => (wired x y).symm, fun id => ?_⟩
    rw [Option.isSome_iff_exists, wellFormed.known_iff_mem_ids]

/--
With cycles looked for, levels can be completed at any time, under strict ordering too.  Take every
wired import of every module, module by module in the order of imports, in any order within one
module and at any levels, whether it had been propagated before or not: nothing is refused, and then
all modules are final.
-/
theorem walk_completes (settings : Settings) (looked : settings.checkAcyclic)
    (commands : List Command) (imports : Declarations) :
    let atlas := (empty settings).run commands
    (∀ m t, imports.Imported m t ↔ atlas.importation.hasDirectEdge m t) →
    (∀ m t level, (t, level) ∈ imports m → level ≠ .none) →
    let turns := atlas.importOrder.flatMap imports.levels
    (∀ answer ∈ atlas.answers turns, ∃ value, answer = .ok value) ∧
      ∀ m, ((atlas.run turns).module? m).isSome → (atlas.run turns).isVisibilityFinal m := by
  intro atlas wired levels turns
  have wellFormed : atlas.WellFormed := wellFormed_reached settings commands
  obtain ⟨fits, ready⟩ :=
    ready_of_acyclic wellFormed (acyclic_importation_reached looked commands) wired levels
  have everyTurn := Hierarchy.linearize_perm atlas.importation (atlas.modules.map Module.id)
  obtain ⟨next, progress, readyNext, marked⟩ := marking_walk fits ready everyTurn
    (ready.importOrder fits) (everyTurn.nodup_iff.2 wellFormed.nodup_ids)
  have reached : atlas.run turns = next := progress.run_eq wellFormed
  refine ⟨progress.answers_ok wellFormed, fun m known => ?_⟩
  rw [reached] at known ⊢
  have listed := (readyNext.known m).1 known
  exact (readyNext.isVisibilityFinal_iff listed).2 (marked m listed)

/-- The wired imports of every module in ascending order, each at a chosen level. -/
def wiredAt (atlas : Atlas) (level : ModuleId → ModuleId → Visibility) : Declarations :=
  fun m => (atlas.importation.get? m).elim [] fun entry =>
    entry.directBelow.toList.map fun t => (t, level m t)

theorem mem_wiredAt {atlas : Atlas} {level : ModuleId → ModuleId → Visibility} {m t : ModuleId}
    {given : Visibility} :
    (t, given) ∈ atlas.wiredAt level m ↔
      atlas.importation.hasDirectEdge m t ∧ level m t = given := by
  rw [Hierarchy.hasDirectEdge_iff, wiredAt]
  cases atlas.importation.get? m with
  | none => simp
  | some entry => simp

/-- Two of five edges are propagated, one of them at a level that it gets again. -/
theorem walk_completes_half_propagated :
    let commands : List Command := [.createFictive "a", .createFictive "b", .createFictive "c",
      .createFictive "d", .setImports ⟨0⟩ [⟨1⟩, ⟨2⟩], .setImports ⟨2⟩ [⟨3⟩],
      .setImports ⟨1⟩ [⟨3⟩, ⟨2⟩], .setVisibility ⟨2⟩ ⟨3⟩ .pub, .setVisibility ⟨1⟩ ⟨2⟩ .priv]
    let atlas := (empty { strictOrdering := true }).run commands
    let turns := atlas.importOrder.flatMap
      (atlas.wiredAt fun m _ => if m = ⟨0⟩ then .intrude else .pub).levels
    ¬ atlas.isVisibilityFinal ⟨0⟩ ∧ ¬ atlas.isVisibilityFinal ⟨1⟩ ∧
      (∀ answer ∈ atlas.answers turns, ∃ value, answer = .ok value) ∧
      (atlas.run turns).isVisibilityFinal ⟨0⟩ := by
  intro commands atlas turns
  have isLevel (m : ModuleId) : (if m = ⟨0⟩ then Visibility.intrude else .pub) ≠ .none := by
    split
    · decide
    · decide
  have completes := walk_completes { strictOrdering := true } rfl commands
    (atlas.wiredAt fun m _ => if m = ⟨0⟩ then .intrude else .pub)
    (fun m t => by simp only [Declarations.Imported, mem_wiredAt, exists_and_left, exists_eq',
      and_true, atlas, commands])
    (fun m t level member => by
      rw [← (mem_wiredAt.1 member).2]
      exact isLevel m)
  have wellFormed : atlas.WellFormed := wellFormed_reached _ commands
  have grown : Grown atlas (atlas.run turns) :=
    grown_of_progress wellFormed (progress_history wellFormed turns)
  exact ⟨by decide, by decide, completes.1, completes.2 ⟨0⟩ (grown.known ⟨0⟩ (by decide))⟩

end Atlas

end ModuleAtlas
