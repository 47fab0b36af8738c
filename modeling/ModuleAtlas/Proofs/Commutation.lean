import ModuleAtlas.Proofs.Convergence
import ModuleAtlas.Proofs.Insertion
import ModuleAtlas.Proofs.Layers

/-!
# Propagations in any order

Giving an import its level reads the scope and the marks of the import and writes those of the
importer.  Two such steps of which neither imports the module of the other one meet only if they
write the same module, and what they add to it is a union.  So their order does not matter, and
neither does the order of a list of imports: its edges come to the same hierarchy in every order,
and while cycles are looked for no module is on the list of its own imports.
-/

namespace ModuleAtlas

/-! ## Absorbing two imports -/

namespace Scope

theorem within_absorb_comm (scope : Scope) (first second : ModuleId) (level other : Visibility)
    (imported further : Scope) :
    ((scope.absorb first level imported).absorb second other further).Within
      ((scope.absorb second other further).absorb first level imported) where
  intrude x seen := by
    rw [mem_intrude_absorb, mem_intrude_absorb, or_right_comm] at seen
    rwa [mem_intrude_absorb, mem_intrude_absorb]
  pub x seen := by
    rw [mem_pub_absorb, mem_pub_absorb, or_right_comm] at seen
    rwa [mem_pub_absorb, mem_pub_absorb]
  priv x seen := by
    rw [mem_priv_absorb, mem_priv_absorb, or_right_comm] at seen
    rwa [mem_priv_absorb, mem_priv_absorb]

theorem absorb_comm (scope : Scope) (first second : ModuleId) (level other : Visibility)
    (imported further : Scope) :
    (scope.absorb first level imported).absorb second other further =
      (scope.absorb second other further).absorb first level imported :=
  (within_absorb_comm ..).antisymm (within_absorb_comm ..)

end Scope

theorem Module.absorbing_comm (module : Module) (first second : ModuleId)
    (level other : Visibility) (imported further : Scope) :
    (module.absorbing first level imported).absorbing second other further =
      (module.absorbing second other further).absorbing first level imported := by
  have marks : (module.propagated.insert first).insert second =
      (module.propagated.insert second).insert first := by
    ext x
    simp only [NodeSet.mem_insert, or_left_comm]
  simp only [Module.absorbing, marks, Scope.absorb_comm module.scope first second]

namespace Atlas

variable {atlas : Atlas} {m m₁ m₂ t t₁ t₂ id : ModuleId} {level v₁ v₂ : Visibility}

/-! ## Checks and effect of one propagation -/

def verdict (atlas : Atlas) (module target : ModuleId) (level : Visibility) : Except Fault Unit :=
  (atlas.planVisibility module target level).map Prod.fst

def absorb (atlas : Atlas) (module target : ModuleId) (level : Visibility) : Atlas :=
  atlas.updateModule module fun importer =>
    importer.absorbing target level (atlas.scopeOf target)

theorem updateModule_congr {entity : Module} (known : atlas.module? id = some entity)
    {change other : Module → Module} (same : change entity = other entity) :
    atlas.updateModule id change = atlas.updateModule id other := by
  have modules : atlas.modules.modify id.index change = atlas.modules.modify id.index other := by
    refine List.ext_getElem? fun index => ?_
    rw [List.getElem?_modify, List.getElem?_modify]
    by_cases isIndex : id.index = index
    · subst isIndex
      have found : atlas.modules[id.index]? = some entity := known
      simp only [found, if_true, Option.map_eq_map, Option.map_some, same]
    · simp only [if_neg isIndex]
  simp only [updateModule, modules]

theorem plan_setVisibility (atlas : Atlas) (m t : ModuleId) (level : Visibility) :
    atlas.plan (.setVisibility m t level) =
      (atlas.verdict m t level).map fun _ => (.done, atlas.absorb m t level) := by
  rw [plan, verdict]
  cases planned : atlas.planVisibility m t level with
  | error fault => rfl
  | ok result =>
    obtain ⟨importer, imported, known, isImported, _, _, effect⟩ :=
      planVisibility_eq_ok_iff.1 planned
    have absorbed : result.2 = atlas.absorb m t level := by
      rw [effect, absorb, scopeOf_of_some isImported]
      exact updateModule_congr known rfl
    simp only [Except.map, absorbed]

theorem module?_absorb_of_ne (other : id ≠ m) :
    (atlas.absorb m t level).module? id = atlas.module? id := by
  rw [absorb, module?_updateModule]
  simp only [if_neg other.symm, Option.map_id']

theorem isVisibilityFinal_absorb (other : id ≠ m) :
    (atlas.absorb m t level).isVisibilityFinal id = atlas.isVisibilityFinal id := by
  unfold isVisibilityFinal
  rw [module?_absorb_of_ne other]
  rfl

/-- A propagation looks at its module for the name only, and else at its target. -/
theorem verdict_absorb (outside : t₂ ≠ m₁) :
    (atlas.absorb m₁ t₁ v₁).verdict m₂ t₂ v₂ = atlas.verdict m₂ t₂ v₂ := by
  have sameImporter : Corresponds (fun importer later => later.fullName = importer.fullName)
      (atlas.findModule m₂) ((atlas.absorb m₁ t₁ v₁).findModule m₂) := by
    unfold findModule absorb
    rw [module?_updateModule]
    cases atlas.module? m₂ with
    | none => exact rfl
    | some importer =>
      change Module.fullName (if m₁ = m₂ then _ else _) = importer.fullName
      split
      · rfl
      · rfl
  have sameTarget : (atlas.absorb m₁ t₁ v₁).findModule t₂ = atlas.findModule t₂ := by
    unfold findModule
    rw [module?_absorb_of_ne outside]
  have agree : Corresponds (fun _ _ => True) (atlas.planVisibility m₂ t₂ v₂)
      ((atlas.absorb m₁ t₁ v₁).planVisibility m₂ t₂ v₂) := by
    unfold planVisibility
    rw [isVisibilityFinal_absorb outside]
    refine .bind sameImporter fun importer later sameName => ?_
    refine .look sameTarget fun imported _ => ?_
    rw [sameName]
    exact .guard rfl (.guard rfl (.guard rfl trivial))
  have same : Corresponds (fun x y => y = x) (atlas.verdict m₂ t₂ v₂)
      ((atlas.absorb m₁ t₁ v₁).verdict m₂ t₂ v₂) := agree.map fun _ _ _ => rfl
  exact same.eq

/-- Two modules absorb, or one module does twice, in either order. -/
theorem absorb_comm (apart : t₁ ≠ m₂) (outside : t₂ ≠ m₁) :
    (atlas.absorb m₁ t₁ v₁).absorb m₂ t₂ v₂ = (atlas.absorb m₂ t₂ v₂).absorb m₁ t₁ v₁ := by
  have scopeFirst : (atlas.absorb m₂ t₂ v₂).scopeOf t₁ = atlas.scopeOf t₁ := by
    rw [scopeOf, module?_absorb_of_ne apart, scopeOf]
  have scopeSecond : (atlas.absorb m₁ t₁ v₁).scopeOf t₂ = atlas.scopeOf t₂ := by
    rw [scopeOf, module?_absorb_of_ne outside, scopeOf]
  -- Each step reads its target as it was before the other one, so only the writes are left.
  rw [absorb, absorb.eq_def (atlas.absorb m₂ t₂ v₂), scopeFirst, scopeSecond]
  simp only [absorb, updateModule]
  by_cases same : m₁ = m₂
  · subst same
    rw [List.modify_modify_eq, List.modify_modify_eq]
    congr 2
    funext importer
    exact importer.absorbing_comm ..
  · have different : m₁.index ≠ m₂.index := fun index => same (Handle.ext index)
    rw [List.modify_modify_ne _ _ _ different]

/-! ## Two commands -/

theorem answer_setVisibility (wellFormed : atlas.WellFormed) (m t : ModuleId)
    (level : Visibility) :
    (atlas.perform (.setVisibility m t level)).answer =
      (atlas.verdict m t level).map fun _ => .done := by
  have single : (Command.setVisibility m t level).IsSingle := trivial
  have planned := plan_setVisibility atlas m t level
  cases checked : atlas.verdict m t level with
  | ok value =>
    rw [checked] at planned
    exact (perform_of_plan_ok wellFormed single planned).1
  | error fault =>
    rw [checked] at planned
    exact (perform_of_plan_error wellFormed single planned).1

theorem atlas_setVisibility (wellFormed : atlas.WellFormed) (m t : ModuleId)
    (level : Visibility) :
    (atlas.perform (.setVisibility m t level)).atlas =
      match atlas.verdict m t level with
      | .ok _ => atlas.absorb m t level
      | .error _ => atlas := by
  have single : (Command.setVisibility m t level).IsSingle := trivial
  have planned := plan_setVisibility atlas m t level
  cases checked : atlas.verdict m t level with
  | ok value =>
    rw [checked] at planned
    exact (perform_of_plan_ok wellFormed single planned).2
  | error fault =>
    rw [checked] at planned
    exact (perform_of_plan_error wellFormed single planned).2

/-- A propagation is checked alike before and after one that leaves its target alone. -/
theorem verdict_perform (wellFormed : atlas.WellFormed) (outside : t₂ ≠ m₁) :
    (atlas.perform (.setVisibility m₁ t₁ v₁)).atlas.verdict m₂ t₂ v₂ =
      atlas.verdict m₂ t₂ v₂ := by
  rw [atlas_setVisibility wellFormed]
  cases atlas.verdict m₁ t₁ v₁ with
  | ok value => exact verdict_absorb outside
  | error fault => rfl

theorem answer_perform (wellFormed : atlas.WellFormed) (outside : t₂ ≠ m₁) :
    ((atlas.perform (.setVisibility m₁ t₁ v₁)).atlas.perform (.setVisibility m₂ t₂ v₂)).answer =
      (atlas.perform (.setVisibility m₂ t₂ v₂)).answer := by
  have wellFormedNext := wellFormed_perform wellFormed (.setVisibility m₁ t₁ v₁)
  rw [answer_setVisibility wellFormedNext, answer_setVisibility wellFormed,
    verdict_perform wellFormed outside]

theorem atlas_perform_comm (wellFormed : atlas.WellFormed) (apart : t₁ ≠ m₂)
    (outside : t₂ ≠ m₁) :
    atlas.run [.setVisibility m₁ t₁ v₁, .setVisibility m₂ t₂ v₂] =
      atlas.run [.setVisibility m₂ t₂ v₂, .setVisibility m₁ t₁ v₁] := by
  have afterFirst := wellFormed_perform wellFormed (.setVisibility m₁ t₁ v₁)
  have afterSecond := wellFormed_perform wellFormed (.setVisibility m₂ t₂ v₂)
  change ((atlas.perform _).atlas.perform _).atlas = ((atlas.perform _).atlas.perform _).atlas
  rw [atlas_setVisibility afterFirst, atlas_setVisibility afterSecond,
    verdict_perform wellFormed outside, verdict_perform wellFormed apart,
    atlas_setVisibility wellFormed, atlas_setVisibility wellFormed]
  cases atlas.verdict m₁ t₁ v₁ with
  | error fault => rfl
  | ok value =>
    cases atlas.verdict m₂ t₂ v₂ with
    | error fault => rfl
    | ok value => exact absorb_comm apart outside

/-! ## Lists of imports -/

section Lists

variable {after wired : Atlas} {imports others : List (ModuleId × Visibility)}

/-- The edges of a list of imports come to the same hierarchy in every order. -/
theorem importing_congr (wellFormed : atlas.WellFormed) {importer : Module}
    (known : atlas.module? m = some importer) {targets further : List ModuleId}
    (checked : atlas.checkImports m targets = .ok ())
    (same : ∀ target, target ∈ further ↔ target ∈ targets) :
    atlas.importing m further = atlas.importing m targets := by
  have checkedFurther : atlas.checkImports m further = .ok () := by
    rw [Loading.checkImports_eq_ok_iff] at checked ⊢
    exact fun target listed => checked target ((same target).1 listed)
  have closed : atlas.importation.Closed := wellFormed.closed .importation
  have once : atlas.importation.nodes.Nodup := wellFormed.nodes .importation ▸ wellFormed.nodup_ids
  have gains := Hierarchy.gains_run_fan closed
    (Loading.extendable_imports wellFormed known checked)
  have gainsFurther := Hierarchy.gains_run_fan closed
    (Loading.extendable_imports wellFormed known checkedFurther)
  have samePairs (pair : ModuleId × ModuleId) :
      pair ∈ further.map (Prod.mk m) ↔ pair ∈ targets.map (Prod.mk m) := by
    simp only [List.mem_map, same]
  rw [importing, gains.unique once gainsFurther samePairs, importing]

theorem wired_of_perm (wellFormed : atlas.WellFormed) {targets further : List ModuleId}
    (perm : targets.Perm further) {answer : Answer}
    (planned : atlas.plan (.setImports m targets) = .ok (answer, wired)) :
    atlas.plan (.setImports m further) = .ok (answer, wired) := by
  obtain ⟨⟨⟨⟩, next⟩, accepted, ⟨⟩⟩ := map_eq_ok.1 planned
  obtain ⟨importer, entry, known, found, isEmpty, checked, rfl⟩ :=
    planImports_eq_ok_iff.1 accepted
  have checkedFurther : atlas.checkImports m further = .ok () := by
    rw [Loading.checkImports_eq_ok_iff] at checked ⊢
    exact fun target listed => checked target (perm.mem_iff.2 listed)
  have same := importing_congr wellFormed known checked fun target => perm.symm.mem_iff
  refine map_eq_ok.2 ⟨_, planImports_eq_ok_iff.2 ?_, rfl⟩
  exact ⟨importer, entry, known, found, isEmpty, checkedFurther, same.symm⟩

/-- While cycles are looked for, no module gets itself as an import. -/
theorem ne_of_wired (looked : atlas.settings.checkAcyclic) {targets : List ModuleId}
    {answer : Answer} (planned : atlas.plan (.setImports m targets) = .ok (answer, wired)) :
    ∀ target ∈ targets, target ≠ m := by
  obtain ⟨⟨⟨⟩, next⟩, accepted, _⟩ := map_eq_ok.1 planned
  obtain ⟨_, _, _, _, _, checked, _⟩ := planImports_eq_ok_iff.1 accepted
  rintro target listed rfl
  have each := Loading.checkImports_eq_ok_iff.1 checked target listed
  have harmless := (Loading.checkImport_eq_ok_iff.1 each).2
  simp [wouldCycle, looked] at harmless

theorem plan_swap (apart : t₁ ≠ m₂) (outside : t₂ ≠ m₁) {middle after : Atlas}
    {answer other : Answer}
    (first : atlas.plan (.setVisibility m₁ t₁ v₁) = .ok (answer, middle))
    (second : middle.plan (.setVisibility m₂ t₂ v₂) = .ok (other, after)) :
    ∃ between, atlas.plan (.setVisibility m₂ t₂ v₂) = .ok (other, between) ∧
      between.plan (.setVisibility m₁ t₁ v₁) = .ok (answer, after) := by
  rw [plan_setVisibility] at first
  obtain ⟨⟨⟩, passed, ⟨⟩⟩ := map_eq_ok.1 first
  rw [plan_setVisibility, verdict_absorb outside] at second
  obtain ⟨⟨⟩, passedSecond, ⟨⟩⟩ := map_eq_ok.1 second
  refine ⟨atlas.absorb m₂ t₂ v₂, ?_, ?_⟩
  · rw [plan_setVisibility, passedSecond]
    rfl
  · rw [plan_setVisibility, verdict_absorb apart, passed, absorb_comm apart outside]
    rfl

/-- Levels of imports are given in every order if they are given in one. -/
theorem levels_perm (perm : imports.Perm others) (foreign : ∀ entry ∈ imports, entry.1 ≠ m)
    (progress : Progress atlas
      (imports.map fun (target, level) => .setVisibility m target level) after) :
    Progress atlas (others.map fun (target, level) => .setVisibility m target level) after := by
  -- Along the permutation: a swap of neighbours is the commutation of two steps.
  induction perm generalizing atlas with
  | nil => exact progress
  | cons entry _ ih =>
    cases progress with
    | cons single planned later =>
      exact .cons single planned (ih (List.forall_mem_cons.1 foreign).2 later)
  | swap first second rest =>
    obtain ⟨foreignSecond, foreignOthers⟩ := List.forall_mem_cons.1 foreign
    have foreignFirst := (List.forall_mem_cons.1 foreignOthers).1
    cases progress with
    | cons single planned later =>
      cases later with
      | cons singleNext plannedNext later =>
        obtain ⟨between, swapped, swappedNext⟩ :=
          plan_swap foreignSecond foreignFirst planned plannedNext
        exact .cons singleNext swapped (.cons single swappedNext later)
  | trans left _ ihLeft ihRight =>
    exact ihRight (fun entry listed => foreign entry (left.mem_iff.2 listed))
      (ihLeft foreign progress)

theorem declaration_perm (wellFormed : atlas.WellFormed) (looked : atlas.settings.checkAcyclic)
    (perm : imports.Perm others)
    (accepted : (atlas.perform (.declareImports m imports)).answer = .ok .done) :
    (atlas.perform (.declareImports m others)).answer = .ok .done ∧
      (atlas.perform (.declareImports m others)).atlas =
        (atlas.perform (.declareImports m imports)).atlas := by
  have staged := perform_staged wellFormed (.declareImports m imports)
  rw [accepted] at staged
  cases staged with
  | all progress =>
    cases progress with
    | @cons _ wired _ _ _ answer single planned later =>
      have wiredOthers := wired_of_perm wellFormed (perm.map Prod.fst) planned
      have foreign : ∀ entry ∈ imports, entry.1 ≠ m := fun entry listed =>
        ne_of_wired looked planned entry.1 (List.mem_map_of_mem listed)
      have progress : Progress atlas (Command.declareImports m others).stages
          (atlas.perform (.declareImports m imports)).atlas :=
        .cons trivial wiredOthers (levels_perm perm foreign later)
      obtain ⟨result, answered, staged⟩ := perform_declaration wellFormed m others
      obtain ⟨rfl, reached⟩ := Staged.unique (.all progress) staged
      exact ⟨answered, reached⟩

end Lists

/--
In every atlas that commands lead to, two imports get their levels in either order with the same
answers and the same result, unless one of them is the module that the other one is given to.  So
while cycles are looked for a list of imports with levels is accepted in every order if it is in
one, and every order leads to the same atlas.
-/
theorem propagations_commute (settings : Settings) (commands : List Command) :
    let atlas := (empty settings).run commands
    (∀ (m₁ t₁ m₂ t₂ : ModuleId) (v₁ v₂ : Visibility), t₁ ≠ m₂ → t₂ ≠ m₁ →
      let first := Command.setVisibility m₁ t₁ v₁
      let second := Command.setVisibility m₂ t₂ v₂
      ((atlas.perform second).atlas.perform first).answer = (atlas.perform first).answer ∧
        ((atlas.perform first).atlas.perform second).answer = (atlas.perform second).answer ∧
        ((atlas.perform first).atlas.perform second).atlas =
          ((atlas.perform second).atlas.perform first).atlas) ∧
    (settings.checkAcyclic →
      ∀ (m : ModuleId) (imports others : List (ModuleId × Visibility)), imports.Perm others →
        ((atlas.perform (.declareImports m imports)).answer = .ok .done ↔
          (atlas.perform (.declareImports m others)).answer = .ok .done) ∧
        ((atlas.perform (.declareImports m imports)).answer = .ok .done →
          (atlas.perform (.declareImports m others)).atlas =
            (atlas.perform (.declareImports m imports)).atlas)) := by
  intro atlas
  have wellFormed : atlas.WellFormed := wellFormed_reached settings commands
  refine ⟨?_, ?_⟩
  · intro m₁ t₁ m₂ t₂ v₁ v₂ apart outside first second
    exact ⟨answer_perform wellFormed apart, answer_perform wellFormed outside,
      atlas_perform_comm wellFormed apart outside⟩
  · intro looked m imports others perm
    have sameSettings : atlas.settings = settings := settings_run settings commands
    have looked : atlas.settings.checkAcyclic := sameSettings ▸ looked
    refine ⟨⟨fun accepted => ?_, fun accepted => ?_⟩, fun accepted => ?_⟩
    · exact (declaration_perm wellFormed looked perm accepted).1
    · exact (declaration_perm wellFormed looked perm.symm accepted).1
    · exact (declaration_perm wellFormed looked perm accepted).2

/--
Under strict ordering one module gets a level for an import that is final and another one is refused
its level for a module that it does not import, in either order.  A list that repeats an import is
accepted backwards too, and one with an import that is not final is refused either way.
-/
theorem propagations_commute_under_strict_ordering :
    let settings : Settings := { strictOrdering := true }
    let commands : List Command := [.createFictive "a", .createFictive "b", .createFictive "c",
      .createFictive "d", .setImports ⟨1⟩ [⟨2⟩], .setImports ⟨0⟩ [⟨1⟩]]
    let atlas := (empty settings).run commands
    let first := Command.setVisibility ⟨1⟩ ⟨2⟩ .intrude
    let second := Command.setVisibility ⟨0⟩ ⟨3⟩ .pub
    let final : List (ModuleId × Visibility) := [(⟨2⟩, .priv), (⟨2⟩, .intrude)]
    let premature : List (ModuleId × Visibility) := (⟨0⟩, .priv) :: final
    ((atlas.perform first).atlas.perform second).answer = .error (.missingImport "a" "d") ∧
      ((atlas.perform first).atlas.perform second).atlas =
        ((atlas.perform second).atlas.perform first).atlas ∧
      (atlas.perform (.declareImports ⟨3⟩ final.reverse)).answer = .ok .done ∧
      (atlas.perform (.declareImports ⟨3⟩ final.reverse)).atlas =
        (atlas.perform (.declareImports ⟨3⟩ final)).atlas ∧
      (atlas.perform (.declareImports ⟨3⟩ premature.reverse)).answer ≠ .ok .done := by
  intro settings commands atlas first second final premature
  obtain ⟨twice, lists⟩ := propagations_commute settings commands
  obtain ⟨_, answered, same⟩ := twice ⟨1⟩ ⟨2⟩ ⟨0⟩ ⟨3⟩ .intrude .pub (by decide) (by decide)
  obtain ⟨accepted, reached⟩ := lists rfl ⟨3⟩ final final.reverse (List.reverse_perm _).symm
  obtain ⟨refused, _⟩ := lists rfl ⟨3⟩ premature premature.reverse (List.reverse_perm _).symm
  have given : (atlas.perform (.declareImports ⟨3⟩ final)).answer = .ok .done := by decide
  have halted : (atlas.perform (.declareImports ⟨3⟩ premature)).answer ≠ .ok .done := by decide
  exact ⟨answered.trans (by decide), same, accepted.1 given, reached given,
    mt refused.2 halted⟩

/-- The order of two propagations matters if one goes through the module of the other one. -/
example :
    let atlas := (empty {}).run [.createFictive "a", .createFictive "b", .createFictive "c"]
    let first := Command.setVisibility ⟨0⟩ ⟨1⟩ .pub
    let second := Command.setVisibility ⟨1⟩ ⟨2⟩ .pub
    atlas.run [first, second] ≠ atlas.run [second, first] := by
  decide

end Atlas

end ModuleAtlas
