import Mathlib.Data.List.Infix
import ModuleAtlas.Proofs.Fan

/-!
# Refused cycles

The check for cycles looks at the sets that are kept for each node, not at the edges.  Since the
closure is exact after every run, it refuses exactly the edges that would close a cycle, whatever
cycles were made while it was off: an edge that it lets pass puts no further node on a cycle.
-/

namespace ModuleAtlas

namespace Hierarchy

variable {α : Type} [LT α] [DecidableEq α]

def Acyclic (hierarchy : Hierarchy α) : Prop := ∀ x, ¬ hierarchy.Path x x

theorem acyclic_empty (name : String) : (empty name : Hierarchy α).Acyclic :=
  fun _ cycle => Bool.false_ne_true cycle.contains_source

/-! ## Comparison without cycles -/

section Comparison

variable {hierarchy : Hierarchy α}

theorem ge_iff {x y : α} : hierarchy.ge x y ↔ x = y ∨ hierarchy.gt x y := by
  simp [ge]

theorem Closed.gt_trans (closed : hierarchy.Closed) {x y z : α} (upper : hierarchy.gt x y)
    (lower : hierarchy.gt y z) : hierarchy.gt x z := by
  rw [closed.gt_iff_path] at upper lower ⊢
  exact upper.trans lower

theorem Closed.ge_trans (closed : hierarchy.Closed) {x y z : α} (upper : hierarchy.ge x y)
    (lower : hierarchy.ge y z) : hierarchy.ge x z := by
  rcases ge_iff.1 upper with rfl | above
  · exact lower
  · rcases ge_iff.1 lower with rfl | below
    · exact upper
    · exact ge_iff.2 (Or.inr (closed.gt_trans above below))

theorem Acyclic.gt_irrefl (acyclic : hierarchy.Acyclic) (closed : hierarchy.Closed) (x : α) :
    ¬ hierarchy.gt x x :=
  fun above => acyclic x (closed.gt_iff_path.1 above)

theorem Acyclic.gt_asymm (acyclic : hierarchy.Acyclic) (closed : hierarchy.Closed) {x y : α}
    (above : hierarchy.gt x y) : ¬ hierarchy.gt y x :=
  fun back => acyclic.gt_irrefl closed x (closed.gt_trans above back)

theorem Acyclic.ge_antisymm (acyclic : hierarchy.Acyclic) (closed : hierarchy.Closed) {x y : α}
    (above : hierarchy.ge x y) (back : hierarchy.ge y x) : x = y := by
  rcases ge_iff.1 above with same | above
  · exact same
  · rcases ge_iff.1 back with same | back
    · exact same.symm
    · exact absurd back (acyclic.gt_asymm closed above)

end Comparison

variable [DecidableLT α] [LE α] [Std.IsLinearOrder α] [Std.LawfulOrderLT α]

/-! ## One edge -/

section Relate

variable {hierarchy next : Hierarchy α} {greater smaller : α}

/-- A new edge between known nodes is refused if cycles are looked for and it leads back. -/
theorem relate_eq_cycle_iff_path (closed : hierarchy.Closed) (known : hierarchy.contains greater)
    (target : hierarchy.contains smaller) :
    hierarchy.relate greater smaller = .error (.cycle greater smaller) ↔
      ¬ hierarchy.hasDirectEdge greater smaller ∧ hierarchy.checkAcyclic ∧
        (greater = smaller ∨ hierarchy.Path smaller greater) := by
  obtain ⟨upper, upperFound⟩ := contains_iff.1 known
  obtain ⟨lower, lowerFound⟩ := contains_iff.1 target
  have edge : hierarchy.hasDirectEdge greater smaller ↔ smaller ∈ upper.directBelow := by
    simp [hasDirectEdge_iff, upperFound]
  rw [relate_eq_cycle_iff, edge, ← closed.below lowerFound]
  simp [upperFound, lowerFound]

/-- Between known nodes only an edge that closes a cycle is refused. -/
theorem refusal_eq_cycle (known : hierarchy.contains greater) (target : hierarchy.contains smaller)
    {refusal : Refusal α} (refused : hierarchy.relate greater smaller = .error refusal) :
    refusal = .cycle greater smaller := by
  obtain ⟨upper, upperFound⟩ := contains_iff.1 known
  obtain ⟨lower, lowerFound⟩ := contains_iff.1 target
  have notAccepted (next : Hierarchy α) : hierarchy.relate greater smaller ≠ .ok next := by
    rw [refused]
    exact nofun
  by_cases present : smaller ∈ upper.directBelow
  · refine absurd (relate_eq_ok_iff.2 ⟨upper, lower, upperFound, lowerFound, ?_⟩)
      (notAccepted hierarchy)
    rw [if_pos present]
  · by_cases closes : hierarchy.checkAcyclic ∧ (greater = smaller ∨ greater ∈ lower.below)
    · have cycle := relate_eq_cycle_iff.2 ⟨upper, lower, upperFound, lowerFound, present, closes⟩
      exact Except.error.inj (refused.symm.trans cycle)
    · refine absurd (relate_eq_ok_iff.2 ⟨upper, lower, upperFound, lowerFound, ?_⟩)
        (notAccepted (hierarchy.join upper lower))
      rw [if_neg present]
      exact ⟨closes, rfl⟩

/-- An edge that passed the check puts no further node on a cycle. -/
theorem cycle_of_relate (closed : hierarchy.Closed) (checked : hierarchy.checkAcyclic)
    (accepted : hierarchy.relate greater smaller = .ok next) {x : α} (cycle : next.Path x x) :
    hierarchy.Path x x := by
  rcases (path_relate accepted).1 cycle with old | ⟨before, after⟩
  · exact old
  · -- the rest of the cycle leads from the lower end of the edge back to its upper end
    have back : hierarchy.Reaches smaller greater := after.trans before
    obtain ⟨upper, lower, upperFound, lowerFound, effect⟩ := relate_eq_ok_iff.1 accepted
    by_cases present : smaller ∈ upper.directBelow
    · have edge := hasDirectEdge_iff.2 ⟨upper, upperFound, present⟩
      exact (Relation.TransGen.tail' before edge).trans_left after
    · rw [if_neg present] at effect
      refine absurd ⟨checked, ?_⟩ effect.1
      rw [closed.below lowerFound]
      exact reaches_iff.1 back

end Relate

/-! ## Runs of edits -/

theorem acyclic_after {hierarchy : Hierarchy α} (closed : hierarchy.Closed)
    (checked : hierarchy.checkAcyclic) (acyclic : hierarchy.Acyclic) (edit : Edit α) :
    (hierarchy.after edit).Acyclic := by
  cases edit with
  | register node => exact fun x cycle => acyclic x ((path_register hierarchy node x x).1 cycle)
  | checkAcyclic enabled => exact acyclic
  | relate greater smaller =>
    cases outcome : hierarchy.relate greater smaller with
    | ok next =>
      rw [after_relate_ok outcome]
      exact fun x cycle => acyclic x (cycle_of_relate closed checked outcome cycle)
    | error refusal =>
      rw [after_relate_error outcome]
      exact acyclic

/-- A run keeps a hierarchy free of cycles if the check is on at each of its moments. -/
theorem acyclic_run {hierarchy : Hierarchy α} (closed : hierarchy.Closed)
    (acyclic : hierarchy.Acyclic) {edits : List (Edit α)}
    (checked : ∀ earlier, earlier <+: edits → (hierarchy.run earlier).checkAcyclic) :
    (hierarchy.run edits).Acyclic := by
  induction edits generalizing hierarchy with
  | nil => exact acyclic
  | cons edit rest ih =>
    have first : hierarchy.checkAcyclic := checked [] List.nil_prefix
    refine ih (closed_after closed edit) (acyclic_after closed first acyclic edit) ?_
    intro earlier isPrefix
    exact checked (edit :: earlier) ((List.prefix_cons_inj edit).2 isPrefix)

/-- A fan that is added with the check on closes no cycle. -/
theorem acyclic_run_fan {hierarchy : Hierarchy α} (closed : hierarchy.Closed)
    (checked : hierarchy.checkAcyclic) (acyclic : hierarchy.Acyclic) (source : α)
    (targets : List α) : (hierarchy.run (fan source targets)).Acyclic := by
  refine acyclic_run closed acyclic fun earlier isPrefix => ?_
  obtain ⟨first, _, rfl⟩ := List.prefix_map_iff.1 isPrefix
  exact (checkAcyclic_run_fan hierarchy source first).trans checked

/--
After every run of edits, with the check on by then, an edge between registered nodes is refused for
a cycle exactly if it is new and its upper end is its lower end or reached from there.  A refused
edge changes nothing and an accepted one puts no further node on a cycle.  So after a run with the
check on all the time `gt` is a strict order and `ge` a partial order of all nodes.
-/
theorem cycle_check_exact (name : String) (edits : List (Edit α)) :
    let final : Hierarchy α := (empty name).run edits
    (final.checkAcyclic → ∀ greater smaller, final.contains greater → final.contains smaller →
      (final.relate greater smaller = .error (.cycle greater smaller) ↔
        ¬ final.hasDirectEdge greater smaller ∧
          (greater = smaller ∨ final.Path smaller greater)) ∧
      (∀ refusal, final.relate greater smaller = .error refusal →
        refusal = .cycle greater smaller ∧ final.after (.relate greater smaller) = final) ∧
      ∀ next, final.relate greater smaller = .ok next → ∀ x, next.Path x x → final.Path x x) ∧
    ((∀ earlier, earlier <+: edits → ((empty name : Hierarchy α).run earlier).checkAcyclic) →
      ((∀ x, ¬ final.gt x x) ∧ (∀ x y, final.gt x y → ¬ final.gt y x) ∧
        ∀ x y z, final.gt x y → final.gt y z → final.gt x z) ∧
      (∀ x, final.ge x x) ∧ (∀ x y, final.ge x y → final.ge y x → x = y) ∧
        ∀ x y z, final.ge x y → final.ge y z → final.ge x z) := by
  intro final
  have closed : final.Closed := closed_run (closed_empty name) edits
  refine ⟨?_, ?_⟩
  · intro checked greater smaller known target
    refine ⟨?_, ?_, ?_⟩
    · rw [relate_eq_cycle_iff_path closed known target, and_iff_right checked]
    · intro refusal refused
      exact ⟨refusal_eq_cycle known target refused, after_relate_error refused⟩
    · intro next accepted x cycle
      exact cycle_of_relate closed checked accepted cycle
  · intro alwaysChecked
    have acyclic : final.Acyclic :=
      acyclic_run (closed_empty name) (acyclic_empty name) alwaysChecked
    refine ⟨⟨acyclic.gt_irrefl closed, ?_, ?_⟩, ?_, ?_, ?_⟩
    · exact fun _ _ above => acyclic.gt_asymm closed above
    · exact fun _ _ _ upper lower => closed.gt_trans upper lower
    · exact fun x => ge_iff.2 (Or.inl rfl)
    · exact fun _ _ above back => acyclic.ge_antisymm closed above back
    · exact fun _ _ _ upper lower => closed.ge_trans upper lower

/--
Around a cycle from the time without check, the edges of the cycle may be added again but none that
leads back to it; with the check on all the time the cycle could not have come about.
-/
theorem cycle_check_exact_after_switch :
    let switched : Hierarchy Nat := (empty "order").run
      [.register 1, .register 2, .register 3, .checkAcyclic false, .relate 1 2, .relate 2 1,
        .checkAcyclic true, .relate 2 3]
    let steady : Hierarchy Nat := (empty "order").run
      [.register 1, .register 2, .register 3, .relate 1 2, .relate 2 1, .relate 2 3]
    (switched.Path 1 1 ∧ switched.relate 1 2 ≠ .error (.cycle 1 2) ∧
      switched.relate 3 1 = .error (.cycle 3 1) ∧ switched.after (.relate 3 1) = switched) ∧
    steady.gt 1 3 ∧ ¬ steady.gt 3 1 := by
  intro switched steady
  have checked := (cycle_check_exact "order"
    [.register 1, .register 2, .register 3, .checkAcyclic false, .relate 1 2, .relate 2 1,
      .checkAcyclic true, .relate 2 3]).1 rfl
  have neverOff : ∀ earlier ∈ List.inits [.register 1, .register 2, .register 3, .relate 1 2,
      .relate 2 1, .relate 2 3], ((empty "order" : Hierarchy Nat).run earlier).checkAcyclic := by
    decide
  have ordered := (cycle_check_exact "order"
    [.register 1, .register 2, .register 3, .relate 1 2, .relate 2 1, .relate 2 3]).2
      fun earlier isPrefix => neverOff earlier ((List.mem_inits earlier _).2 isPrefix)
  have edge : switched.hasDirectEdge 1 2 := by decide
  have back : switched.hasDirectEdge 2 1 := by decide
  have further : switched.hasDirectEdge 2 3 := by decide
  have refused : switched.relate 3 1 = .error (.cycle 3 1) :=
    (checked 3 1 rfl rfl).1.2 ⟨by decide, Or.inr (.tail (.single edge) further)⟩
  refine ⟨⟨.tail (.single edge) back, ?_, refused, ?_⟩, by decide, ?_⟩
  · exact fun cycle => ((checked 1 2 rfl rfl).1.1 cycle).1 edge
  · exact ((checked 3 1 rfl rfl).2.1 _ refused).2
  · exact ordered.1.2.1 1 3 (by decide)

end Hierarchy

end ModuleAtlas
