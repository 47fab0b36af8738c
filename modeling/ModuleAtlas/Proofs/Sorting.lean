import Mathlib.Data.List.Perm.Subperm
import ModuleAtlas.Hierarchy.Linear
import ModuleAtlas.Proofs.Acyclic

/-!
# Sorting by weight

Everything below a node is also below each node above it, and a node that is on no cycle is not
below itself.  So the weight of a node grows along paths to it, and nodes that are sorted by weight
come in an order that no path contradicts.  Of nodes that weigh the same the value decides, so the
order does not depend on how they were listed.
-/

namespace ModuleAtlas

/-- A part of a set that lacks one of its members is smaller. -/
theorem NodeSet.size_lt_size {α : Type} [LT α] [LE α] [Std.LawfulOrderLT α]
    {part whole : NodeSet α} {x : α} (lacks : ¬ x ∈ part) (member : x ∈ whole)
    (within : ∀ y, y ∈ part → y ∈ whole) : part.size < whole.size := by
  have listed : (x :: part.toList).Nodup := List.nodup_cons.2 ⟨lacks, NodeSet.nodup part⟩
  have all : x :: part.toList ⊆ whole.toList := by
    intro y listed
    rcases List.mem_cons.1 listed with rfl | rest
    · exact member
    · exact within y rest
  exact (listed.subperm all).length_le

namespace Hierarchy

variable {α : Type} [LT α] [DecidableEq α] [LE α]

/-- A node off all cycles weighs less than what is above it. -/
theorem weight_lt [Std.LawfulOrderLT α] {hierarchy : Hierarchy α} (closed : hierarchy.Closed)
    {x y : α} (path : hierarchy.Path x y) (offCycles : ¬ hierarchy.Path y y) :
    hierarchy.weight y < hierarchy.weight x := by
  obtain ⟨upper, foundUpper⟩ := contains_iff.1 path.contains_source
  obtain ⟨lower, foundLower⟩ := contains_iff.1 (closed.contains_target path)
  have smaller : lower.below.size < upper.below.size := by
    refine NodeSet.size_lt_size (x := y) ?_ ?_ fun z below => ?_
    · exact fun member => offCycles ((closed.below foundLower).1 member)
    · exact (closed.below foundUpper).2 path
    · exact (closed.below foundUpper).2 (path.trans ((closed.below foundLower).1 below))
  simpa only [weight, foundUpper, foundLower] using smaller

variable [DecidableLE α] {hierarchy : Hierarchy α}

theorem precedes_iff {x y : α} :
    hierarchy.precedes x y ↔
      hierarchy.weight x < hierarchy.weight y ∨
        hierarchy.weight x = hierarchy.weight y ∧ x ≤ y := by
  simp [precedes]

theorem linearize_perm (hierarchy : Hierarchy α) (items : List α) :
    (hierarchy.linearize items).Perm items :=
  List.mergeSort_perm items _

variable [Std.IsLinearOrder α]

theorem precedes_trans {x y z : α} (first : hierarchy.precedes x y)
    (second : hierarchy.precedes y z) : hierarchy.precedes x z := by
  rw [precedes_iff] at first second ⊢
  rcases first with lighter | ⟨same, le⟩
  · rcases second with lighter' | ⟨same', _⟩
    · exact Or.inl (Nat.lt_trans lighter lighter')
    · exact Or.inl (same' ▸ lighter)
  · rcases second with lighter' | ⟨same', le'⟩
    · exact Or.inl (same ▸ lighter')
    · exact Or.inr ⟨same.trans same', Std.le_trans le le'⟩

theorem precedes_total (x y : α) : (hierarchy.precedes x y || hierarchy.precedes y x) = true := by
  rw [Bool.or_eq_true, precedes_iff, precedes_iff]
  rcases Nat.lt_trichotomy (hierarchy.weight x) (hierarchy.weight y) with lighter | same | heavier
  · exact Or.inl (Or.inl lighter)
  · rcases Std.le_total (a := x) (b := y) with le | ge
    · exact Or.inl (Or.inr ⟨same, le⟩)
    · exact Or.inr (Or.inr ⟨same.symm, ge⟩)
  · exact Or.inr (Or.inl heavier)

theorem precedes_antisymm {x y : α} (first : hierarchy.precedes x y)
    (back : hierarchy.precedes y x) : x = y := by
  rw [precedes_iff] at first back
  rcases first with lighter | ⟨same, le⟩
  · rcases back with heavier | ⟨same, _⟩
    · exact absurd heavier (Nat.lt_asymm lighter)
    · exact absurd same (Nat.ne_of_gt lighter)
  · rcases back with lighter | ⟨_, ge⟩
    · exact absurd same (Nat.ne_of_gt lighter)
    · exact Std.le_antisymm le ge

theorem pairwise_linearize (hierarchy : Hierarchy α) (items : List α) :
    (hierarchy.linearize items).Pairwise fun first later => hierarchy.precedes first later :=
  List.pairwise_mergeSort (fun _ _ _ => precedes_trans) precedes_total items

/-- Lists of the same nodes are sorted alike. -/
theorem linearize_congr {items others : List α} (perm : others.Perm items) :
    hierarchy.linearize others = hierarchy.linearize items := by
  have same : (hierarchy.linearize others).Perm (hierarchy.linearize items) :=
    (linearize_perm hierarchy others).trans (perm.trans (linearize_perm hierarchy items).symm)
  exact same.eq_of_pairwise (fun _ _ _ _ => precedes_antisymm)
    (pairwise_linearize hierarchy others) (pairwise_linearize hierarchy items)

/-- Of two nodes in the list the upper one comes later if the lower one is off all cycles. -/
theorem linearize_ordered [Std.LawfulOrderLT α] (closed : hierarchy.Closed) (items : List α) :
    (hierarchy.linearize items).Pairwise fun first later =>
      hierarchy.Path first later → hierarchy.Path later later := by
  refine (pairwise_linearize hierarchy items).imp fun precedes path => ?_
  by_contra offCycles
  have lighter := weight_lt closed path offCycles
  rcases precedes_iff.1 precedes with heavier | ⟨same, _⟩
  · exact absurd heavier (Nat.lt_asymm lighter)
  · exact absurd same (Nat.ne_of_gt lighter)

theorem lt_of_getElem?_linearize [Std.LawfulOrderLT α] (closed : hierarchy.Closed)
    {items : List α} {x y : α} (above : hierarchy.gt x y) (offCycles : ¬ hierarchy.gt y y)
    {i j : Nat} (lower : (hierarchy.linearize items)[i]? = some y)
    (upper : (hierarchy.linearize items)[j]? = some x) : i < j := by
  obtain ⟨insideI, rfl⟩ := List.getElem?_eq_some_iff.1 lower
  obtain ⟨insideJ, rfl⟩ := List.getElem?_eq_some_iff.1 upper
  by_contra notBefore
  rcases Nat.lt_or_eq_of_le (Nat.le_of_not_lt notBefore) with earlier | same
  · have ordered :=
      List.pairwise_iff_getElem.1 (linearize_ordered closed items) j i insideJ insideI earlier
    exact offCycles (closed.gt_iff_path.2 (ordered (closed.gt_iff_path.1 above)))
  · subst same
    exact offCycles above

/--
After every run of edits, with cycles or without, a list of nodes is sorted into a list of the same
nodes, repeated and unregistered ones included, which is the same one for every order in which they
may be listed.  In it every occurrence of a node that is on no cycle comes before every occurrence
of a node that is greater; without cycles this is so for all nodes.
-/
theorem linearize_canonical [Std.LawfulOrderLT α] [DecidableLT α] (name : String)
    (edits : List (Edit α)) (items : List α) :
    let final : Hierarchy α := (empty name).run edits
    let sorted := final.linearize items
    sorted.Perm items ∧
      (∀ others : List α, others.Perm items → final.linearize others = sorted) ∧
      (∀ x y : α, final.gt x y → ¬ final.gt y y → ∀ i j : Nat, sorted[i]? = some y →
        sorted[j]? = some x → i < j) ∧
      (final.Acyclic → ∀ x y : α, final.gt x y → ∀ i j : Nat, sorted[i]? = some y →
        sorted[j]? = some x → i < j) := by
  intro final sorted
  have closed : final.Closed := closed_run (closed_empty name) edits
  refine ⟨linearize_perm final items, ?_, ?_, ?_⟩
  · exact fun others perm => linearize_congr perm
  · intro x y above offCycles i j lower upper
    exact lt_of_getElem?_linearize closed above offCycles lower upper
  · intro acyclic x y above i j lower upper
    exact lt_of_getElem?_linearize closed above (acyclic.gt_irrefl closed y) lower upper

/--
A node below a cycle, listed twice, comes before the node of the cycle that is above it; on a cycle
itself nothing is promised, and without the cycle all nodes come in order.
-/
theorem linearize_canonical_beside_cycle :
    let looped : Hierarchy Nat := (empty "order").run
      [.register 1, .register 2, .register 3, .checkAcyclic false, .relate 1 2, .relate 2 1,
        .relate 1 3]
    let straight : Hierarchy Nat := (empty "order").run
      [.register 1, .register 2, .register 3, .relate 2 1, .relate 1 3]
    (looped.linearize [1, 3, 7, 2, 3]).Perm [1, 3, 7, 2, 3] ∧
      looped.linearize [3, 3, 2, 1, 7] = looped.linearize [1, 3, 7, 2, 3] ∧
      (looped.gt 2 3 ∧ ¬ looped.gt 3 3 ∧
        ∀ i j : Nat, (looped.linearize [1, 3, 7, 2, 3])[i]? = some 3 →
          (looped.linearize [1, 3, 7, 2, 3])[j]? = some 2 → i < j) ∧
      (looped.gt 2 1 ∧ looped.gt 1 2) ∧
      (straight.Acyclic ∧ straight.gt 2 1 ∧
        ∀ i j : Nat, (straight.linearize [2, 1])[i]? = some 1 →
          (straight.linearize [2, 1])[j]? = some 2 → i < j) := by
  intro looped straight
  obtain ⟨perm, same, ordered, _⟩ := linearize_canonical "order"
    [.register 1, .register 2, .register 3, .checkAcyclic false, .relate 1 2, .relate 2 1,
      .relate 1 3] [1, 3, 7, 2, 3]
  obtain ⟨_, _, _, orderedAll⟩ := linearize_canonical "order"
    [.register 1, .register 2, .register 3, .relate 2 1, .relate 1 3] [2, 1]
  have neverOff : ∀ earlier ∈ List.inits [.register 1, .register 2, .register 3, .relate 2 1,
      .relate 1 3], ((empty "order" : Hierarchy Nat).run earlier).checkAcyclic := by
    decide
  have acyclic : straight.Acyclic := acyclic_run (closed_empty "order") (acyclic_empty "order")
    fun earlier isPrefix => neverOff earlier ((List.mem_inits earlier _).2 isPrefix)
  exact ⟨perm, same _ (by decide), ⟨by decide, by decide, ordered 2 3 (by decide) (by decide)⟩,
    ⟨by decide, by decide⟩, acyclic, by decide, orderedAll acyclic 2 1 (by decide)⟩

end Hierarchy

end ModuleAtlas
