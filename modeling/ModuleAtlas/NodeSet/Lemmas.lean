import ModuleAtlas.NodeSet.Basic

/-!
# Membership in finite sets

What each operation on sets does to membership, and that membership decides a set.
-/

namespace ModuleAtlas

namespace NodeSet

variable {α : Type} [LT α]

@[simp] theorem mem_toList {set : NodeSet α} {x : α} : x ∈ set.toList ↔ x ∈ set := Iff.rfl

@[simp] theorem not_mem_empty {x : α} : ¬ x ∈ (∅ : NodeSet α) := List.not_mem_nil

@[simp] theorem mem_singleton {x y : α} : x ∈ singleton y ↔ x = y := List.mem_singleton

/-- A set is empty if and only if it has no member. -/
theorem isEmpty_iff {set : NodeSet α} : set.isEmpty = true ↔ ∀ x, ¬ x ∈ set := by
  simp [isEmpty, List.eq_nil_iff_forall_not_mem]

variable [LE α] [Std.LawfulOrderLT α]

/-- A set lists each member once. -/
theorem nodup (set : NodeSet α) : set.toList.Nodup := by
  refine List.Pairwise.imp ?_ set.ascending
  intro x y less same
  exact Std.lt_irrefl (same ▸ less)

variable [Std.IsLinearOrder α]

/-- Two ascending lists with the same members are the same list. -/
theorem toList_unique {xs ys : List α} (left : xs.Pairwise (· < ·)) (right : ys.Pairwise (· < ·))
    (same : ∀ x, x ∈ xs ↔ x ∈ ys) : xs = ys := by
  induction xs generalizing ys with
  | nil => exact (List.eq_nil_iff_forall_not_mem.2 fun x member => nomatch (same x).2 member).symm
  | cons x xs ih =>
    cases ys with
    | nil => exact nomatch (same x).1 List.mem_cons_self
    | cons y ys =>
      obtain ⟨belowX, tailX⟩ := List.pairwise_cons.1 left
      obtain ⟨belowY, tailY⟩ := List.pairwise_cons.1 right
      have heads : x = y := by
        rcases List.mem_cons.1 ((same x).1 List.mem_cons_self) with isHead | laterInRight
        · exact isHead
        · rcases List.mem_cons.1 ((same y).2 List.mem_cons_self) with isHead | laterInLeft
          · exact isHead.symm
          · exact absurd (Std.lt_trans (belowX y laterInLeft) (belowY x laterInRight))
              Std.lt_irrefl
      subst heads
      refine congrArg (x :: ·) (ih tailX tailY fun z => ⟨fun member => ?_, fun member => ?_⟩)
      · rcases List.mem_cons.1 ((same z).1 (List.mem_cons_of_mem x member)) with isHead | later
        · exact absurd (isHead ▸ belowX z member) Std.lt_irrefl
        · exact later
      · rcases List.mem_cons.1 ((same z).2 (List.mem_cons_of_mem x member)) with isHead | later
        · exact absurd (isHead ▸ belowY z member) Std.lt_irrefl
        · exact later

/-- Sets with the same members are equal. -/
@[ext] theorem ext {left right : NodeSet α} (same : ∀ x, x ∈ left ↔ x ∈ right) :
    left = right := by
  have := toList_unique left.ascending right.ascending same
  cases left; cases right; simp_all

/-- However the members of a set are listed, each once, sorting them gives the list of the set. -/
theorem mergeSort_eq_toList [DecidableLE α] {set : NodeSet α} {listing : List α}
    (perm : listing.Perm set.toList) : listing.mergeSort (fun x y => x ≤ y) = set.toList := by
  have ordered : (listing.mergeSort fun x y => x ≤ y).Pairwise fun x y => decide (x ≤ y) = true :=
    List.pairwise_mergeSort (by simpa using fun _ _ _ => Std.le_trans)
      (by simpa using fun _ _ => Std.le_total) listing
  have sorted : (listing.mergeSort fun x y => x ≤ y).Pairwise (· ≤ ·) :=
    ordered.imp fun le => of_decide_eq_true le
  have ascending : set.toList.Pairwise (· ≤ ·) := set.ascending.imp Std.le_of_lt
  have same := (List.mergeSort_perm listing fun x y => x ≤ y).trans perm
  exact same.eq_of_pairwise (fun _ _ _ _ => Std.le_antisymm) sorted ascending

variable [DecidableLT α] [DecidableEq α]

@[simp] theorem mem_union {left right : NodeSet α} {x : α} :
    x ∈ left ∪ right ↔ x ∈ left ∨ x ∈ right := mem_merge _ _

@[simp] theorem mem_insert {set : NodeSet α} {x y : α} :
    x ∈ set.insert y ↔ x = y ∨ x ∈ set := by simp [insert]

end NodeSet

end ModuleAtlas
