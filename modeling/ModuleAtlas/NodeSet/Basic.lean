/-!
# Finite sets of nodes

A set is the ascending list of its members, so equal sets are equal values and a set is shown in
one way only.  Union merges two ascending lists; everything else is said through membership.
-/

namespace ModuleAtlas

/-- A finite set, listed in strictly ascending order. -/
structure NodeSet (α : Type) [LT α] where
  toList : List α
  ascending : toList.Pairwise (· < ·)

namespace NodeSet

variable {α : Type}

/-! ## Merging ascending lists -/

/-- Put `first` into its place in a list and hand what lies beyond that place to `rest`. -/
def weave [LT α] [DecidableLT α] [DecidableEq α]
    (first : α) (rest : List α → List α) : List α → List α
  | [] => first :: rest []
  | x :: xs =>
    if first < x then first :: rest (x :: xs)
    else if first = x then first :: rest xs
    else x :: weave first rest xs

/-- Merge two ascending lists; a common member is kept once. -/
def merge [LT α] [DecidableLT α] [DecidableEq α] : List α → List α → List α
  | [] => id
  | x :: xs => weave x (merge xs)

section Merge

variable [LT α] [DecidableLT α] [DecidableEq α]

/-- Weaving keeps the members of both lists and of what is handed on. -/
theorem mem_weave {first z : α} {rest : List α → List α} {xs : List α}
    (restMembers : ∀ ys, z ∈ rest ys ↔ z ∈ xs ∨ z ∈ ys) (ys : List α) :
    z ∈ weave first rest ys ↔ z = first ∨ z ∈ xs ∨ z ∈ ys := by
  induction ys with
  | nil => rw [weave, List.mem_cons, restMembers]
  | cons y ys ih =>
    rw [weave]
    split
    · rw [List.mem_cons, restMembers]
    · split
      next same =>
        rw [List.mem_cons, restMembers, List.mem_cons, ← same]
        constructor
        · rintro (isFirst | inRest | inList)
          · exact .inl isFirst
          · exact .inr (.inl inRest)
          · exact .inr (.inr (.inr inList))
        · rintro (isFirst | inRest | isFirst | inList)
          · exact .inl isFirst
          · exact .inr (.inl inRest)
          · exact .inl isFirst
          · exact .inr (.inr inList)
      next =>
        rw [List.mem_cons, ih, List.mem_cons]
        constructor
        · rintro (isHead | isFirst | inRest | inList)
          · exact .inr (.inr (.inl isHead))
          · exact .inl isFirst
          · exact .inr (.inl inRest)
          · exact .inr (.inr (.inr inList))
        · rintro (isFirst | inRest | isHead | inList)
          · exact .inr (.inl isFirst)
          · exact .inr (.inr (.inl inRest))
          · exact .inl isHead
          · exact .inr (.inr (.inr inList))

/-- The members of a merge are those of either list. -/
theorem mem_merge {z : α} (xs ys : List α) : z ∈ merge xs ys ↔ z ∈ xs ∨ z ∈ ys := by
  induction xs generalizing ys with
  | nil => simp [merge]
  | cons x xs ih =>
    have woven : z ∈ weave x (merge xs) ys ↔ z = x ∨ z ∈ xs ∨ z ∈ ys := mem_weave ih ys
    rw [merge, woven, List.mem_cons, or_assoc]

variable [LE α] [Std.IsLinearOrder α] [Std.LawfulOrderLT α]

/-- Weaving ascending lists gives an ascending list. -/
theorem pairwise_weave {first : α} {rest : List α → List α} {xs : List α}
    (restMembers : ∀ z ys, z ∈ rest ys ↔ z ∈ xs ∨ z ∈ ys)
    (restAscending : ∀ ys : List α, ys.Pairwise (· < ·) → (rest ys).Pairwise (· < ·))
    (firstBelow : ∀ z ∈ xs, first < z) (ys : List α) (ascending : ys.Pairwise (· < ·)) :
    (weave first rest ys).Pairwise (· < ·) := by
  induction ys with
  | nil =>
    refine List.pairwise_cons.2 ⟨fun z member => ?_, restAscending [] .nil⟩
    rcases (restMembers z []).1 member with inRest | inList
    · exact firstBelow z inRest
    · exact absurd inList List.not_mem_nil
  | cons y ys ih =>
    obtain ⟨below, tail⟩ := List.pairwise_cons.1 ascending
    rw [weave]
    split
    next less =>
      refine List.pairwise_cons.2 ⟨fun z member => ?_, restAscending _ ascending⟩
      rcases (restMembers z _).1 member with inRest | inList
      · exact firstBelow z inRest
      · rcases List.mem_cons.1 inList with isHead | later
        · exact isHead ▸ less
        · exact Std.lt_trans less (below z later)
    next notLess =>
      split
      next same =>
        subst same
        refine List.pairwise_cons.2 ⟨fun z member => ?_, restAscending _ tail⟩
        rcases (restMembers z _).1 member with inRest | inList
        · exact firstBelow z inRest
        · exact below z inList
      next different =>
        have headBelow : y < first :=
          Std.lt_of_le_of_ne (Std.not_lt.1 notLess) (Ne.symm different)
        refine List.pairwise_cons.2 ⟨fun z member => ?_, ih tail⟩
        rcases (mem_weave (restMembers z) ys).1 member with isFirst | inRest | inList
        · exact isFirst ▸ headBelow
        · exact Std.lt_trans headBelow (firstBelow z inRest)
        · exact below z inList

/-- Merging ascending lists gives an ascending list. -/
theorem pairwise_merge {xs ys : List α}
    (left : xs.Pairwise (· < ·)) (right : ys.Pairwise (· < ·)) :
    (merge xs ys).Pairwise (· < ·) := by
  induction xs generalizing ys with
  | nil => exact right
  | cons x xs ih =>
    obtain ⟨below, tail⟩ := List.pairwise_cons.1 left
    exact pairwise_weave (fun _ => mem_merge xs) (fun _ => ih tail) below ys right

end Merge

/-! ## Sets -/

section Sets

variable [LT α]

def empty : NodeSet α := ⟨[], .nil⟩

instance : EmptyCollection (NodeSet α) := ⟨empty⟩

instance : Inhabited (NodeSet α) := ⟨∅⟩

instance : Membership α (NodeSet α) := ⟨fun set x => x ∈ set.toList⟩

instance [DecidableEq α] (x : α) (set : NodeSet α) : Decidable (x ∈ set) :=
  inferInstanceAs (Decidable (x ∈ set.toList))

instance [DecidableEq α] : DecidableEq (NodeSet α) :=
  fun left right => decidable_of_iff (left.toList = right.toList) (by cases left; cases right; simp)

def size (set : NodeSet α) : Nat := set.toList.length

def isEmpty (set : NodeSet α) : Bool := set.toList.isEmpty

def singleton (x : α) : NodeSet α := ⟨[x], List.pairwise_singleton _ _⟩

variable [DecidableLT α] [DecidableEq α] [LE α] [Std.IsLinearOrder α] [Std.LawfulOrderLT α]

def union (left right : NodeSet α) : NodeSet α :=
  ⟨merge left.toList right.toList, pairwise_merge left.ascending right.ascending⟩

instance : Union (NodeSet α) := ⟨union⟩

def insert (set : NodeSet α) (x : α) : NodeSet α := singleton x ∪ set

end Sets

end NodeSet

end ModuleAtlas
