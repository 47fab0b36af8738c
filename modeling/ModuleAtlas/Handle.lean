/-!
# Handles

Every project, group and module of an atlas lives in the arena of its kind and is referred to by
its position there.  A handle may point past the end of its arena: whether it is known is asked of
the atlas, never of the handle.
-/

namespace ModuleAtlas

inductive Kind where
  | module
  | group
  | project
  deriving DecidableEq

namespace Kind

def noun : Kind → String
  | module => "module"
  | group => "group"
  | project => "project"

end Kind

/-- Position of an entity in the arena of its kind. -/
@[ext] structure Handle (kind : Kind) where
  index : Nat
  deriving DecidableEq

abbrev ModuleId := Handle .module

abbrev GroupId := Handle .group

abbrev ProjectId := Handle .project

namespace Handle

variable {kind : Kind}

/-- A handle has thirty-two bits: an arena has this many positions. -/
def capacity : Nat := 0x100000000

def text (handle : Handle kind) : String :=
  kind.noun ++ "#" ++ toString handle.index

/-! ## Order -/

instance : LE (Handle kind) := ⟨fun left right => left.index ≤ right.index⟩

instance : LT (Handle kind) := ⟨fun left right => left.index < right.index⟩

instance : DecidableLE (Handle kind) :=
  fun left right => inferInstanceAs (Decidable (left.index ≤ right.index))

instance : DecidableLT (Handle kind) :=
  fun left right => inferInstanceAs (Decidable (left.index < right.index))

theorem le_iff {left right : Handle kind} : left ≤ right ↔ left.index ≤ right.index := Iff.rfl

theorem lt_iff {left right : Handle kind} : left < right ↔ left.index < right.index := Iff.rfl

instance : Std.LawfulOrderLT (Handle kind) where
  lt_iff left right := by simp only [lt_iff, le_iff]; omega

instance : Std.IsLinearOrder (Handle kind) :=
  .of_le
    { antisymm := fun _ _ below above => Handle.ext (Nat.le_antisymm below above) }
    { trans := fun below above => Nat.le_trans below above }
    { total := fun left right => Nat.le_total left.index right.index }

def order (left right : Handle kind) : Ordering := compare left.index right.index

end Handle

end ModuleAtlas
