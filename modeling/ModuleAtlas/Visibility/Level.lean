/-!
# Visibility levels

How deeply one module sees another.  The levels form a chain; a keyword names each of them.
-/

namespace ModuleAtlas

inductive Visibility where
  | none
  | priv
  | pub
  | intrude
  deriving DecidableEq

namespace Visibility

def all : List Visibility := [none, priv, pub, intrude]

/-! ## Order -/

def rank : Visibility → Nat
  | none => 0
  | priv => 1
  | pub => 2
  | intrude => 3

instance : LE Visibility := ⟨fun left right => left.rank ≤ right.rank⟩

instance : LT Visibility := ⟨fun left right => left.rank < right.rank⟩

instance : DecidableLE Visibility :=
  fun left right => inferInstanceAs (Decidable (left.rank ≤ right.rank))

instance : DecidableLT Visibility :=
  fun left right => inferInstanceAs (Decidable (left.rank < right.rank))

instance : Max Visibility := maxOfLe

instance : Min Visibility := minOfLe

def order (left right : Visibility) : Ordering := compare left.rank right.rank

theorem le_iff {left right : Visibility} : left ≤ right ↔ left.rank ≤ right.rank := Iff.rfl

theorem lt_iff {left right : Visibility} : left < right ↔ left.rank < right.rank := Iff.rfl

/-- No two levels have the same rank. -/
theorem rank_injective {left right : Visibility} (same : left.rank = right.rank) :
    left = right := by
  cases left <;> cases right <;> simp_all [rank]

/-! ## Access -/

/--
Whether an entity that asks for `required` may be used where its module is seen at `level`.
Intrusion opens everything from private upward; public and private visibility both open only
what asks for more than private; without visibility nothing is open.
-/
def grants (level required : Visibility) : Bool :=
  match level with
  | intrude => decide (priv ≤ required)
  | pub => decide (priv < required)
  | priv => decide (priv < required)
  | none => false

/-! ## Keywords -/

def keyword : Visibility → String
  | none => "none"
  | priv => "private"
  | pub => "public"
  | intrude => "intrude"

def ofKeyword? (word : String) : Option Visibility :=
  all.find? fun level => level.keyword = word

/-- Every keyword is read as the level it was written for. -/
theorem ofKeyword?_keyword (level : Visibility) : ofKeyword? level.keyword = some level := by
  cases level <;> decide

/-- Only the keyword of a level is read as that level. -/
theorem keyword_of_ofKeyword? {word : String} {level : Visibility}
    (read : ofKeyword? word = some level) : level.keyword = word := by
  simpa using List.find?_some read

end Visibility

end ModuleAtlas
