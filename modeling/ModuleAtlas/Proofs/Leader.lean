import ModuleAtlas.Proofs.Arrangement

/-!
# The nearest default module

The default module of a group leads it; a group without one is led by whoever leads its parent.
A new member of a group is nested under the module that leads the group or, if it leads the group
itself, under the module that leads the parent.  The leader of a group changes only when a group
without default module at or above it gets one.
-/

namespace ModuleAtlas

namespace Atlas

/-- A module is the nearest default module at or above a group. -/
inductive Leads (atlas : Atlas) (leader : ModuleId) : GroupId → Prop where
  | here {group : GroupId} (stands : atlas.StandsFor leader group) : Leads atlas leader group
  | above {parent group : GroupId} (vacant : ∀ module, ¬ atlas.StandsFor module group)
      (isParent : atlas.IsParent parent group) (leads : Leads atlas leader parent) :
      Leads atlas leader group

def LeadsAbove (atlas : Atlas) (leader : ModuleId) (group : GroupId) : Prop :=
  ∃ parent, atlas.IsParent parent group ∧ atlas.Leads leader parent

section Leading

variable {atlas : Atlas} {leader module : ModuleId} {group : GroupId}

theorem leads_iff_of_standsFor (stands : atlas.StandsFor module group) :
    atlas.Leads leader group ↔ leader = module := by
  constructor
  · rintro (same | ⟨vacant, _, _⟩)
    · exact same.unique stands
    · exact absurd stands (vacant module)
  · rintro rfl
    exact .here stands

theorem leads_iff_leadsAbove (vacant : ∀ module, ¬ atlas.StandsFor module group) :
    atlas.Leads leader group ↔ atlas.LeadsAbove leader group := by
  constructor
  · rintro (stands | ⟨_, isParent, leads⟩)
    · exact absurd stands (vacant leader)
    · exact ⟨_, isParent, leads⟩
  · rintro ⟨parent, isParent, leads⟩
    exact .above vacant isParent leads

theorem leadsAbove_iff {entity : Group} (found : atlas.group? group = some entity) :
    atlas.LeadsAbove leader group ↔
      ∃ parent, entity.parent = some parent ∧ atlas.Leads leader parent := by
  simp [LeadsAbove, IsParent, found]

theorem Leads.knows (leads : atlas.Leads leader group) : atlas.Knows group := by
  cases leads with
  | here stands => exact stands.knows
  | above _ isParent _ => exact isParent.knows

/-- Whoever leads a group stands for a group at or above it. -/
theorem Leads.standsFor (leads : atlas.Leads leader group) :
    ∃ upper, atlas.StandsFor leader upper ∧ atlas.AtOrAbove upper group := by
  induction leads with
  | here stands => exact ⟨_, stands, .refl⟩
  | above _ isParent _ ih =>
    obtain ⟨upper, stands, above⟩ := ih
    exact ⟨upper, stands, above.tail isParent⟩

/-- No member of a group stands for a group above it. -/
theorem WellFormed.not_standsFor_above (wellFormed : atlas.WellFormed)
    (home : atlas.Home module group) {parent upper : GroupId}
    (isParent : atlas.IsParent parent group) (above : atlas.AtOrAbove upper parent) :
    ¬ atlas.StandsFor module upper := by
  intro stands
  obtain rfl : upper = group := (wellFormed.home_of_standsFor stands).unique home
  have older := wellFormed.parents isParent
  rcases wellFormed.eq_or_older above with rfl | younger
  · exact Nat.lt_irrefl _ older
  · exact Nat.lt_asymm older younger

theorem WellFormed.not_leadsAbove (wellFormed : atlas.WellFormed)
    (home : atlas.Home module group) : ¬ atlas.LeadsAbove module group := by
  rintro ⟨parent, isParent, leads⟩
  obtain ⟨upper, stands, above⟩ := leads.standsFor
  exact wellFormed.not_standsFor_above home isParent above stands

end Leading

/-! ## Finding the leader -/

section Climbing

variable {atlas : Atlas} {owner module : ModuleId} {group : GroupId}

/-- A search on the way up looks at a group first and then goes on from its parent. -/
theorem findSome?_climb {β : Type} {entity : Group} (found : atlas.group? group = some entity)
    (steps : Nat) (look : Group → Option β) :
    (atlas.climb (steps + 1) group).findSome? look =
      (look entity).or
        (entity.parent.bind fun parent => (atlas.climb steps parent).findSome? look) := by
  rw [climb, found]
  dsimp only
  rw [List.findSome?_cons]
  cases look entity with
  | some value => rfl
  | none => cases entity.parent <;> rfl

/-- With enough steps the search for a default module but one finds the leader. -/
theorem climb_eq_some_iff (wellFormed : atlas.WellFormed) {steps : Nat}
    (enough : group.index < steps)
    (elsewhere : ∀ upper, atlas.AtOrAbove upper group → ¬ atlas.StandsFor module upper) :
    ((atlas.climb steps group).findSome? fun ancestor =>
        ancestor.defaultModule.filter fun other => other ≠ module) = some owner ↔
      atlas.Leads owner group := by
  induction steps generalizing group with
  | zero => exact absurd enough (Nat.not_lt_zero _)
  | succ steps ih =>
    cases found : atlas.group? group with
    | none =>
      rw [climb, found]
      constructor
      · intro nothing
        cases nothing
      · intro leads
        obtain ⟨entity, known⟩ := leads.knows
        rw [found] at known
        cases known
    | some entity =>
      rw [findSome?_climb found]
      cases isDefault : entity.defaultModule with
      | some other =>
        have stands : atlas.StandsFor other group := (standsFor_iff found).2 isDefault
        have different : other ≠ module := fun same => elsewhere group .refl (same ▸ stands)
        rw [leads_iff_of_standsFor stands, Option.filter_some_pos (by simpa using different),
          Option.some_or, Option.some.injEq, eq_comm]
      | none =>
        rw [leads_iff_leadsAbove (not_standsFor_of_vacant found isDefault), leadsAbove_iff found,
          Option.filter_none, Option.none_or, Option.bind_eq_some_iff]
        refine exists_congr fun parent => and_congr_right fun parentOf => ?_
        have isParent : atlas.IsParent parent group := ⟨entity, found, parentOf⟩
        have older := wellFormed.parents isParent
        exact ih (by omega) fun upper above => elsewhere upper (above.tail isParent)

/--
A member is nested under the default module of its group or, if there is none or it is the default
module itself, under the leader of the parent.
-/
theorem ownerIn_eq_some_iff (wellFormed : atlas.WellFormed) (home : atlas.Home module group)
    (known : atlas.Knows group) :
    atlas.ownerIn group module = some owner ↔
      atlas.StandsFor owner group ∧ owner ≠ module ∨
        (∀ other, atlas.StandsFor other group → other = module) ∧ atlas.LeadsAbove owner group := by
  obtain ⟨entity, found⟩ := known
  have inside : group.index < atlas.groups.length := (List.getElem?_eq_some_iff.1 found).1
  obtain ⟨steps, count⟩ : ∃ steps, atlas.groups.length = steps + 1 :=
    Nat.exists_eq_add_one.2 (by omega)
  have onwards : (entity.parent.bind fun parent => (atlas.climb steps parent).findSome?
      fun ancestor => ancestor.defaultModule.filter fun other => other ≠ module) = some owner ↔
        atlas.LeadsAbove owner group := by
    rw [leadsAbove_iff found, Option.bind_eq_some_iff]
    refine exists_congr fun parent => and_congr_right fun parentOf => ?_
    have isParent : atlas.IsParent parent group := ⟨entity, found, parentOf⟩
    have older := wellFormed.parents isParent
    exact climb_eq_some_iff wellFormed (by omega) fun upper above =>
      wellFormed.not_standsFor_above home isParent above
  rw [ownerIn, lineage, count, findSome?_climb found]
  simp only [standsFor_iff found]
  cases isDefault : entity.defaultModule with
  | none =>
    rw [Option.filter_none, Option.none_or, onwards]
    simp
  | some other =>
    by_cases same : other = module
    · rw [Option.filter_some_neg (by simpa using same), Option.none_or, onwards]
      simp [same, eq_comm]
    · rw [Option.filter_some_pos (by simpa using same), Option.some_or]
      constructor
      · exact fun isOwner => Or.inl ⟨isOwner, Option.some.inj isOwner ▸ same⟩
      · rintro (⟨isOwner, _⟩ | ⟨alone, _⟩)
        · exact isOwner
        · exact absurd (alone other rfl) same

end Climbing

/-! ## Growth -/

section Growing

variable {before after : Atlas} {members standing : ModuleId → GroupId → Prop}
  {edges : ModuleId → ModuleId → Prop} {leader : ModuleId} {group : GroupId}

/-- A leader stays the leader unless a new default module comes in between. -/
theorem Leads.grow (adds : Adds before after members standing edges)
    (leads : before.Leads leader group) :
    after.Leads leader group ∨
      ∃ owner place, standing owner place ∧ before.LeadsAbove leader place ∧
        after.Leads owner group := by
  induction leads with
  | here stands => exact Or.inl (.here (adds.stands.2 (Or.inl stands)))
  | @above parent group vacant isParent leads ih =>
    by_cases appointed : ∃ owner, standing owner group
    · obtain ⟨owner, new⟩ := appointed
      have stands : after.StandsFor owner group := adds.stands.2 (Or.inr new)
      exact Or.inr ⟨owner, group, new, ⟨parent, isParent, leads⟩, .here stands⟩
    · have isParentAfter := (adds.parent isParent.knows).2 isParent
      have vacantAfter (module : ModuleId) : ¬ after.StandsFor module group := by
        rw [adds.stands]
        exact not_or.2 ⟨vacant module, fun new => appointed ⟨module, new⟩⟩
      rcases ih with same | ⟨owner, place, new, above, leadsAfter⟩
      · exact Or.inl (.above vacantAfter isParentAfter same)
      · exact Or.inr ⟨owner, place, new, above, .above vacantAfter isParentAfter leadsAfter⟩

theorem LeadsAbove.grow (adds : Adds before after members standing edges)
    (above : before.LeadsAbove leader group) :
    after.LeadsAbove leader group ∨
      ∃ owner place, standing owner place ∧ before.LeadsAbove leader place ∧
        after.LeadsAbove owner group := by
  obtain ⟨parent, isParent, leads⟩ := above
  have isParentAfter := (adds.parent isParent.knows).2 isParent
  rcases leads.grow adds with same | ⟨owner, place, new, earlier, leadsAfter⟩
  · exact Or.inl ⟨parent, isParentAfter, same⟩
  · exact Or.inr ⟨owner, place, new, earlier, parent, isParentAfter, leadsAfter⟩

end Growing

end Atlas

end ModuleAtlas
