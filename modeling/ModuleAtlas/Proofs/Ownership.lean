import ModuleAtlas.Proofs.Acyclic
import ModuleAtlas.Proofs.Arrangement
import ModuleAtlas.Proofs.Refusals

/-!
# Nesting follows the groups

A default module owns all other members of its group, whether they came before it or after it.
What a member was nested under before there was a default module stays its owner: so it has at most
one owner besides its own default module, and that one stands for a group further up.  As only
default modules own anything, and a group has but one, nesting has no cycles and no edge of it is
ever refused, whether cycles are looked for or not.
-/

namespace ModuleAtlas

namespace Atlas

/-! ## The invariant -/

/-- What holds of groups and nesting between any two commands. -/
structure Arranged (atlas : Atlas) : Prop where
  listed : ∀ {module group}, atlas.Home module group → atlas.Lists group module
  adopted : ∀ {owner member group}, atlas.StandsFor owner group → atlas.Home member group →
    owner ≠ member → atlas.nesting.hasDirectEdge owner member
  single : ∀ {member first second group}, atlas.Home member group →
    atlas.nesting.hasDirectEdge first member → atlas.nesting.hasDirectEdge second member →
    ¬ atlas.StandsFor first group → ¬ atlas.StandsFor second group → first = second

theorem arranged_empty (settings : Settings) : (empty settings).Arranged where
  listed := by
    rintro module group ⟨entity, found, _⟩
    simp [module?, empty] at found
  adopted := by
    rintro owner member group ⟨entity, found, _⟩
    simp [group?, empty] at found
  single := fun _ edge => nomatch edge

namespace Arranged

variable {before after : Atlas}

theorem steady (arranged : before.Arranged) (steady : Steady before after) : after.Arranged where
  listed := by
    intro module group home
    rw [steady.home, or_false] at home
    rw [steady.lists, or_false]
    exact arranged.listed home
  adopted := by
    intro owner member group stands home different
    rw [steady.stands, or_false] at stands
    rw [steady.home, or_false] at home
    rw [steady.edges, or_false]
    exact arranged.adopted stands home different
  single := by
    intro member first second group home firstEdge secondEdge
    rw [steady.home, or_false] at home
    rw [steady.edges, or_false] at firstEdge secondEdge
    rw [steady.stands, or_false, steady.stands, or_false]
    exact arranged.single home firstEdge secondEdge

/--
If edges to earlier members of a group come, unless they are old, from the module that stands for
the group, then these members still have one other owner at most.
-/
theorem single_of_adds (arranged : before.Arranged)
    {members standing : ModuleId → GroupId → Prop} {edges : ModuleId → ModuleId → Prop}
    (adds : Adds before after members standing edges) {member first second : ModuleId}
    {group : GroupId} (home : before.Home member group)
    (adopting : ∀ {owner}, edges owner member → after.StandsFor owner group)
    (firstEdge : after.nesting.hasDirectEdge first member)
    (secondEdge : after.nesting.hasDirectEdge second member)
    (firstOther : ¬ after.StandsFor first group) (secondOther : ¬ after.StandsFor second group) :
    first = second := by
  have old {owner : ModuleId} (edge : after.nesting.hasDirectEdge owner member)
      (other : ¬ after.StandsFor owner group) : before.nesting.hasDirectEdge owner member :=
    (adds.edges.1 edge).resolve_right fun new => other (adopting new)
  have notBefore {owner : ModuleId} (other : ¬ after.StandsFor owner group) :
      ¬ before.StandsFor owner group := fun stands => other (adds.stands.2 (Or.inl stands))
  exact arranged.single home (old firstEdge firstOther) (old secondEdge secondOther)
    (notBefore firstOther) (notBefore secondOther)

theorem appoints (arranged : before.Arranged) (wellFormed : before.WellFormed) {group : GroupId}
    {owner : ModuleId} (appoints : Appoints before group owner after) : after.Arranged where
  listed := by
    intro module place home
    rw [appoints.adds.home, or_false] at home
    rw [appoints.adds.lists, or_false]
    exact arranged.listed home
  adopted := by
    intro upper member place stands home different
    rw [appoints.adds.home, or_false] at home
    rw [appoints.adds.edges]
    rcases appoints.adds.stands.1 stands with earlier | ⟨rfl, rfl⟩
    · exact Or.inl (arranged.adopted earlier home different)
    · exact Or.inr ⟨rfl, arranged.listed home, different.symm⟩
  single := by
    intro member first second place home
    rw [appoints.adds.home, or_false] at home
    refine arranged.single_of_adds appoints.adds home ?_
    rintro upper ⟨rfl, lists, _⟩
    obtain rfl : place = group := home.unique (wellFormed.home_of_lists lists)
    exact appoints.adds.stands.2 (Or.inr ⟨rfl, rfl⟩)

theorem joins (arranged : before.Arranged) (wellFormed : before.WellFormed) {group : GroupId}
    {named : Prop} {member : ModuleId} (joins : Joins before group named member after) :
    after.Arranged where
  listed := by
    intro module place home
    rw [joins.adds.home] at home
    rw [joins.adds.lists]
    exact home.imp_left arranged.listed
  adopted := by
    intro owner lower place stands home different
    rw [joins.adds.edges]
    rcases joins.adds.home.1 home with earlier | ⟨rfl, rfl⟩
    · rcases joins.adds.stands.1 stands with old | ⟨isNamed, rfl, rfl⟩
      · exact Or.inl (arranged.adopted old earlier different)
      · exact Or.inr (Or.inl ⟨isNamed, rfl, arranged.listed earlier⟩)
    · exact Or.inr (Or.inr ⟨rfl, ownerIn_of_standsFor stands different⟩)
  single := by
    intro lower first second place home firstEdge secondEdge firstOther secondOther
    rcases joins.adds.home.1 home with earlier | ⟨rfl, rfl⟩
    · refine arranged.single_of_adds joins.adds earlier ?_ firstEdge secondEdge firstOther
        secondOther
      rintro upper (⟨isNamed, rfl, lists⟩ | ⟨rfl, _⟩)
      · obtain rfl : place = group := earlier.unique (wellFormed.home_of_lists lists)
        exact joins.adds.stands.2 (Or.inr ⟨isNamed, rfl, rfl⟩)
      · exact absurd earlier (joins.fresh place)
    · -- the new member had no owner before, and there is one nearest default module
      have nearest {owner : ModuleId} (edge : after.nesting.hasDirectEdge owner lower) :
          after.ownerIn place lower = some owner := by
        rcases joins.adds.edges.1 edge with old | ⟨_, _, lists⟩ | ⟨_, found⟩
        · obtain ⟨_, _, _, _, homeBefore, _⟩ := wellFormed.owners old
          exact absurd homeBefore (joins.fresh _)
        · exact absurd (wellFormed.home_of_lists lists) (joins.fresh _)
        · exact found
      exact Option.some.inj ((nearest firstEdge).symm.trans (nearest secondEdge))

theorem plan {atlas next : Atlas} (arranged : atlas.Arranged) (wellFormed : atlas.WellFormed)
    {command : Command} (single : command.IsSingle) {answer : Answer}
    (planned : atlas.plan command = .ok (answer, next)) : next.Arranged := by
  rcases arrangement_of_plan wellFormed single planned with
    steady | ⟨_, _, _, appoints⟩ | ⟨_, _, _, joins⟩
  · exact arranged.steady steady
  · exact arranged.appoints wellFormed appoints
  · exact arranged.joins wellFormed joins

theorem progress {atlas : Atlas} {trace : List Command} (progress : Progress atlas trace after)
    (arranged : atlas.Arranged) (wellFormed : atlas.WellFormed) : after.Arranged := by
  induction progress with
  | nil => exact arranged
  | cons single planned _ ih =>
    exact ih (arranged.plan wellFormed single planned) (wellFormed_plan wellFormed planned)

end Arranged

theorem arranged_reached (settings : Settings) (commands : List Command) :
    ((empty settings).run commands).Arranged :=
  .progress (progress_history (wellFormed_empty settings) commands) (arranged_empty settings)
    (wellFormed_empty settings)

/-! ## No cycles -/

theorem WellFormed.acyclic_nesting {atlas : Atlas} (wellFormed : atlas.WellFormed) :
    atlas.nesting.Acyclic :=
  fun _ cycle => (wellFormed.mayOwn_of_path cycle).1 rfl

end Atlas

/-- Checks that may fail, but not because an edge would close a cycle. -/
def SparesCycles {α : Type} (checks : Except Fault α) : Prop :=
  ∀ order greater smaller, checks ≠ .error (.cycle order greater smaller)

namespace SparesCycles

variable {α β : Type} {checks : Except Fault α}

theorem ok (value : α) : SparesCycles (.ok value) := fun _ _ _ same => nomatch same

theorem of_refusals (spares : SparesRefusals checks) : SparesCycles checks :=
  fun order greater smaller => spares (.cycle order greater smaller) trivial

theorem map (spares : SparesCycles checks) (f : α → β) : SparesCycles (checks.map f) := by
  cases checks with
  | ok value => exact .ok (f value)
  | error fault =>
    rintro order greater smaller ⟨⟩
    exact spares order greater smaller rfl

end SparesCycles

namespace Atlas

section Plans

variable (atlas : Atlas)

theorem sparesCycles_planLoose (name : String) (location : Location) (fictive : Bool) :
    SparesCycles (atlas.planLoose name location fictive) :=
  .of_refusals (atlas.sparesRefusals_planLoose name location fictive)

theorem sparesCycles_planMember (group : GroupId) (name : String) (location : Location) :
    SparesCycles (atlas.planMember group name location) :=
  .of_refusals (atlas.sparesRefusals_planMember group name location)

theorem sparesCycles_planDefault (group : GroupId) (module : ModuleId) :
    SparesCycles (atlas.planDefault group module) :=
  .of_refusals (atlas.sparesRefusals_planDefault group module)

end Plans

/-- A command whose plan is never refused for a cycle does not fail for one either. -/
theorem sparesCycles_perform {atlas : Atlas} (wellFormed : atlas.WellFormed) {command : Command}
    (single : command.IsSingle) (spares : SparesCycles (atlas.plan command)) :
    SparesCycles (atlas.perform command).answer := by
  cases planned : atlas.plan command with
  | ok result =>
    rw [(perform_of_plan_ok wellFormed single planned).1]
    exact .ok _
  | error fault =>
    rw [(perform_of_plan_error wellFormed single planned).1]
    rintro order greater smaller ⟨⟩
    exact spares order greater smaller planned

/-! ## The shape of nesting -/

/--
Nesting in every atlas that commands lead to, whether cycles are looked for or not.  Owners stand
for the group of what they own or for a group above it, and a module outside all groups neither owns
nor is owned.  A default module owns all other members of its group.  A member has at most one other
owner, which stands for a group strictly above its own.  There is no cycle, and neither creating a
module nor letting one stand for a group is ever refused for one.
-/
theorem nesting_follows_groups (settings : Settings) (commands : List Command) :
    let atlas := (empty settings).run commands
    (∀ owner member, atlas.nesting.hasDirectEdge owner member → owner ≠ member ∧
      ∃ upper lower, atlas.StandsFor owner upper ∧ atlas.Home member lower ∧
        atlas.AtOrAbove upper lower) ∧
    (∀ module other, (∀ group, ¬ atlas.Home module group) →
      ¬ atlas.nesting.hasDirectEdge module other ∧ ¬ atlas.nesting.hasDirectEdge other module) ∧
    (∀ owner member group, atlas.StandsFor owner group → atlas.Home member group →
      owner ≠ member → atlas.nesting.hasDirectEdge owner member) ∧
    (∀ owner member group, atlas.Home member group → atlas.nesting.hasDirectEdge owner member →
      ¬ atlas.StandsFor owner group →
      (∃ upper, atlas.StandsFor owner upper ∧ Relation.TransGen atlas.IsParent upper group) ∧
        ∀ other, atlas.nesting.hasDirectEdge other member → ¬ atlas.StandsFor other group →
          other = owner) ∧
    atlas.nesting.Acyclic ∧
    (∀ group name location order greater smaller,
      (atlas.perform (.createModule group name location)).answer ≠
        .error (.cycle order greater smaller)) ∧
    ∀ group module order greater smaller,
      (atlas.perform (.setDefault group module)).answer ≠
        .error (.cycle order greater smaller) := by
  intro atlas
  have wellFormed : atlas.WellFormed := wellFormed_reached settings commands
  have arranged : atlas.Arranged := arranged_reached settings commands
  refine ⟨?_, ?_, ?_, ?_, wellFormed.acyclic_nesting, ?_, ?_⟩
  · exact fun owner member edge => wellFormed.owners edge
  · intro module other groupless
    constructor
    · intro edge
      obtain ⟨_, upper, _, stands, _⟩ := wellFormed.owners edge
      exact groupless upper (wellFormed.home_of_standsFor stands)
    · intro edge
      obtain ⟨_, _, lower, _, home, _⟩ := wellFormed.owners edge
      exact groupless lower home
  · exact fun owner member group stands home different => arranged.adopted stands home different
  · intro owner member group home edge notDefault
    refine ⟨?_, fun other otherEdge otherNot =>
      arranged.single home otherEdge edge otherNot notDefault⟩
    obtain ⟨_, upper, lower, stands, homeLower, above⟩ := wellFormed.owners edge
    obtain rfl : lower = group := homeLower.unique home
    rcases Relation.reflTransGen_iff_eq_or_transGen.1 above with rfl | strictly
    · exact absurd stands notDefault
    · exact ⟨upper, stands, strictly⟩
  · intro group name location
    refine sparesCycles_perform wellFormed trivial ?_
    cases group with
    | none => exact (sparesCycles_planLoose atlas name location false).map _
    | some group => exact (sparesCycles_planMember atlas group name location).map _
  · intro group module
    have spares := sparesCycles_planDefault atlas group module
    exact sparesCycles_perform wellFormed trivial (spares.map _)

/-- A module that came before the default module of its group keeps the owner that it had. -/
theorem nesting_follows_groups_late :
    let commands : List Command := [.createProject "p", .createGroup ⟨0⟩ none "outer",
      .createGroup ⟨0⟩ (some ⟨0⟩) "inner", .createModule (some ⟨0⟩) "a" .synthetic,
      .createModule (some ⟨1⟩) "b" .synthetic, .setDefault ⟨0⟩ ⟨0⟩,
      .createModule (some ⟨1⟩) "c" .synthetic, .setDefault ⟨1⟩ ⟨1⟩]
    let atlas := (empty { checkAcyclic := false }).run commands
    atlas.nesting.hasDirectEdge ⟨1⟩ ⟨2⟩ ∧ atlas.nesting.hasDirectEdge ⟨0⟩ ⟨2⟩ ∧
      (∃ upper, atlas.StandsFor ⟨0⟩ upper ∧ Relation.TransGen atlas.IsParent upper ⟨1⟩) ∧
      ∀ other, atlas.nesting.hasDirectEdge other ⟨2⟩ → ¬ atlas.StandsFor other ⟨1⟩ →
        other = ⟨0⟩ := by
  intro commands atlas
  obtain ⟨_, _, adopted, others, _⟩ := nesting_follows_groups { checkAcyclic := false } commands
  have home : atlas.Home ⟨2⟩ ⟨1⟩ := ⟨_, rfl, rfl⟩
  have stands : atlas.StandsFor ⟨1⟩ ⟨1⟩ := ⟨_, rfl, rfl⟩
  have notDefault : ¬ atlas.StandsFor ⟨0⟩ ⟨1⟩ :=
    fun other => absurd (other.unique stands) (by decide)
  have edge : atlas.nesting.hasDirectEdge ⟨0⟩ ⟨2⟩ := by decide
  obtain ⟨above, alone⟩ := others ⟨0⟩ ⟨2⟩ ⟨1⟩ home edge notDefault
  exact ⟨adopted ⟨1⟩ ⟨2⟩ ⟨1⟩ stands home (by decide), edge, above, alone⟩

end Atlas

end ModuleAtlas
