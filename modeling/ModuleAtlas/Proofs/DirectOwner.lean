import Mathlib.Data.List.Induction
import ModuleAtlas.Atlas.Query
import ModuleAtlas.Proofs.Leader
import ModuleAtlas.Proofs.Ownership
import ModuleAtlas.Proofs.Sorting

/-!
# Direct owners

Which of several owners a module is said to be directly nested in is decided by how deeply they are
nested, not by groups.  So a default module is passed over if the other owner of a member is nested
more deeply, or as deeply but was created before.  This cannot happen as long as whatever is let
stand for a group was nested below the nearest default module above the group by then.
-/

namespace ModuleAtlas

/-! ## The best of an ascending list -/

/-- The best item of an ascending list has the greatest value and comes before its equals. -/
theorem best_of_maxOn? {α : Type} [LT α] {f : α → Nat} {items : List α}
    (ascending : items.Pairwise (· < ·)) {x y : α} (best : items.maxOn? f = some x)
    (member : y ∈ items) (different : y ≠ x) : f y < f x ∨ f y = f x ∧ x < y := by
  induction items generalizing x with
  | nil => cases member
  | cons first rest ih =>
    obtain ⟨older, ascendingRest⟩ := List.pairwise_cons.1 ascending
    rw [List.maxOn?_cons, Option.some.injEq] at best
    cases bestOfRest : rest.maxOn? f with
    | none =>
      have alone : rest = [] := by
        by_contra others
        have found := List.isSome_maxOn?_iff (f := f).2 others
        rw [bestOfRest] at found
        cases found
      rw [bestOfRest, Option.elim_none] at best
      rw [alone, best] at member
      exact absurd (List.mem_singleton.1 member) different
    | some z =>
      rw [bestOfRest, Option.elim_some, maxOn_eq_if] at best
      split at best
      next enough =>
        subst best
        have later : y ∈ rest := List.mem_of_ne_of_mem different member
        have atMost : f y ≤ f z := by
          by_cases same : y = z
          · rw [same]
          · rcases ih ascendingRest bestOfRest later same with less | ⟨equal, _⟩
            · exact Nat.le_of_lt less
            · exact Nat.le_of_eq equal
        rcases Nat.lt_or_eq_of_le (Nat.le_trans atMost enough) with less | equal
        · exact Or.inl less
        · exact Or.inr ⟨equal, older y later⟩
      next worse =>
        subst best
        rcases List.mem_cons.1 member with rfl | later
        · exact Or.inl (Nat.lt_of_not_le worse)
        · exact ih ascendingRest bestOfRest later different

namespace Atlas

/-- A module is nested more deeply than another one, or as deeply and was created first. -/
def Outranks (atlas : Atlas) (first second : ModuleId) : Prop :=
  atlas.nestingDepth second < atlas.nestingDepth first ∨
    atlas.nestingDepth second = atlas.nestingDepth first ∧ first < second

theorem Outranks.asymm {atlas : Atlas} {first second : ModuleId}
    (outranks : atlas.Outranks first second) : ¬ atlas.Outranks second first := by
  intro back
  rcases outranks with deeper | ⟨same, older⟩
  · rcases back with shallower | ⟨same, _⟩
    · exact Nat.lt_asymm deeper shallower
    · exact Nat.ne_of_gt deeper same
  · rcases back with shallower | ⟨_, younger⟩
    · exact Nat.ne_of_lt shallower same.symm
    · exact Std.lt_irrefl (Std.lt_trans older younger)

theorem Outranks.total {atlas : Atlas} {first second : ModuleId} (different : first ≠ second)
    (outranked : ¬ atlas.Outranks first second) : atlas.Outranks second first := by
  obtain ⟨notDeeper, notOlder⟩ := not_or.1 outranked
  rcases Nat.lt_or_eq_of_le (Nat.le_of_not_lt notDeeper) with shallower | same
  · exact Or.inl shallower
  · have younger : ¬ first.index < second.index := fun older => notOlder ⟨same.symm, older⟩
    have apart : first.index ≠ second.index := fun equal => different (Handle.ext equal)
    exact Or.inr ⟨same, Nat.lt_of_le_of_ne (Nat.le_of_not_lt younger) apart.symm⟩

/-- A registered module is directly nested in the best of its direct owners. -/
theorem directOwner_of_entry {atlas : Atlas} {member : ModuleId} {entry : Hierarchy.Entry ModuleId}
    (found : (atlas.hierarchy .nesting).get? member = some entry) :
    atlas.directOwner member = .ok (entry.directAbove.toList.maxOn? atlas.nestingDepth) := by
  rw [directOwner, entry_eq_ok_iff.2 found]
  rfl

/-- A module is directly nested in that one of its direct owners that outranks all others. -/
theorem directOwner_eq_some_iff {atlas : Atlas} (wellFormed : atlas.WellFormed)
    {owner member : ModuleId} (known : (atlas.hierarchy .nesting).contains member) :
    atlas.directOwner member = .ok (some owner) ↔
      atlas.nesting.hasDirectEdge owner member ∧
        ∀ other, atlas.nesting.hasDirectEdge other member → other ≠ owner →
          atlas.Outranks owner other := by
  obtain ⟨entry, found⟩ := Hierarchy.contains_iff.1 known
  have edges (other : ModuleId) :
      other ∈ entry.directAbove.toList ↔ atlas.nesting.hasDirectEdge other member :=
    (wellFormed.closed .nesting).directAbove found
  rw [directOwner_of_entry found, Except.ok.injEq]
  simp only [← edges]
  constructor
  · intro best
    exact ⟨List.maxOn?_mem best, fun other member different =>
      best_of_maxOn? entry.directAbove.ascending best member different⟩
  · rintro ⟨listed, first⟩
    obtain ⟨best, isBest⟩ := Option.isSome_iff_exists.1
      (List.isSome_maxOn?_of_mem (f := atlas.nestingDepth) listed)
    by_cases same : best = owner
    · rw [isBest, same]
    · have outranked := first best (List.maxOn?_mem isBest) same
      have outranks := best_of_maxOn? entry.directAbove.ascending isBest listed fun isOwner =>
        same isOwner.symm
      exact absurd outranks outranked.asymm

/-- What is nested in a module is nested more deeply than it. -/
theorem nestingDepth_lt {atlas : Atlas} (wellFormed : atlas.WellFormed) {owner member : ModuleId}
    (path : atlas.nesting.Path owner member) :
    atlas.nestingDepth owner < atlas.nestingDepth member := by
  have closed : atlas.nesting.Closed := wellFormed.closed .nesting
  obtain ⟨upper, foundUpper⟩ := Hierarchy.contains_iff.1 path.contains_source
  obtain ⟨lower, foundLower⟩ := Hierarchy.contains_iff.1 (closed.contains_target path)
  have smaller : upper.above.size < lower.above.size := by
    refine NodeSet.size_lt_size (x := owner) ?_ ?_ fun z above => ?_
    · exact fun member => wellFormed.acyclic_nesting owner ((closed.above foundUpper).1 member)
    · exact (closed.above foundLower).2 path
    · exact (closed.above foundLower).2 (((closed.above foundUpper).1 above).trans path)
  simpa only [nestingDepth, foundUpper, foundLower] using smaller

/-! ## Default modules and other owners -/

/-- A default module is the direct owner of a member if it outranks whatever else owns it. -/
theorem Arranged.directOwner_eq_default_iff {atlas : Atlas} (arranged : atlas.Arranged)
    (wellFormed : atlas.WellFormed) {group : GroupId} {standing member : ModuleId}
    (stands : atlas.StandsFor standing group) (home : atlas.Home member group)
    (different : member ≠ standing) :
    atlas.directOwner member = .ok (some standing) ↔
      ∀ owner, atlas.nesting.hasDirectEdge owner member → owner ≠ standing →
        atlas.Outranks standing owner := by
  rw [directOwner_eq_some_iff wellFormed (wellFormed.contains_of_home home)]
  exact and_iff_right (arranged.adopted stands home different.symm)

/-- A default module and the one other owner of a member, if there is one, compete by rank. -/
theorem directOwner_of_member (settings : Settings) (commands : List Command) {group : GroupId}
    {home : Group} {standing member : ModuleId} :
    let atlas := (empty settings).run commands
    atlas.group? group = some home → home.defaultModule = some standing →
      member ∈ home.members → member ≠ standing →
      (atlas.directOwner member = .ok (some standing) ↔
        ∀ owner, atlas.nesting.hasDirectEdge owner member → owner ≠ standing →
          atlas.Outranks standing owner) ∧
      ∀ owner, atlas.nesting.hasDirectEdge owner member → owner ≠ standing →
        ¬ atlas.Outranks standing owner → atlas.directOwner member = .ok (some owner) := by
  intro atlas found isDefault listed different
  have wellFormed : atlas.WellFormed := wellFormed_reached settings commands
  have arranged : atlas.Arranged := arranged_reached settings commands
  have stands : atlas.StandsFor standing group := (standsFor_iff found).2 isDefault
  have homeMember : atlas.Home member group := wellFormed.members found listed
  have notDefault {owner : ModuleId} (other : owner ≠ standing) : ¬ atlas.StandsFor owner group :=
    fun standsToo => other (standsToo.unique stands)
  refine ⟨arranged.directOwner_eq_default_iff wellFormed stands homeMember different, ?_⟩
  intro owner edge other outranked
  have known : (atlas.hierarchy .nesting).contains member := wellFormed.contains_of_home homeMember
  refine (directOwner_eq_some_iff wellFormed known).2 ⟨edge, fun third thirdEdge isThird => ?_⟩
  by_cases same : third = standing
  · rw [same]
    exact Outranks.total other.symm outranked
  · exact absurd (arranged.single homeMember thirdEdge edge (notDefault same) (notDefault other))
      isThird

/-- The default module is passed over for one that is nested more deeply, though further up. -/
theorem directOwner_of_member_deeper :
    let commands : List Command := [.createProject "p", .createGroup ⟨0⟩ none "top",
      .createGroup ⟨0⟩ (some ⟨0⟩) "outer", .createGroup ⟨0⟩ (some ⟨1⟩) "inner",
      .createModule (some ⟨2⟩) "b" .synthetic, .createModule (some ⟨0⟩) "top" .synthetic,
      .createModule (some ⟨1⟩) "a" .synthetic, .setDefault ⟨1⟩ ⟨2⟩,
      .createModule (some ⟨2⟩) "c" .synthetic, .setDefault ⟨2⟩ ⟨0⟩]
    let atlas := (empty {}).run commands
    atlas.StandsFor ⟨0⟩ ⟨2⟩ ∧ atlas.Lists ⟨2⟩ ⟨3⟩ ∧ atlas.directOwner ⟨3⟩ = .ok (some ⟨2⟩) := by
  intro commands atlas
  have outranked : ¬ atlas.Outranks ⟨0⟩ ⟨2⟩ := by
    unfold Outranks
    decide
  have stands : atlas.StandsFor ⟨0⟩ ⟨2⟩ := ⟨_, rfl, rfl⟩
  have lists : atlas.Lists ⟨2⟩ ⟨3⟩ := ⟨_, rfl, by decide⟩
  have ⟨home, found, isDefault⟩ := stands
  have listed := (lists_iff found).1 lists
  have competes := directOwner_of_member {} commands found isDefault listed (by decide)
  exact ⟨stands, lists, competes.2 ⟨2⟩ (by decide) (by decide) outranked⟩

/-- The default module is passed over for one that is nested as deeply and was created before. -/
theorem default_not_direct_owner :
    let commands : List Command := [.createProject "p", .createGroup ⟨0⟩ none "outer",
      .createGroup ⟨0⟩ (some ⟨0⟩) "inner", .createModule (some ⟨0⟩) "a" .synthetic,
      .createModule (some ⟨1⟩) "b" .synthetic, .setDefault ⟨0⟩ ⟨0⟩,
      .createModule (some ⟨1⟩) "c" .synthetic, .setDefault ⟨1⟩ ⟨1⟩]
    let atlas := (empty {}).run commands
    atlas.StandsFor ⟨1⟩ ⟨1⟩ ∧ atlas.Lists ⟨1⟩ ⟨2⟩ ∧ atlas.directOwner ⟨2⟩ = .ok (some ⟨0⟩) :=
  ⟨⟨_, rfl, rfl⟩, ⟨_, rfl, by decide⟩, by decide⟩

/-! ## Owners in layers -/

/--
The owners of a member lie one below the other: besides the default module of its group it has
owners at or above the leader of the parent group only, and these are above the default module.
-/
structure Layered (atlas : Atlas) : Prop where
  reaches : ∀ {owner member group}, atlas.Home member group →
    atlas.nesting.hasDirectEdge owner member → ¬ atlas.StandsFor owner group →
    ∃ leader, atlas.LeadsAbove leader group ∧ atlas.nesting.Reaches owner leader
  path : ∀ {owner standing member group}, atlas.Home member group →
    atlas.StandsFor standing group → member ≠ standing →
    atlas.nesting.hasDirectEdge owner member → owner ≠ standing →
    atlas.nesting.Path owner standing

theorem layered_empty (settings : Settings) : (empty settings).Layered where
  reaches := fun _ edge => nomatch edge
  path := fun _ _ _ edge => nomatch edge

/-- In layers a default module is never passed over. -/
theorem Layered.directOwner_eq_default {atlas : Atlas} (layered : atlas.Layered)
    (arranged : atlas.Arranged) (wellFormed : atlas.WellFormed) {group : GroupId}
    {standing member : ModuleId} (stands : atlas.StandsFor standing group)
    (home : atlas.Home member group) (different : member ≠ standing) :
    atlas.directOwner member = .ok (some standing) := by
  refine (arranged.directOwner_eq_default_iff wellFormed stands home different).2 ?_
  intro owner edge other
  exact Or.inl (nestingDepth_lt wellFormed (layered.path home stands different edge other))

section Adding

variable {before after : Atlas} {members standing : ModuleId → GroupId → Prop}
  {edges : ModuleId → ModuleId → Prop}

theorem Adds.path (adds : Adds before after members standing edges) {owner member : ModuleId}
    (path : before.nesting.Path owner member) : after.nesting.Path owner member :=
  Relation.TransGen.mono (fun _ _ edge => adds.edges.2 (Or.inl edge)) _ _ path

theorem Adds.reaches (adds : Adds before after members standing edges) {owner member : ModuleId}
    (reaches : before.nesting.Reaches owner member) : after.nesting.Reaches owner member :=
  Relation.ReflTransGen.mono (fun _ _ edge => adds.edges.2 (Or.inl edge)) _ _ reaches

/-- An edge from before leads to a module that already was in its group. -/
theorem Adds.home_of_edge (adds : Adds before after members standing edges)
    (wellFormed : before.WellFormed) {owner member : ModuleId} {group : GroupId}
    (edge : before.nesting.hasDirectEdge owner member) (home : after.Home member group) :
    before.Home member group := by
  obtain ⟨_, _, lower, _, homeBefore, _⟩ := wellFormed.owners edge
  obtain rfl : lower = group := (adds.home.2 (Or.inl homeBefore)).unique home
  exact homeBefore

/--
The layers are kept if new edges come from where the search for an owner finds it, and new default
modules are nested below the leaders above them.
-/
theorem Layered.adds (layered : before.Layered) (wellFormed : before.WellFormed)
    (adds : Adds before after members standing edges)
    (vacant : ∀ {owner place}, standing owner place → ∀ module, ¬ before.StandsFor module place)
    (connected : ∀ {owner place leader}, standing owner place → before.LeadsAbove leader place →
      after.nesting.Path leader owner)
    (nearest : ∀ {owner member place}, edges owner member → after.Home member place →
      after.StandsFor owner place ∨
        (∀ other, after.StandsFor other place → other = member) ∧ after.LeadsAbove owner place) :
    after.Layered where
  reaches := by
    intro owner member group home edge notDefault
    rcases adds.edges.1 edge with old | new
    · have homeBefore := adds.home_of_edge wellFormed old home
      have notBefore : ¬ before.StandsFor owner group :=
        fun stands => notDefault (adds.stands.2 (Or.inl stands))
      obtain ⟨leader, above, reaches⟩ := layered.reaches homeBefore old notBefore
      rcases above.grow adds with same | ⟨next, place, new, earlier, aboveAfter⟩
      · exact ⟨leader, same, adds.reaches reaches⟩
      · have further := (connected new earlier).to_reflTransGen
        exact ⟨next, aboveAfter, (adds.reaches reaches).trans further⟩
    · rcases nearest new home with stands | ⟨_, above⟩
      · exact absurd stands notDefault
      · exact ⟨owner, above, .refl⟩
  path := by
    intro owner stander member group home stands different edge other
    rcases adds.edges.1 edge with old | new
    · have homeBefore := adds.home_of_edge wellFormed old home
      rcases adds.stands.1 stands with earlier | appointed
      · exact adds.path (layered.path homeBefore earlier different old other)
      · obtain ⟨leader, above, reaches⟩ :=
          layered.reaches homeBefore old (vacant appointed owner)
        exact Relation.TransGen.trans_right (adds.reaches reaches) (connected appointed above)
    · rcases nearest new home with standsToo | ⟨alone, _⟩
      · exact absurd (standsToo.unique stands) other
      · exact absurd (alone stander stands).symm different

end Adding

section Commands

variable {before after : Atlas} {group : GroupId}

theorem Layered.steady (layered : before.Layered) (wellFormed : before.WellFormed)
    (steady : Steady before after) : after.Layered :=
  layered.adds wellFormed steady False.elim False.elim False.elim

theorem Layered.appoints (layered : before.Layered) (wellFormed : before.WellFormed)
    {owner : ModuleId} (appoints : Appoints before group owner after)
    (connected : ∀ leader, before.LeadsAbove leader group → before.nesting.Path leader owner) :
    after.Layered := by
  refine layered.adds wellFormed appoints.adds ?_ ?_ ?_
  · rintro module place ⟨rfl, rfl⟩
    exact appoints.vacant
  · rintro module place leader ⟨rfl, rfl⟩ above
    exact appoints.adds.path (connected leader above)
  · rintro upper lower place ⟨rfl, lists, _⟩ home
    have homeBefore := wellFormed.home_of_lists lists
    obtain rfl : group = place := (appoints.adds.home.2 (Or.inl homeBefore)).unique home
    exact Or.inl (appoints.adds.stands.2 (Or.inr ⟨rfl, rfl⟩))

theorem Layered.joins (layered : before.Layered) (wellFormed : before.WellFormed)
    (wellFormedAfter : after.WellFormed) {named : Prop} {member : ModuleId}
    (joins : Joins before group named member after) : after.Layered := by
  have home : after.Home member group := joins.adds.home.2 (Or.inr ⟨rfl, rfl⟩)
  have known : after.Knows group := by
    obtain ⟨entity, found, _⟩ := joins.adds.lists.2 (Or.inr ⟨rfl, rfl⟩)
    exact ⟨entity, found⟩
  have search {owner : ModuleId} : after.ownerIn group member = some owner ↔ _ :=
    ownerIn_eq_some_iff wellFormedAfter home known
  refine layered.adds wellFormed joins.adds ?_ ?_ ?_
  · rintro owner place ⟨isNamed, rfl, rfl⟩
    exact joins.vacant isNamed
  · -- a member named like the group stands for it, so it was nested under the leader above
    rintro owner place leader ⟨isNamed, rfl, rfl⟩ above
    have stands : after.StandsFor owner place := joins.adds.stands.2 (Or.inr ⟨isNamed, rfl, rfl⟩)
    have aboveAfter : after.LeadsAbove leader place := by
      rcases above.grow joins.adds with same | ⟨_, _, ⟨_, rfl, rfl⟩, _, self⟩
      · exact same
      · exact absurd self (wellFormedAfter.not_leadsAbove home)
    have found := search.2 (Or.inr ⟨fun other standsToo => standsToo.unique stands, aboveAfter⟩)
    exact .single (joins.adds.edges.2 (Or.inr (Or.inr ⟨rfl, found⟩)))
  · rintro upper lower place (⟨isNamed, rfl, lists⟩ | ⟨rfl, found⟩) homeLower
    · have homeBefore := wellFormed.home_of_lists lists
      obtain rfl : group = place := (joins.adds.home.2 (Or.inl homeBefore)).unique homeLower
      exact Or.inl (joins.adds.stands.2 (Or.inr ⟨isNamed, rfl, rfl⟩))
    · obtain rfl : group = place := home.unique homeLower
      exact (search.1 found).imp_left And.left

end Commands

/-! ## Runs that keep the layers -/

/--
Whenever a command of a trace lets a module stand for a vacant group, that module is nested below
the nearest default module above the group by then.
-/
def AppointsNested (settings : Settings) (trace : List Command) : Prop :=
  ∀ earlier group module later, trace = earlier ++ .setDefault group module :: later →
    let atlas := (empty settings).run earlier
    (∀ other, ¬ atlas.StandsFor other group) → ∀ leader, atlas.ownerIn group module = some leader →
      atlas.nesting.gt leader module

theorem AppointsNested.init {settings : Settings} {trace : List Command} {command : Command}
    (nested : AppointsNested settings (trace ++ [command])) : AppointsNested settings trace := by
  intro earlier group module later same
  refine nested earlier group module (later ++ [command]) ?_
  rw [same, List.append_assoc, List.cons_append]

theorem layered_of_progress {settings : Settings} {trace : List Command} {after : Atlas}
    (progress : Progress (empty settings) trace after) (nested : AppointsNested settings trace) :
    after.Layered := by
  have start := wellFormed_empty settings
  induction trace using List.reverseRecOn generalizing after with
  | nil =>
    cases progress
    exact layered_empty settings
  | append_singleton trace command ih =>
    obtain ⟨middle, answer, before, single, planned⟩ := progress.last
    have wellFormed := before.wellFormed start
    have layered := ih before nested.init
    rcases arrangement_of_plan wellFormed single planned with
      steady | ⟨group, owner, rfl, appoints⟩ | ⟨group, named, member, joins⟩
    · exact layered.steady wellFormed steady
    · refine layered.appoints wellFormed appoints fun leader above => ?_
      have home := wellFormed.home_of_lists appoints.member
      obtain ⟨entity, found, _⟩ := appoints.member
      have isOwner : middle.ownerIn group owner = some leader :=
        (ownerIn_eq_some_iff wellFormed home ⟨entity, found⟩).2
          (Or.inr ⟨fun other stands => absurd stands (appoints.vacant other), above⟩)
      have below := nested trace group owner [] rfl
      rw [before.run_eq start] at below
      exact (wellFormed.closed .nesting).gt_iff_path.1 (below appoints.vacant leader isOwner)
    · exact layered.joins wellFormed (wellFormed_plan wellFormed planned) joins

/--
If whatever was let stand for a group in a run was nested below the nearest default module above it
by then, every member of a group is directly nested in the default module of the group.
-/
theorem directOwner_of_appointsNested (settings : Settings) (commands : List Command)
    (nested : AppointsNested settings ((empty settings).history commands)) {group : GroupId}
    {home : Group} {standing member : ModuleId} :
    let atlas := (empty settings).run commands
    atlas.group? group = some home → home.defaultModule = some standing →
      member ∈ home.members → member ≠ standing →
      atlas.directOwner member = .ok (some standing) := by
  intro atlas found isDefault listed different
  have wellFormed : atlas.WellFormed := wellFormed_reached settings commands
  have layered : atlas.Layered :=
    layered_of_progress (progress_history (wellFormed_empty settings) commands) nested
  have stands : atlas.StandsFor standing group := (standsFor_iff found).2 isDefault
  have homeMember : atlas.Home member group := wellFormed.members found listed
  exact layered.directOwner_eq_default (arranged_reached settings commands) wellFormed stands
    homeMember different

/-- A stage that lets a module stand for a group is a command of its own. -/
theorem eq_setDefault_of_mem_stages {command : Command} {group : GroupId} {module : ModuleId}
    (staged : .setDefault group module ∈ command.stages) : command = .setDefault group module := by
  cases command with
  | declareImports importer imports => simp [Command.stages] at staged
  | _ => exact (List.mem_singleton.1 staged).symm

/-- Without such a command nothing is let stand for a group but by its name. -/
theorem appointsNested_of_named {settings : Settings} {commands : List Command}
    (named : ∀ group module, .setDefault group module ∉ commands) :
    AppointsNested settings ((empty settings).history commands) := by
  intro earlier place module later same
  have carriedOut : .setDefault place module ∈ (empty settings).history commands := by
    rw [same]
    exact List.mem_append_right _ List.mem_cons_self
  obtain ⟨origin, listed, staged⟩ := exists_mem_stages_of_mem_history carriedOut
  rw [eq_setDefault_of_mem_stages staged] at listed
  exact absurd listed (named place module)

/-- Modules that stand for a group because of their names are never passed over. -/
theorem directOwner_of_named (settings : Settings) (commands : List Command)
    (named : ∀ group module, .setDefault group module ∉ commands) {group : GroupId} {home : Group}
    {standing member : ModuleId} :
    let atlas := (empty settings).run commands
    atlas.group? group = some home → home.defaultModule = some standing →
      member ∈ home.members → member ≠ standing →
      atlas.directOwner member = .ok (some standing) :=
  directOwner_of_appointsNested settings commands (appointsNested_of_named named)

end Atlas

end ModuleAtlas
