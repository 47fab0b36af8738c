import Mathlib.Data.List.Pairwise
import ModuleAtlas.Proofs.DirectOwner

/-!
# Chains of owners

In general the owners of a module are not in line: a default module that is appointed late need not
be nested below the other owner of its members.  As long as owners lie in layers, however, the
direct owner of a module is below all its other owners.  Then nesting is a forest, and asking for
the direct owner again and again climbs through all owners of a module up to the root of its tree.
-/

namespace ModuleAtlas

namespace Atlas

variable {atlas : Atlas} {m owner x : ModuleId}

/-! ## The direct owner and the others -/

/-- A registered module has no direct owner if and only if nothing owns it. -/
theorem directOwner_eq_none_iff (wellFormed : atlas.WellFormed)
    (known : (atlas.hierarchy .nesting).contains m) :
    atlas.directOwner m = .ok none ↔ ∀ other, ¬ atlas.nesting.hasDirectEdge other m := by
  obtain ⟨entry, found⟩ := Hierarchy.contains_iff.1 known
  have edges (other : ModuleId) :
      other ∈ entry.directAbove.toList ↔ atlas.nesting.hasDirectEdge other m :=
    (wellFormed.closed .nesting).directAbove found
  rw [directOwner_of_entry found, Except.ok.injEq, ← Option.not_isSome_iff_eq_none,
    List.isSome_maxOn?_iff, ne_eq, not_not, List.eq_nil_iff_forall_not_mem]
  exact forall_congr' fun other => not_congr (edges other)

theorem hasDirectEdge_of_directOwner (wellFormed : atlas.WellFormed)
    (known : (atlas.hierarchy .nesting).contains m)
    (isOwner : atlas.directOwner m = .ok (some owner)) : atlas.nesting.hasDirectEdge owner m :=
  ((directOwner_eq_some_iff wellFormed known).1 isOwner).1

/-- In layers all other direct owners of a module own its direct owner. -/
theorem Layered.path_of_directOwner (layered : atlas.Layered) (arranged : atlas.Arranged)
    (wellFormed : atlas.WellFormed) (isOwner : atlas.directOwner m = .ok (some owner))
    (edge : atlas.nesting.hasDirectEdge x m) (other : x ≠ owner) :
    atlas.nesting.Path x owner := by
  obtain ⟨different, _, group, _, home, _⟩ := wellFormed.owners edge
  have known : (atlas.hierarchy .nesting).contains m := wellFormed.contains_of_home home
  have ownerEdge := hasDirectEdge_of_directOwner wellFormed known isOwner
  by_cases led : ∃ standing, atlas.StandsFor standing group ∧ m ≠ standing
  · obtain ⟨standing, stands, notSelf⟩ := led
    have isDefault := layered.directOwner_eq_default arranged wellFormed stands home notSelf
    obtain rfl : standing = owner :=
      Option.some.inj (Except.ok.inj (isDefault.symm.trans isOwner))
    exact layered.path home stands notSelf edge other
  · -- no owner of the module stands for its group, so there is only one
    have notDefault {y : ModuleId} (owns : atlas.nesting.hasDirectEdge y m) :
        ¬ atlas.StandsFor y group :=
      fun stands => led ⟨y, stands, fun same => (wellFormed.owners owns).1 same.symm⟩
    exact absurd
      (arranged.single home edge ownerEdge (notDefault edge) (notDefault ownerEdge)) other

/-- In layers the owners of a module are its direct owner and the owners of that one. -/
theorem Layered.path_iff (layered : atlas.Layered) (arranged : atlas.Arranged)
    (wellFormed : atlas.WellFormed) (known : (atlas.hierarchy .nesting).contains m)
    (isOwner : atlas.directOwner m = .ok (some owner)) :
    atlas.nesting.Path x m ↔ x = owner ∨ atlas.nesting.Path x owner := by
  have ownerEdge := hasDirectEdge_of_directOwner wellFormed known isOwner
  constructor
  · intro path
    obtain ⟨last, reaches, edge⟩ := Relation.TransGen.tail'_iff.1 path
    by_cases same : last = owner
    · rw [same] at reaches
      exact (Hierarchy.reaches_iff.1 reaches).imp_left Eq.symm
    · have above := layered.path_of_directOwner arranged wellFormed isOwner edge same
      exact Or.inr (Relation.TransGen.trans_right reaches above)
  · rintro (rfl | path)
    · exact .single ownerEdge
    · exact path.tail ownerEdge

/-! ## Climbing -/

/-- The direct owner of a module, the direct owner of that one and so on, up to a free one. -/
inductive OwnerChain (atlas : Atlas) : ModuleId → List ModuleId → Prop where
  | top {m : ModuleId} (free : atlas.directOwner m = .ok none) : OwnerChain atlas m []
  | under {m owner : ModuleId} {chain : List ModuleId}
      (isOwner : atlas.directOwner m = .ok (some owner)) (further : OwnerChain atlas owner chain) :
      OwnerChain atlas m (owner :: chain)

/-- Climbing comes to an end, as owners are nested less deeply. -/
theorem exists_ownerChain (wellFormed : atlas.WellFormed)
    (known : (atlas.hierarchy .nesting).contains m) : ∃ chain, atlas.OwnerChain m chain := by
  induction depth : atlas.nestingDepth m using Nat.strongRecOn generalizing m with
  | ind depth ih =>
    subst depth
    obtain ⟨entry, found⟩ := Hierarchy.contains_iff.1 known
    have answer := directOwner_of_entry found
    cases best : entry.directAbove.toList.maxOn? atlas.nestingDepth with
    | none =>
      rw [best] at answer
      exact ⟨[], .top answer⟩
    | some owner =>
      rw [best] at answer
      have edge := hasDirectEdge_of_directOwner wellFormed known answer
      have shallower := nestingDepth_lt wellFormed (.single edge)
      obtain ⟨chain, further⟩ := ih _ shallower (Hierarchy.contains_of_hasDirectEdge edge) rfl
      exact ⟨owner :: chain, .under answer further⟩

namespace OwnerChain

variable {chain : List ModuleId}

/-- In layers climbing meets all owners. -/
theorem mem_iff (climbed : atlas.OwnerChain m chain) (layered : atlas.Layered)
    (arranged : atlas.Arranged) (wellFormed : atlas.WellFormed)
    (known : (atlas.hierarchy .nesting).contains m) : x ∈ chain ↔ atlas.nesting.Path x m := by
  induction climbed with
  | top free =>
    refine iff_of_false List.not_mem_nil fun path => ?_
    obtain ⟨last, _, edge⟩ := Relation.TransGen.tail'_iff.1 path
    exact (directOwner_eq_none_iff wellFormed known).1 free last edge
  | under isOwner _ ih =>
    have edge := hasDirectEdge_of_directOwner wellFormed known isOwner
    rw [List.mem_cons, ih (Hierarchy.contains_of_hasDirectEdge edge),
      layered.path_iff arranged wellFormed known isOwner]

/-- Whoever is met later owns whoever was met before. -/
theorem ascends (climbed : atlas.OwnerChain m chain) (layered : atlas.Layered)
    (arranged : atlas.Arranged) (wellFormed : atlas.WellFormed)
    (known : (atlas.hierarchy .nesting).contains m) :
    chain.Pairwise fun lower upper => atlas.nesting.gt upper lower := by
  induction climbed with
  | top free => exact .nil
  | under isOwner further ih =>
    have edge := hasDirectEdge_of_directOwner wellFormed known isOwner
    have knownOwner : (atlas.hierarchy .nesting).contains _ :=
      Hierarchy.contains_of_hasDirectEdge edge
    refine List.pairwise_cons.2 ⟨fun upper met => ?_, ih knownOwner⟩
    have path := (further.mem_iff layered arranged wellFormed knownOwner).1 met
    exact (wellFormed.closed .nesting).gt_iff_path.2 path

end OwnerChain

/-- Of two modules that are met one owns the other. -/
theorem comparable_of_ascends {chain : List ModuleId}
    (ascends : chain.Pairwise fun lower upper => atlas.nesting.gt upper lower) {y : ModuleId}
    (first : x ∈ chain) (second : y ∈ chain) (different : x ≠ y) :
    atlas.nesting.gt x y ∨ atlas.nesting.gt y x := by
  have eitherWay : chain.Pairwise fun x y => atlas.nesting.gt x y ∨ atlas.nesting.gt y x :=
    ascends.imp Or.inr
  have : Std.Symm fun x y => (atlas.nesting.gt x y : Prop) ∨ atlas.nesting.gt y x :=
    ⟨fun _ _ => Or.symm⟩
  exact eitherWay.forall first second different

/-! ## The forest -/

/--
As long as modules stand for groups because of their names only, nesting is a forest in every atlas
that commands lead to.  A module without direct owner has no owner at all, and the owners of any
other module are its direct owner and the owners of that one.  Climbing from owner to owner comes to
an end and has then met all owners and no other modules, each one owned by all that follow; so of
two owners of a module one always owns the other.
-/
theorem named_nesting_forest (settings : Settings) (commands : List Command)
    (named : ∀ group module, .setDefault group module ∉ commands) :
    let atlas := (empty settings).run commands
    ∀ m, (atlas.module? m).isSome → ∃ entry, atlas.entry .nesting m = .ok entry ∧
      (atlas.directOwner m = .ok none ∧ entry.above = ∅ ∨
        ∃ owner ownerEntry, atlas.directOwner m = .ok (some owner) ∧
          atlas.entry .nesting owner = .ok ownerEntry ∧
          entry.above = ownerEntry.above.insert owner) ∧
      (∃ chain, atlas.OwnerChain m chain) ∧
      (∀ chain, atlas.OwnerChain m chain → (∀ x, x ∈ chain ↔ x ∈ entry.above) ∧
        chain.Pairwise fun lower upper => atlas.nesting.gt upper lower) ∧
      ∀ x y, x ∈ entry.above → y ∈ entry.above → x ≠ y →
        atlas.nesting.gt x y ∨ atlas.nesting.gt y x := by
  intro atlas m isKnown
  have wellFormed : atlas.WellFormed := wellFormed_reached settings commands
  have arranged : atlas.Arranged := arranged_reached settings commands
  have layered : atlas.Layered := layered_of_progress
    (progress_history (wellFormed_empty settings) commands) (appointsNested_of_named named)
  have known : (atlas.hierarchy .nesting).contains m :=
    wellFormed.contains_iff_known.2 (Option.isSome_iff_exists.1 isKnown)
  obtain ⟨entry, found⟩ := Hierarchy.contains_iff.1 known
  have above {x : ModuleId} : x ∈ entry.above ↔ atlas.nesting.Path x m :=
    (wellFormed.closed .nesting).above found
  have climbed := exists_ownerChain wellFormed known
  have met {x : ModuleId} {chain : List ModuleId} (climbs : atlas.OwnerChain m chain) :
      x ∈ chain ↔ x ∈ entry.above := by
    rw [above, climbs.mem_iff layered arranged wellFormed known]
  refine ⟨entry, entry_eq_ok_iff.2 found, ?_, climbed, fun chain climbs => ?_, ?_⟩
  · obtain ⟨chain, climbs⟩ := climbed
    cases climbs with
    | top free =>
      refine Or.inl ⟨free, NodeSet.ext fun x => ?_⟩
      rw [← met (.top free)]
      exact iff_of_false List.not_mem_nil NodeSet.not_mem_empty
    | @under _ owner _ isOwner _ =>
      have edge := hasDirectEdge_of_directOwner wellFormed known isOwner
      have knownOwner : (atlas.hierarchy .nesting).contains owner :=
        Hierarchy.contains_of_hasDirectEdge edge
      obtain ⟨ownerEntry, foundOwner⟩ := Hierarchy.contains_iff.1 knownOwner
      refine Or.inr ⟨owner, ownerEntry, isOwner, entry_eq_ok_iff.2 foundOwner,
        NodeSet.ext fun x => ?_⟩
      have aboveOwner : x ∈ ownerEntry.above ↔ atlas.nesting.Path x owner :=
        (wellFormed.closed .nesting).above foundOwner
      rw [above, NodeSet.mem_insert, aboveOwner,
        layered.path_iff arranged wellFormed known isOwner]
  · exact ⟨fun x => met climbs, climbs.ascends layered arranged wellFormed known⟩
  · intro x y first second different
    obtain ⟨chain, climbs⟩ := climbed
    exact comparable_of_ascends (climbs.ascends layered arranged wellFormed known)
      ((met climbs).2 first) ((met climbs).2 second) different

/-- A default that comes late is put between a member and the owner that the member had before. -/
theorem named_nesting_forest_late :
    let commands : List Command := [.createProject "p", .createGroup ⟨0⟩ none "outer",
      .createGroup ⟨0⟩ (some ⟨0⟩) "inner", .createModule (some ⟨0⟩) "outer" .synthetic,
      .createModule (some ⟨1⟩) "a" .synthetic, .createModule (some ⟨1⟩) "inner" .synthetic]
    let atlas := (empty {}).run commands
    atlas.nesting.hasDirectEdge ⟨0⟩ ⟨1⟩ ∧ atlas.nesting.hasDirectEdge ⟨2⟩ ⟨1⟩ ∧
      atlas.OwnerChain ⟨1⟩ [⟨2⟩, ⟨0⟩] ∧ atlas.nesting.gt ⟨0⟩ ⟨2⟩ ∧
      ∃ entry, atlas.entry .nesting ⟨1⟩ = .ok entry ∧ ∀ x, x ∈ entry.above ↔ x ∈ [⟨2⟩, ⟨0⟩] := by
  intro commands atlas
  have named (group : GroupId) (module : ModuleId) : .setDefault group module ∉ commands := by
    simp [commands]
  obtain ⟨entry, found, _, _, exact, _⟩ := named_nesting_forest {} commands named ⟨1⟩ (by decide)
  have climbed : atlas.OwnerChain ⟨1⟩ [⟨2⟩, ⟨0⟩] :=
    .under (by decide) (.under (by decide) (.top (by decide)))
  obtain ⟨all, ascends⟩ := exact _ climbed
  have above := (List.pairwise_cons.1 ascends).1 ⟨0⟩ (List.mem_singleton_self _)
  exact ⟨by decide, by decide, climbed, above, entry, found, fun x => (all x).symm⟩

end Atlas

end ModuleAtlas
