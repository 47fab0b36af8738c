import Mathlib.Algebra.Order.BigOperators.Group.List
import Mathlib.Algebra.Order.Ring.Nat
import ModuleAtlas.Proofs.Stability

/-!
# Repairing scopes by repetition

A loader that cannot order its imports may propagate them anyhow and then give the same levels
again, round by round and in any order, until nothing changes.  This comes to an end, around cycles
too: scopes only grow, they show known modules only, and a round that changes no scope finds every
scope holding what its imports would add.
-/

namespace ModuleAtlas

/-! ## Sizes of scopes -/

namespace NodeSet

variable {α : Type} [LT α] [LE α] [Std.LawfulOrderLT α]

/-- A set has no more members than a list in which all of them occur. -/
theorem size_le_length {set : NodeSet α} {items : List α} (within : ∀ x, x ∈ set → x ∈ items) :
    set.size ≤ items.length :=
  ((nodup set).subperm within).length_le

variable [Std.IsLinearOrder α]

/-- A part of a set that is as large as the set is the whole of it. -/
theorem eq_of_size_le {part whole : NodeSet α} (within : ∀ x, x ∈ part → x ∈ whole)
    (atMost : whole.size ≤ part.size) : part = whole := by
  refine NodeSet.ext fun x => ⟨within x, fun member => ?_⟩
  by_contra lacks
  exact absurd (size_lt_size lacks member within) (Nat.not_lt.2 atMost)

end NodeSet

namespace Scope

structure Within (part whole : Scope) : Prop where
  intrude : ∀ x, x ∈ part.intrude → x ∈ whole.intrude
  pub : ∀ x, x ∈ part.pub → x ∈ whole.pub
  priv : ∀ x, x ∈ part.priv → x ∈ whole.priv

namespace Within

variable {part middle whole : Scope}

theorem refl (scope : Scope) : scope.Within scope := ⟨fun _ => id, fun _ => id, fun _ => id⟩

theorem trans (lower : part.Within middle) (upper : middle.Within whole) : part.Within whole where
  intrude x seen := upper.intrude x (lower.intrude x seen)
  pub x seen := upper.pub x (lower.pub x seen)
  priv x seen := upper.priv x (lower.priv x seen)

theorem sizes_le (within : part.Within whole) : part.intrude.size ≤ whole.intrude.size ∧
    part.pub.size ≤ whole.pub.size ∧ part.priv.size ≤ whole.priv.size :=
  ⟨NodeSet.size_le_length within.intrude, NodeSet.size_le_length within.pub,
    NodeSet.size_le_length within.priv⟩

theorem size_le (within : part.Within whole) : part.size ≤ whole.size := by
  obtain ⟨intrude, pub, priv⟩ := within.sizes_le
  unfold size
  omega

theorem eq_of_size_le (within : part.Within whole) (atMost : whole.size ≤ part.size) :
    part = whole := by
  obtain ⟨intrude, pub, priv⟩ := within.sizes_le
  unfold size at atMost
  have sameIntrude := NodeSet.eq_of_size_le within.intrude (by omega)
  have samePub := NodeSet.eq_of_size_le within.pub (by omega)
  have samePriv := NodeSet.eq_of_size_le within.priv (by omega)
  exact congr (congr (congrArg Scope.mk sameIntrude) samePub) samePriv

theorem antisymm (within : part.Within whole) (back : whole.Within part) : part = whole :=
  within.eq_of_size_le back.size_le

end Within

theorem within_absorb (scope : Scope) (module : ModuleId) (level : Visibility) (imported : Scope) :
    scope.Within (scope.absorb module level imported) where
  intrude _ seen := mem_intrude_absorb.2 (Or.inl seen)
  pub _ seen := mem_pub_absorb.2 (Or.inl seen)
  priv _ seen := mem_priv_absorb.2 (Or.inl seen)

/-- A scope of listed modules has each of them once at each level at most. -/
theorem size_le {scope : Scope} {ids : List ModuleId} (listed : ∀ x, scope.Sees x → x ∈ ids) :
    scope.size ≤ 3 * ids.length := by
  have intrude : scope.intrude.size ≤ ids.length :=
    NodeSet.size_le_length fun x seen => listed x (Or.inl seen)
  have pub : scope.pub.size ≤ ids.length :=
    NodeSet.size_le_length fun x seen => listed x (Or.inr (Or.inl seen))
  have priv : scope.priv.size ≤ ids.length :=
    NodeSet.size_le_length fun x seen => listed x (Or.inr (Or.inr seen))
  unfold size
  omega

end Scope

namespace Atlas

open Declarations (ofHistory)

theorem Absorbed.within {before after : Atlas} {m t : ModuleId} {level : Visibility}
    (absorbed : Absorbed before m t level after) (id : ModuleId) :
    (before.scopeOf id).Within (after.scopeOf id) := by
  by_cases isImporter : id = m
  · rw [isImporter, absorbed.scope]
    exact Scope.within_absorb _ t level _
  · rw [absorbed.otherScopes id isImporter]
    exact .refl _

/-! ## One round -/

def Declares (imports : Declarations) (command : Command) : Prop :=
  ∃ m t level, command = .setVisibility m t level ∧ (t, level) ∈ imports m

/-- A sequence of levels in which every declared import occurs with each of its levels. -/
structure IsRound (imports : Declarations) (round : List Command) : Prop where
  declared : ∀ command ∈ round, Declares imports command
  everything : ∀ {m t level}, (t, level) ∈ imports m → .setVisibility m t level ∈ round

variable {imports : Declarations} {ids : List ModuleId}

theorem IsRound.mem_iff {round : List Command} (isRound : IsRound imports round) {m t : ModuleId}
    {level : Visibility} : .setVisibility m t level ∈ round ↔ (t, level) ∈ imports m := by
  refine ⟨fun listed => ?_, isRound.everything⟩
  obtain ⟨_, _, _, isCall, declared⟩ := isRound.declared _ listed
  obtain ⟨rfl, rfl, rfl⟩ := Command.setVisibility.inj isCall
  exact declared

/-- Levels that are given again let scopes grow, or were all held by the scopes before. -/
theorem again_progress {atlas : Atlas} (repeatable : Repeatable imports ids atlas)
    {calls : List Command} (declared : ∀ command ∈ calls, Declares imports command) :
    ∃ next, Progress atlas calls next ∧ Repeatable imports ids next ∧
      (∀ id, (atlas.scopeOf id).Within (next.scopeOf id)) ∧
      ((∀ id, next.scopeOf id = atlas.scopeOf id) ↔
        ∀ m t level, .setVisibility m t level ∈ calls →
          (atlas.scopeOf m).Holds t level (atlas.scopeOf t)) := by
  induction calls generalizing atlas with
  | nil =>
    refine ⟨atlas, .nil atlas, repeatable, fun id => .refl _, ?_⟩
    exact iff_of_true (fun _ => rfl) fun _ _ _ given => nomatch given
  | cons command rest ih =>
    obtain ⟨⟨m, t, level, rfl, edge⟩, declaredRest⟩ := List.forall_mem_cons.1 declared
    obtain ⟨middle, planned⟩ := repeatable.accepted edge
    have absorbed := absorbed_of_plan planned
    obtain ⟨next, progress, repeatableNext, grown, unchanged⟩ :=
      ih (repeatable.absorb edge planned) declaredRest
    refine ⟨next, .cons trivial planned progress, repeatableNext,
      fun id => (absorbed.within id).trans (grown id), ?_⟩
    constructor
    · -- what is between two equal scopes equals both
      intro same
      have still (id : ModuleId) : middle.scopeOf id = atlas.scopeOf id :=
        Scope.Within.antisymm (same id ▸ grown id) (absorbed.within id)
      intro n u given listed
      rcases List.mem_cons.1 listed with isFirst | later
      · obtain ⟨rfl, rfl, rfl⟩ := Command.setVisibility.inj isFirst
        exact absorbed.scopes_same_iff.1 still
      · rw [← still, ← still]
        exact unchanged.1 (fun id => (same id).trans (still id).symm) n u given later
    · intro held
      have still := absorbed.scopes_same_iff.2 (held m t level List.mem_cons_self)
      intro id
      refine (unchanged.2 (fun n u given later => ?_) id).trans (still id)
      rw [still, still]
      exact held n u given (List.mem_cons_of_mem _ later)

def entries (atlas : Atlas) (ids : List ModuleId) : Nat :=
  (ids.map fun id => (atlas.scopeOf id).size).sum

theorem Repeatable.entries_le {atlas : Atlas} (repeatable : Repeatable imports ids atlas) :
    atlas.entries ids ≤ 3 * ids.length ^ 2 := by
  have each : ∀ size ∈ ids.map fun id => (atlas.scopeOf id).size, size ≤ 3 * ids.length := by
    intro size listed
    obtain ⟨id, _, rfl⟩ := List.mem_map.1 listed
    exact Scope.size_le fun x seen => repeatable.mem_of_sees seen
  have total := List.sum_le_card_nsmul _ _ each
  rw [List.length_map] at total
  calc
    atlas.entries ids ≤ ids.length * (3 * ids.length) := total
    _ = 3 * (ids.length * ids.length) := Nat.mul_left_comm ..
    _ = 3 * ids.length ^ 2 := by rw [Nat.pow_two]

/-- A round changes nothing if all was held before, and lets some scope grow otherwise. -/
theorem round_progress {atlas : Atlas} (repeatable : Repeatable imports ids atlas)
    {round : List Command} (isRound : IsRound imports round) :
    ∃ next, Progress atlas round next ∧ Repeatable imports ids next ∧
      (imports.Held atlas.scopeOf → imports.Held next.scopeOf) ∧
      (¬ imports.Held atlas.scopeOf → atlas.entries ids < next.entries ids) := by
  obtain ⟨next, progress, repeatableNext, grown, unchanged⟩ :=
    again_progress repeatable isRound.declared
  refine ⟨next, progress, repeatableNext, fun held => ?_, fun notHeld => ?_⟩
  · have same : next.scopeOf = atlas.scopeOf := funext <| unchanged.2 fun m t level listed =>
      held m t level (isRound.mem_iff.1 listed)
    rw [same]
    exact held
  · have changed : ∃ id, next.scopeOf id ≠ atlas.scopeOf id := by
      by_contra unchangedScopes
      have same := unchanged.1 fun id => not_not.1 fun differs => unchangedScopes ⟨id, differs⟩
      exact notHeld fun m t level edge => same m t level (isRound.mem_iff.2 edge)
    obtain ⟨id, differs⟩ := changed
    have larger : (atlas.scopeOf id).size < (next.scopeOf id).size := by
      by_contra notLess
      exact differs ((grown id).eq_of_size_le (Nat.not_lt.1 notLess)).symm
    -- an unknown module sees nothing, so the one whose scope grew is listed
    have listed : id ∈ ids := by
      refine (repeatableNext.known id).1 (Option.isSome_iff_ne_none.2 fun unknown => ?_)
      have blind : next.scopeOf id = .empty := by rw [scopeOf, unknown, Option.elim_none]
      rw [blind] at larger
      exact absurd larger (Nat.not_lt_zero _)
    exact List.sum_lt_sum _ _ (fun other _ => (grown other).size_le) ⟨id, listed, larger⟩

/-! ## Round after round -/

/-- As many rounds as there may be entries are enough for all scopes to hold what they should. -/
theorem rounds_progress {round : List Command} (isRound : IsRound imports round) {rounds : Nat}
    {atlas : Atlas} (repeatable : Repeatable imports ids atlas)
    (enough : 3 * ids.length ^ 2 ≤ atlas.entries ids + rounds ∨ imports.Held atlas.scopeOf) :
    ∃ next, Progress atlas (List.replicate rounds round).flatten next ∧
      Repeatable imports ids next ∧ imports.Held next.scopeOf := by
  induction rounds generalizing atlas with
  | zero =>
    refine ⟨atlas, .nil atlas, repeatable, ?_⟩
    by_contra notHeld
    -- one more round would add to what is full already
    obtain ⟨next, _, repeatableNext, _, grows⟩ := round_progress repeatable isRound
    have full := enough.resolve_right notHeld
    have more := Nat.lt_of_lt_of_le (grows notHeld) repeatableNext.entries_le
    exact absurd more (Nat.not_lt.2 full)
  | succ rounds ih =>
    obtain ⟨middle, first, repeatableMiddle, kept, grows⟩ := round_progress repeatable isRound
    have remaining : 3 * ids.length ^ 2 ≤ middle.entries ids + rounds ∨
        imports.Held middle.scopeOf := by
      by_cases held : imports.Held atlas.scopeOf
      · exact Or.inr (kept held)
      · have atMost := enough.resolve_right held
        have more := grows held
        exact Or.inl (by omega)
    obtain ⟨next, progress, repeatableNext, held⟩ := ih repeatableMiddle remaining
    refine ⟨next, ?_, repeatableNext, held⟩
    rw [List.replicate_succ, List.flatten_cons]
    exact first.append progress

/-- Repeating what was carried out gives no level that was not given before. -/
theorem mem_history_of_repeated {atlas : Atlas} {commands : List Command} {round : List Command}
    (given : ∀ command, command ∈ round → command ∈ atlas.history commands ∧
      ∃ m t level, command = .setVisibility m t level) {rounds : Nat} {command : Command} :
    command ∈ atlas.history (commands ++ (List.replicate rounds round).flatten) ↔
      command ∈ atlas.history commands := by
  rw [history_append]
  refine ⟨fun listed => (List.mem_append.1 listed).elim id fun later => ?_,
    fun listed => List.mem_append_left _ listed⟩
  obtain ⟨origin, repeated, staged⟩ := exists_mem_stages_of_mem_history later
  obtain ⟨calls, replicated, listed⟩ := List.mem_flatten.1 repeated
  rw [List.eq_of_mem_replicate replicated] at listed
  obtain ⟨carriedOut, m, t, level, rfl⟩ := given origin listed
  rw [List.mem_singleton.1 staged]
  exact carriedOut

/--
Without strict ordering, in every atlas that commands lead to: if giving again any level that was
given in the run would change no scope, then every trail of imports shows in the scope of the module
where it starts, at the level that it spells.  And giving all these levels again, round after round
in any sequence that contains each of them, leads to such an atlas, after no more rounds than the
scopes have room for entries.
-/
theorem stable_complete (settings : Settings) (lenient : ¬ settings.strictOrdering)
    (commands : List Command) :
    let atlas := (empty settings).run commands
    let history := (empty settings).history commands
    let imports := ofHistory history
    (atlas.Stable history → ∀ m x,
      (imports.Intrudes m x → x ∈ (atlas.scopeOf m).intrude) ∧
      (imports.SeesPublicly m x → x ∈ (atlas.scopeOf m).pub) ∧
      (imports.SeesPrivately m x → x ∈ (atlas.scopeOf m).priv)) ∧
    ∀ round : List Command,
      (∀ command, command ∈ round ↔
        command ∈ history ∧ ∃ m t level, command = .setVisibility m t level) →
      ∀ rounds, 3 * atlas.modules.length ^ 2 ≤ rounds →
        let repaired := commands ++ (List.replicate rounds round).flatten
        ((empty settings).run repaired).Stable ((empty settings).history repaired) := by
  intro atlas history imports
  have repeatable : Repeatable imports (atlas.modules.map Module.id) atlas :=
    repeatable_reached lenient commands
  constructor
  · intro stable m x
    have held : imports.Held atlas.scopeOf :=
      (repeatable.stable_iff_held fun _ _ _ => Declarations.mem_ofHistory.symm).1 stable
    have covers := held.covers m
    exact ⟨covers.intrude x, covers.pub x, covers.priv x⟩
  · intro round given rounds enough repaired
    have isRound : IsRound imports round := by
      constructor
      · intro command listed
        obtain ⟨carriedOut, m, t, level, rfl⟩ := (given command).1 listed
        exact ⟨m, t, level, rfl, Declarations.mem_ofHistory.2 carriedOut⟩
      · intro m t level declared
        exact (given _).2 ⟨Declarations.mem_ofHistory.1 declared, m, t, level, rfl⟩
    have room : 3 * (atlas.modules.map Module.id).length ^ 2 ≤
        atlas.entries (atlas.modules.map Module.id) + rounds := by
      rw [List.length_map]
      exact Nat.le_add_left_of_le enough
    obtain ⟨next, progress, repeatableNext, held⟩ :=
      rounds_progress isRound repeatable (Or.inl room)
    have reached : (empty settings).run repaired = next := by
      rw [run_append]
      exact progress.run_eq repeatable.wellFormed
    rw [reached]
    refine (repeatableNext.stable_iff_held fun m t level => ?_).2 held
    rw [mem_history_of_repeated fun command => (given command).1]
    exact Declarations.mem_ofHistory.symm

/-- Around a cycle the first module misses the last one; once repaired, it sees itself as well. -/
theorem stable_complete_around_cycle :
    let commands : List Command := [.createFictive "a", .createFictive "b", .createFictive "c",
      .setVisibility ⟨0⟩ ⟨1⟩ .intrude, .setVisibility ⟨1⟩ ⟨2⟩ .intrude, .setVisibility ⟨2⟩ ⟨0⟩ .pub]
    let round : List Command := [.setVisibility ⟨0⟩ ⟨1⟩ .intrude, .setVisibility ⟨1⟩ ⟨2⟩ .intrude,
      .setVisibility ⟨2⟩ ⟨0⟩ .pub]
    let repaired := commands ++ (List.replicate 27 round).flatten
    ¬ ((empty {}).run commands).Stable ((empty {}).history commands) ∧
      ((empty {}).run repaired).Stable ((empty {}).history repaired) ∧
      ¬ (((empty {}).run commands).scopeOf ⟨0⟩).Sees ⟨2⟩ ∧
      ⟨2⟩ ∈ (((empty {}).run repaired).scopeOf ⟨0⟩).intrude ∧
      ⟨0⟩ ∈ (((empty {}).run repaired).scopeOf ⟨0⟩).pub := by
  intro commands round repaired
  have given (command : Command) : command ∈ round ↔ command ∈ (empty {}).history commands ∧
      ∃ m t level, command = .setVisibility m t level := by
    have calls : (empty {}).history commands =
        [.createFictive "a", .createFictive "b", .createFictive "c"] ++ round := rfl
    rw [calls, List.mem_append]
    constructor
    · intro listed
      refine ⟨Or.inr listed, ?_⟩
      simp only [round, List.mem_cons, List.not_mem_nil, or_false] at listed
      rcases listed with rfl | rfl | rfl
      · exact ⟨_, _, _, rfl⟩
      · exact ⟨_, _, _, rfl⟩
      · exact ⟨_, _, _, rfl⟩
    · rintro ⟨created | listed, m, t, level, rfl⟩
      · simp at created
      · exact listed
  have stable : ((empty {}).run repaired).Stable ((empty {}).history repaired) :=
    (stable_complete {} Bool.false_ne_true commands).2 round given 27 (by decide)
  have declared {m t : ModuleId} {level : Visibility} (listed : .setVisibility m t level ∈ round) :
      (t, level) ∈ ofHistory ((empty {}).history repaired) m := by
    rw [Declarations.mem_ofHistory, mem_history_of_repeated fun command => (given command).1]
    exact ((given _).1 listed).1
  have complete := (stable_complete {} Bool.false_ne_true repaired).1 stable
  have last : (ofHistory ((empty {}).history repaired)).Intrudes ⟨1⟩ ⟨2⟩ :=
    Declarations.intrudes_iff.2 ⟨⟨2⟩, declared (by decide), Or.inl rfl⟩
  have first : (ofHistory ((empty {}).history repaired)).Intrudes ⟨0⟩ ⟨2⟩ :=
    Declarations.intrudes_iff.2 ⟨⟨1⟩, declared (by decide), Or.inr last⟩
  have back : (ofHistory ((empty {}).history repaired)).SeesPublicly ⟨2⟩ ⟨0⟩ :=
    Declarations.seesPublicly_iff.2
      ⟨⟨0⟩, Or.inr ⟨declared (by decide), Declarations.exports_iff.2 (Or.inl rfl)⟩⟩
  have half : (ofHistory ((empty {}).history repaired)).SeesPublicly ⟨1⟩ ⟨0⟩ :=
    Declarations.seesPublicly_iff.2 ⟨⟨2⟩, Or.inl ⟨declared (by decide), back⟩⟩
  have around : (ofHistory ((empty {}).history repaired)).SeesPublicly ⟨0⟩ ⟨0⟩ :=
    Declarations.seesPublicly_iff.2 ⟨⟨1⟩, Or.inl ⟨declared (by decide), half⟩⟩
  refine ⟨fun wasStable => ?_, stable, by decide, (complete ⟨0⟩ ⟨2⟩).1 first,
    (complete ⟨0⟩ ⟨0⟩).2.1 around⟩
  have unchanged := wasStable ⟨0⟩ ⟨1⟩ .intrude (by decide) ⟨0⟩
  exact absurd unchanged (by decide)

end Atlas

end ModuleAtlas
