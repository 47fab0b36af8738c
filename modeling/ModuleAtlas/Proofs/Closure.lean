import Mathlib.Logic.Relation
import ModuleAtlas.Hierarchy.Edit
import ModuleAtlas.Hierarchy.Lemmas

/-!
# Exactness of the closure

An edge joins what is above its upper end to what is below its lower end, both as they were before
the edge.  The closure stays exact all the same, around cycles too: a path after the edge is a path
from before it, or it may be cut at the first and the last use of the edge, and what is left at
either side are paths from before.
-/

namespace ModuleAtlas

namespace Hierarchy

variable {α : Type} [LT α] [DecidableEq α]

/-- One or more direct edges lead from a node down to another one. -/
def Path (hierarchy : Hierarchy α) : α → α → Prop :=
  Relation.TransGen fun greater smaller => hierarchy.hasDirectEdge greater smaller

/-- Any number of direct edges, none included, lead from a node down to another one. -/
def Reaches (hierarchy : Hierarchy α) : α → α → Prop :=
  Relation.ReflTransGen fun greater smaller => hierarchy.hasDirectEdge greater smaller

theorem hasDirectEdge_iff {hierarchy : Hierarchy α} {x y : α} :
    hierarchy.hasDirectEdge x y ↔
      ∃ entry, hierarchy.get? x = some entry ∧ y ∈ entry.directBelow := by
  simp [hasDirectEdge, Option.any_eq_true]

theorem gt_iff {hierarchy : Hierarchy α} {x y : α} :
    hierarchy.gt x y ↔ ∃ entry, hierarchy.get? x = some entry ∧ y ∈ entry.below := by
  simp [gt, Option.any_eq_true]

theorem reaches_iff {hierarchy : Hierarchy α} {x y : α} :
    hierarchy.Reaches x y ↔ y = x ∨ hierarchy.Path x y :=
  Relation.reflTransGen_iff_eq_or_transGen

theorem contains_iff {hierarchy : Hierarchy α} {x : α} :
    hierarchy.contains x ↔ ∃ entry, hierarchy.get? x = some entry :=
  Option.isSome_iff_exists

theorem contains_of_hasDirectEdge {hierarchy : Hierarchy α} {x y : α}
    (edge : hierarchy.hasDirectEdge x y) : hierarchy.contains x := by
  obtain ⟨entry, found, _⟩ := hasDirectEdge_iff.1 edge
  exact contains_iff.2 ⟨entry, found⟩

/-- A path starts at a registered node. -/
theorem Path.contains_source {hierarchy : Hierarchy α} {x y : α}
    (path : hierarchy.Path x y) : hierarchy.contains x := by
  obtain ⟨_, edge, _⟩ := Relation.TransGen.head'_iff.1 path
  exact contains_of_hasDirectEdge edge

/-! ## The invariant -/

/-- The four sets of every entry say what the direct edges say. -/
structure Closed (hierarchy : Hierarchy α) : Prop where
  below : ∀ {x y entry}, hierarchy.get? x = some entry → (y ∈ entry.below ↔ hierarchy.Path x y)
  above : ∀ {x y entry}, hierarchy.get? x = some entry → (y ∈ entry.above ↔ hierarchy.Path y x)
  directAbove : ∀ {x y entry}, hierarchy.get? x = some entry →
    (y ∈ entry.directAbove ↔ hierarchy.hasDirectEdge y x)
  registered : ∀ {x y}, hierarchy.hasDirectEdge x y → hierarchy.contains y

namespace Closed

variable {hierarchy : Hierarchy α}

theorem gt_iff_path (closed : hierarchy.Closed) {x y : α} :
    hierarchy.gt x y ↔ hierarchy.Path x y := by
  rw [gt_iff]
  constructor
  · rintro ⟨entry, found, member⟩
    exact (closed.below found).1 member
  · intro path
    obtain ⟨entry, found⟩ := contains_iff.1 path.contains_source
    exact ⟨entry, found, (closed.below found).2 path⟩

/-- A path ends at a registered node. -/
theorem contains_target (closed : hierarchy.Closed) {x y : α} (path : hierarchy.Path x y) :
    hierarchy.contains y := by
  obtain ⟨_, _, edge⟩ := Relation.TransGen.tail'_iff.1 path
  exact closed.registered edge

end Closed

theorem closed_empty (name : String) : (empty name : Hierarchy α).Closed where
  below := fun found => nomatch found
  above := fun found => nomatch found
  directAbove := fun found => nomatch found
  registered := fun edge => nomatch edge

theorem closed_withAcyclicCheck {hierarchy : Hierarchy α} (closed : hierarchy.Closed)
    (enabled : Bool) : (hierarchy.withAcyclicCheck enabled).Closed :=
  ⟨closed.below, closed.above, closed.directAbove, closed.registered⟩

/-! ## Registering -/

theorem hasDirectEdge_register (hierarchy : Hierarchy α) (node x y : α) :
    (hierarchy.register node).hasDirectEdge x y = hierarchy.hasDirectEdge x y := by
  unfold hasDirectEdge
  rw [get?_register]
  cases hierarchy.get? x with
  | some entry => rfl
  | none =>
    by_cases same : node = x
    · simp [same, Entry.isolated]
    · simp [same]

theorem path_register (hierarchy : Hierarchy α) (node x y : α) :
    (hierarchy.register node).Path x y ↔ hierarchy.Path x y := by
  unfold Path
  simp only [hasDirectEdge_register]

theorem contains_register {hierarchy : Hierarchy α} {node x : α} :
    (hierarchy.register node).contains x ↔ hierarchy.contains x ∨ x = node := by
  rw [contains_iff_mem_nodes, contains_iff_mem_nodes, nodes_register]
  split
  · constructor
    · exact Or.inl
    · rintro (listed | same)
      · exact listed
      · exact same ▸ ‹node ∈ hierarchy.nodes›
  · simp

theorem checkAcyclic_register (hierarchy : Hierarchy α) (node : α) :
    (hierarchy.register node).checkAcyclic = hierarchy.checkAcyclic := by
  unfold register
  split
  · rfl
  · rfl

theorem name_register (hierarchy : Hierarchy α) (node : α) :
    (hierarchy.register node).name = hierarchy.name := by
  unfold register
  split
  · rfl
  · rfl

/-- What is found after registering a node was found before or is the node on its own. -/
theorem get?_register_cases {hierarchy : Hierarchy α} {node x : α} {entry : Entry α}
    (found : (hierarchy.register node).get? x = some entry) :
    hierarchy.get? x = some entry ∨ hierarchy.get? x = none ∧ entry = .isolated node := by
  rw [get?_register] at found
  cases known : hierarchy.get? x with
  | some other =>
    rw [known] at found
    exact Or.inl found
  | none =>
    rw [known, Option.none_or] at found
    split at found
    · exact Or.inr ⟨rfl, (Option.some.inj found).symm⟩
    · cases found

theorem closed_register {hierarchy : Hierarchy α} (closed : hierarchy.Closed) (node : α) :
    (hierarchy.register node).Closed := by
  have fresh {x : α} (unknown : hierarchy.get? x = none) : ¬ hierarchy.contains x := by
    simp [contains, unknown]
  refine ⟨?_, ?_, ?_, ?_⟩
  · intro x y entry found
    rw [path_register]
    rcases get?_register_cases found with known | ⟨unknown, rfl⟩
    · exact closed.below known
    · exact iff_of_false NodeSet.not_mem_empty fun path => fresh unknown path.contains_source
  · intro x y entry found
    rw [path_register]
    rcases get?_register_cases found with known | ⟨unknown, rfl⟩
    · exact closed.above known
    · exact iff_of_false NodeSet.not_mem_empty fun path =>
        fresh unknown (closed.contains_target path)
  · intro x y entry found
    rw [hasDirectEdge_register]
    rcases get?_register_cases found with known | ⟨unknown, rfl⟩
    · exact closed.directAbove known
    · exact iff_of_false NodeSet.not_mem_empty fun edge => fresh unknown (closed.registered edge)
  · intro x y edge
    rw [hasDirectEdge_register] at edge
    exact contains_register.2 (Or.inl (closed.registered edge))

/-! ## Joining -/

variable [DecidableLT α] [LE α] [Std.IsLinearOrder α] [Std.LawfulOrderLT α]

section Join

variable {hierarchy : Hierarchy α} {greater smaller : α} {upper lower : Entry α}

theorem contains_join {x : α} :
    (hierarchy.join upper lower).contains x ↔ hierarchy.contains x := by
  rw [contains_iff_mem_nodes, contains_iff_mem_nodes, nodes_join]

theorem hasDirectEdge_join (upperFound : hierarchy.get? greater = some upper)
    (lowerFound : hierarchy.get? smaller = some lower) {x y : α} :
    (hierarchy.join upper lower).hasDirectEdge x y ↔
      hierarchy.hasDirectEdge x y ∨ x = greater ∧ y = smaller := by
  rw [hasDirectEdge_iff, hasDirectEdge_iff, get?_join]
  have upperNode : upper.node = greater := node_of_get? upperFound
  have lowerNode : lower.node = smaller := node_of_get? lowerFound
  constructor
  · rintro ⟨joined, found, member⟩
    obtain ⟨entry, known, rfl⟩ := Option.map_eq_some_iff.1 found
    simp only [Entry.joined, node_of_get? known, upperNode, lowerNode] at member
    split at member
    · rcases NodeSet.mem_insert.1 member with isNew | old
      · exact Or.inr ⟨‹x = greater›, isNew⟩
      · exact Or.inl ⟨entry, known, old⟩
    · exact Or.inl ⟨entry, known, member⟩
  · rintro (⟨entry, known, old⟩ | ⟨rfl, rfl⟩)
    · refine ⟨_, Option.map_eq_some_iff.2 ⟨entry, known, rfl⟩, ?_⟩
      simp only [Entry.joined]
      split
      · exact NodeSet.mem_insert.2 (Or.inr old)
      · exact old
    · refine ⟨_, Option.map_eq_some_iff.2 ⟨upper, upperFound, rfl⟩, ?_⟩
      simp only [Entry.joined, if_true]
      exact NodeSet.mem_insert.2 (Or.inl lowerNode.symm)

/-- A path after an edge is one from before or passes the edge. -/
theorem path_join (upperFound : hierarchy.get? greater = some upper)
    (lowerFound : hierarchy.get? smaller = some lower) {x y : α} :
    (hierarchy.join upper lower).Path x y ↔
      hierarchy.Path x y ∨ hierarchy.Reaches x greater ∧ hierarchy.Reaches smaller y := by
  have grown : ∀ a b, hierarchy.hasDirectEdge a b →
      (hierarchy.join upper lower).hasDirectEdge a b :=
    fun _ _ edge => (hasDirectEdge_join upperFound lowerFound).2 (Or.inl edge)
  constructor
  · intro path
    -- every further edge prolongs an old path, or is the new edge and leaves a new tail behind
    induction path with
    | single edge =>
      rcases (hasDirectEdge_join upperFound lowerFound).1 edge with old | ⟨rfl, rfl⟩
      · exact Or.inl (.single old)
      · exact Or.inr ⟨.refl, .refl⟩
    | tail _ edge ih =>
      rcases (hasDirectEdge_join upperFound lowerFound).1 edge with old | ⟨rfl, rfl⟩
      · rcases ih with direct | ⟨before, after⟩
        · exact Or.inl (.tail direct old)
        · exact Or.inr ⟨before, .tail after old⟩
      · rcases ih with direct | ⟨before, _⟩
        · exact Or.inr ⟨direct.to_reflTransGen, .refl⟩
        · exact Or.inr ⟨before, .refl⟩
  · rintro (old | ⟨before, after⟩)
    · exact Relation.TransGen.mono grown _ _ old
    · have edge := (hasDirectEdge_join upperFound lowerFound).2 (Or.inr ⟨rfl, rfl⟩)
      have path := Relation.TransGen.tail' (Relation.ReflTransGen.mono grown _ _ before) edge
      exact path.trans_left (Relation.ReflTransGen.mono grown _ _ after)

theorem mem_atOrAbove (closed : hierarchy.Closed) {x y : α} {entry : Entry α}
    (found : hierarchy.get? x = some entry) :
    y ∈ entry.atOrAbove ↔ hierarchy.Reaches y x := by
  rw [Entry.atOrAbove, NodeSet.mem_insert, node_of_get? found, closed.above found, reaches_iff,
    eq_comm]

theorem mem_atOrBelow (closed : hierarchy.Closed) {x y : α} {entry : Entry α}
    (found : hierarchy.get? x = some entry) :
    y ∈ entry.atOrBelow ↔ hierarchy.Reaches x y := by
  rw [Entry.atOrBelow, NodeSet.mem_insert, node_of_get? found, closed.below found, reaches_iff]

theorem closed_join (closed : hierarchy.Closed)
    (upperFound : hierarchy.get? greater = some upper)
    (lowerFound : hierarchy.get? smaller = some lower) :
    (hierarchy.join upper lower).Closed := by
  have upperNode : upper.node = greater := node_of_get? upperFound
  have lowerNode : lower.node = smaller := node_of_get? lowerFound
  refine ⟨?_, ?_, ?_, ?_⟩
  · intro x y joined found
    rw [get?_join] at found
    obtain ⟨entry, known, rfl⟩ := Option.map_eq_some_iff.1 found
    rw [path_join upperFound lowerFound, ← closed.below known, ← mem_atOrAbove closed upperFound,
      ← mem_atOrBelow closed lowerFound]
    simp only [Entry.joined, node_of_get? known]
    by_cases reaching : x ∈ upper.atOrAbove
    · simp [reaching]
    · simp [reaching]
  · intro x y joined found
    rw [get?_join] at found
    obtain ⟨entry, known, rfl⟩ := Option.map_eq_some_iff.1 found
    rw [path_join upperFound lowerFound, ← closed.above known, ← mem_atOrAbove closed upperFound,
      ← mem_atOrBelow closed lowerFound]
    simp only [Entry.joined, node_of_get? known]
    by_cases reached : x ∈ lower.atOrBelow
    · simp [reached]
    · simp [reached]
  · intro x y joined found
    rw [get?_join] at found
    obtain ⟨entry, known, rfl⟩ := Option.map_eq_some_iff.1 found
    rw [hasDirectEdge_join upperFound lowerFound, ← closed.directAbove known]
    simp only [Entry.joined, node_of_get? known, upperNode, lowerNode]
    by_cases same : x = smaller
    · simp [same, or_comm]
    · simp [same]
  · intro x y edge
    rw [contains_join]
    rcases (hasDirectEdge_join upperFound lowerFound).1 edge with old | ⟨_, rfl⟩
    · exact closed.registered old
    · exact contains_iff.2 ⟨lower, lowerFound⟩

end Join

/-! ## Runs of edits -/

/-- The edge was accepted at some point of a run, as a new one or as one that was there already. -/
def Accepts (hierarchy : Hierarchy α) (edits : List (Edit α)) (greater smaller : α) : Prop :=
  ∃ before after next, edits = before ++ .relate greater smaller :: after ∧
    (hierarchy.run before).relate greater smaller = .ok next

theorem after_relate_ok {hierarchy next : Hierarchy α} {greater smaller : α}
    (accepted : hierarchy.relate greater smaller = .ok next) :
    hierarchy.after (.relate greater smaller) = next := by
  simp [after, Hierarchy.edit, accepted]

theorem after_relate_error {hierarchy : Hierarchy α} {greater smaller : α} {refusal : Refusal α}
    (refused : hierarchy.relate greater smaller = .error refusal) :
    hierarchy.after (.relate greater smaller) = hierarchy := by
  simp [after, Hierarchy.edit, refused]

/-- An accepted edge leaves the hierarchy alone or joins the entries of its ends. -/
theorem relate_cases {hierarchy next : Hierarchy α} {greater smaller : α}
    (accepted : hierarchy.relate greater smaller = .ok next) :
    (hierarchy.hasDirectEdge greater smaller ∧ next = hierarchy) ∨
      ∃ upper lower, hierarchy.get? greater = some upper ∧ hierarchy.get? smaller = some lower ∧
        next = hierarchy.join upper lower := by
  obtain ⟨upper, lower, upperFound, lowerFound, effect⟩ := relate_eq_ok_iff.1 accepted
  split at effect
  · exact Or.inl ⟨hasDirectEdge_iff.2 ⟨upper, upperFound, ‹_›⟩, effect⟩
  · exact Or.inr ⟨upper, lower, upperFound, lowerFound, effect.2⟩

theorem closed_relate {hierarchy next : Hierarchy α} (closed : hierarchy.Closed)
    {greater smaller : α} (accepted : hierarchy.relate greater smaller = .ok next) :
    next.Closed := by
  rcases relate_cases accepted with ⟨_, rfl⟩ | ⟨upper, lower, upperFound, lowerFound, rfl⟩
  · exact closed
  · exact closed_join closed upperFound lowerFound

theorem hasDirectEdge_relate {hierarchy next : Hierarchy α} {greater smaller : α}
    (accepted : hierarchy.relate greater smaller = .ok next) {x y : α} :
    next.hasDirectEdge x y ↔ hierarchy.hasDirectEdge x y ∨ x = greater ∧ y = smaller := by
  rcases relate_cases accepted with ⟨present, rfl⟩ | ⟨upper, lower, upperFound, lowerFound, rfl⟩
  · constructor
    · exact Or.inl
    · rintro (edge | ⟨rfl, rfl⟩)
      · exact edge
      · exact present
  · exact hasDirectEdge_join upperFound lowerFound

theorem closed_after {hierarchy : Hierarchy α} (closed : hierarchy.Closed) (edit : Edit α) :
    (hierarchy.after edit).Closed := by
  cases edit with
  | register node => exact closed_register closed node
  | checkAcyclic enabled => exact closed_withAcyclicCheck closed enabled
  | relate greater smaller =>
    cases outcome : hierarchy.relate greater smaller with
    | ok next =>
      rw [after_relate_ok outcome]
      exact closed_relate closed outcome
    | error refusal =>
      rw [after_relate_error outcome]
      exact closed

theorem closed_run {hierarchy : Hierarchy α} (closed : hierarchy.Closed) (edits : List (Edit α)) :
    (hierarchy.run edits).Closed := by
  induction edits generalizing hierarchy with
  | nil => exact closed
  | cons edit rest ih => exact ih (closed_after closed edit)

/-- An edit adds the edge that it gets accepted and no other. -/
theorem hasDirectEdge_after (hierarchy : Hierarchy α) (edit : Edit α) (x y : α) :
    (hierarchy.after edit).hasDirectEdge x y ↔
      hierarchy.hasDirectEdge x y ∨
        edit = .relate x y ∧ ∃ next, hierarchy.relate x y = .ok next := by
  cases edit with
  | register node => simp [after, Hierarchy.edit, hasDirectEdge_register]
  | checkAcyclic enabled =>
    have same : (hierarchy.withAcyclicCheck enabled).hasDirectEdge x y =
        hierarchy.hasDirectEdge x y := rfl
    simp [after, Hierarchy.edit, same]
  | relate greater smaller =>
    cases outcome : hierarchy.relate greater smaller with
    | ok next =>
      rw [after_relate_ok outcome, hasDirectEdge_relate outcome, Edit.relate.injEq]
      constructor
      · rintro (old | ⟨rfl, rfl⟩)
        · exact Or.inl old
        · exact Or.inr ⟨⟨rfl, rfl⟩, next, outcome⟩
      · rintro (old | ⟨⟨rfl, rfl⟩, _⟩)
        · exact Or.inl old
        · exact Or.inr ⟨rfl, rfl⟩
    | error refusal =>
      rw [after_relate_error outcome, Edit.relate.injEq]
      constructor
      · exact Or.inl
      · rintro (old | ⟨⟨rfl, rfl⟩, next, accepted⟩)
        · exact old
        · rw [outcome] at accepted
          cases accepted

theorem accepts_cons {hierarchy : Hierarchy α} {edit : Edit α} {rest : List (Edit α)} {x y : α} :
    hierarchy.Accepts (edit :: rest) x y ↔
      (edit = .relate x y ∧ ∃ next, hierarchy.relate x y = .ok next) ∨
        (hierarchy.after edit).Accepts rest x y := by
  constructor
  · rintro ⟨before, after, next, divided, accepted⟩
    cases before with
    | nil => exact Or.inl ⟨(List.cons.inj divided).1, next, accepted⟩
    | cons first before =>
      obtain ⟨rfl, rest_eq⟩ := List.cons.inj divided
      exact Or.inr ⟨before, after, next, rest_eq, accepted⟩
  · rintro (⟨rfl, next, accepted⟩ | ⟨before, after, next, rfl, accepted⟩)
    · exact ⟨[], rest, next, rfl, accepted⟩
    · exact ⟨edit :: before, after, next, rfl, accepted⟩

theorem Accepts.mem {hierarchy : Hierarchy α} {edits : List (Edit α)} {x y : α}
    (accepts : hierarchy.Accepts edits x y) : .relate x y ∈ edits := by
  obtain ⟨before, after, _, rfl, _⟩ := accepts
  exact List.mem_append_right _ List.mem_cons_self

theorem hasDirectEdge_run (hierarchy : Hierarchy α) (edits : List (Edit α)) (x y : α) :
    (hierarchy.run edits).hasDirectEdge x y ↔
      hierarchy.hasDirectEdge x y ∨ hierarchy.Accepts edits x y := by
  induction edits generalizing hierarchy with
  | nil =>
    constructor
    · exact Or.inl
    · rintro (edge | ⟨before, after, _, divided, _⟩)
      · exact edge
      · exact absurd divided.symm (List.append_ne_nil_of_right_ne_nil _ (List.cons_ne_nil _ _))
  | cons edit rest ih =>
    change ((hierarchy.after edit).run rest).hasDirectEdge x y ↔ _
    rw [ih, hasDirectEdge_after, accepts_cons, or_assoc]

/--
After every run of edits from the empty hierarchy, whether the acyclicity check was on, off or
switched, the sets of a node are exact: its direct edges are the accepted ones, what is below it is
what paths lead down to, the sets above mirror the sets below, and all of it is registered.
-/
theorem closure_exact (name : String) (edits : List (Edit α)) :
    let final : Hierarchy α := (empty name).run edits
    (∀ x y, final.hasDirectEdge x y ↔ (empty name).Accepts edits x y) ∧
      (∀ x y entryX entryY, final.get? x = some entryX → final.get? y = some entryY →
        (y ∈ entryX.directBelow ↔ final.hasDirectEdge x y) ∧
        (y ∈ entryX.below ↔ final.Path x y) ∧
        (y ∈ entryX.above ↔ x ∈ entryY.below) ∧
        (y ∈ entryX.directAbove ↔ x ∈ entryY.directBelow)) ∧
      ∀ x entry, final.get? x = some entry → ∀ z,
        z ∈ entry.directBelow ∨ z ∈ entry.below ∨ z ∈ entry.directAbove ∨ z ∈ entry.above →
          final.contains z := by
  intro final
  have closed : final.Closed := closed_run (closed_empty name) edits
  have direct {x y : α} {entry : Entry α} (found : final.get? x = some entry) :
      y ∈ entry.directBelow ↔ final.hasDirectEdge x y := by
    simp [hasDirectEdge_iff, found]
  refine ⟨?_, ?_, ?_⟩
  · intro x y
    have runEdges := hasDirectEdge_run (empty name) edits x y
    exact runEdges.trans (or_iff_right fun edge => nomatch edge)
  · intro x y entryX entryY foundX foundY
    refine ⟨direct foundX, closed.below foundX, ?_, ?_⟩
    · rw [closed.above foundX, closed.below foundY]
    · rw [closed.directAbove foundX, direct foundY]
  · intro x entry found z member
    rcases member with directBelow | below | directAbove | above
    · exact closed.registered ((direct found).1 directBelow)
    · exact closed.contains_target ((closed.below found).1 below)
    · exact contains_of_hasDirectEdge ((closed.directAbove found).1 directAbove)
    · exact ((closed.above found).1 above).contains_source

/-- With the check switched off in between, a node on a cycle is below itself. -/
theorem closure_exact_on_cycle :
    let final : Hierarchy Nat := (empty "order").run
      [.register 1, .register 2, .relate 1 2, .relate 2 1, .checkAcyclic false, .relate 2 1,
        .checkAcyclic true]
    ∃ entry, final.get? 1 = some entry ∧ 1 ∈ entry.below ∧ final.Path 1 1 := by
  refine ⟨_, rfl, by decide, ?_⟩
  exact ((closure_exact "order" _).2.1 1 1 _ _ rfl rfl).2.1.1 (by decide)

end Hierarchy

end ModuleAtlas
