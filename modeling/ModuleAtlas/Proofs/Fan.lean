import ModuleAtlas.Proofs.Closure

/-!
# Edges out of one node

A module gets its imports, and a default module its members, as several edges out of one node.
Whether they close a cycle can be told before the first of them is added: edges out of a node do
not help any path to come back to it.
-/

namespace ModuleAtlas

namespace Hierarchy

variable {α : Type}

def fan (source : α) (targets : List α) : List (Edit α) := targets.map (Edit.relate source)

theorem mem_fan {source x y : α} {targets : List α} :
    .relate x y ∈ fan source targets ↔ x = source ∧ y ∈ targets := by
  simp only [fan, List.mem_map, Edit.relate.injEq]
  constructor
  · rintro ⟨target, member, rfl, rfl⟩
    exact ⟨rfl, member⟩
  · rintro ⟨rfl, member⟩
    exact ⟨y, member, rfl, rfl⟩

variable [LT α] [DecidableEq α]
variable [DecidableLT α] [LE α] [Std.IsLinearOrder α] [Std.LawfulOrderLT α]

/-! ## One edge -/

section Relate

variable {hierarchy next : Hierarchy α} {greater smaller : α}

theorem path_relate (accepted : hierarchy.relate greater smaller = .ok next) {x y : α} :
    next.Path x y ↔
      hierarchy.Path x y ∨ hierarchy.Reaches x greater ∧ hierarchy.Reaches smaller y := by
  rcases relate_cases accepted with ⟨present, rfl⟩ | ⟨upper, lower, upperFound, lowerFound, rfl⟩
  · constructor
    · exact Or.inl
    · rintro (path | ⟨before, after⟩)
      · exact path
      · exact (Relation.TransGen.tail' before present).trans_left after
  · exact path_join upperFound lowerFound

theorem nodes_relate (accepted : hierarchy.relate greater smaller = .ok next) :
    next.nodes = hierarchy.nodes := by
  rcases relate_cases accepted with ⟨_, rfl⟩ | ⟨upper, lower, _, _, rfl⟩
  · rfl
  · exact nodes_join hierarchy upper lower

theorem contains_relate (accepted : hierarchy.relate greater smaller = .ok next) {x : α} :
    next.contains x ↔ hierarchy.contains x := by
  rw [contains_iff_mem_nodes, contains_iff_mem_nodes, nodes_relate accepted]

theorem checkAcyclic_relate (accepted : hierarchy.relate greater smaller = .ok next) :
    next.checkAcyclic = hierarchy.checkAcyclic := by
  rcases relate_cases accepted with ⟨_, rfl⟩ | ⟨upper, lower, _, _, rfl⟩
  · rfl
  · rfl

theorem name_relate (accepted : hierarchy.relate greater smaller = .ok next) :
    next.name = hierarchy.name := by
  rcases relate_cases accepted with ⟨_, rfl⟩ | ⟨upper, lower, _, _, rfl⟩
  · rfl
  · rfl

/-- An edge between registered nodes is accepted unless it closes a cycle that is looked for. -/
theorem relate_accepted (closed : hierarchy.Closed) (known : hierarchy.contains greater)
    (target : hierarchy.contains smaller)
    (harmless : hierarchy.checkAcyclic → smaller ≠ greater ∧ ¬ hierarchy.Path smaller greater) :
    ∃ next, hierarchy.relate greater smaller = .ok next := by
  obtain ⟨upper, upperFound⟩ := contains_iff.1 known
  obtain ⟨lower, lowerFound⟩ := contains_iff.1 target
  by_cases present : smaller ∈ upper.directBelow
  · refine ⟨hierarchy, relate_eq_ok_iff.2 ⟨upper, lower, upperFound, lowerFound, ?_⟩⟩
    rw [if_pos present]
  · refine ⟨hierarchy.join upper lower,
      relate_eq_ok_iff.2 ⟨upper, lower, upperFound, lowerFound, ?_⟩⟩
    rw [if_neg present]
    refine ⟨?_, rfl⟩
    rintro ⟨checked, same | back⟩
    · exact (harmless checked).1 same.symm
    · exact (harmless checked).2 ((closed.below lowerFound).1 back)

end Relate

/-! ## Several edges -/

/-- What has to hold for the edges from a node to others to be accepted one after another. -/
structure Extendable (hierarchy : Hierarchy α) (source : α) (targets : List α) : Prop where
  sourceKnown : hierarchy.contains source
  targetsKnown : ∀ target ∈ targets, hierarchy.contains target
  harmless : hierarchy.checkAcyclic → ∀ target ∈ targets,
    target ≠ source ∧ ¬ hierarchy.Path target source

namespace Extendable

variable {hierarchy : Hierarchy α} {source target : α} {rest : List α}

/-- The first edge is accepted, and the others still can be added after it. -/
theorem step (closed : hierarchy.Closed)
    (extendable : hierarchy.Extendable source (target :: rest)) :
    ∃ next, hierarchy.relate source target = .ok next ∧ next.Extendable source rest := by
  have first : target ∈ target :: rest := List.mem_cons_self
  obtain ⟨next, accepted⟩ := relate_accepted closed extendable.sourceKnown
    (extendable.targetsKnown target first) fun checked => extendable.harmless checked target first
  refine ⟨next, accepted, ?_, ?_, ?_⟩
  · exact (contains_relate accepted).2 extendable.sourceKnown
  · intro other member
    exact (contains_relate accepted).2
      (extendable.targetsKnown other (List.mem_cons_of_mem _ member))
  · intro checked other member
    rw [checkAcyclic_relate accepted] at checked
    obtain ⟨different, noPath⟩ :=
      extendable.harmless checked other (List.mem_cons_of_mem _ member)
    refine ⟨different, fun path => ?_⟩
    -- a path back that uses the new edge would have reached the source before using it
    rcases (path_relate accepted).1 path with old | ⟨before, _⟩
    · exact noPath old
    · rcases reaches_iff.1 before with same | old
      · exact different same.symm
      · exact noPath old

end Extendable

/-- What every accepted edge of a fan keeps holds after the fan. -/
theorem run_fan_induction {motive : Hierarchy α → Prop} {source : α}
    (kept : ∀ {hierarchy next target}, motive hierarchy →
      hierarchy.relate source target = .ok next → motive next)
    {hierarchy : Hierarchy α} (targets : List α) (start : motive hierarchy) :
    motive (hierarchy.run (fan source targets)) := by
  induction targets generalizing hierarchy with
  | nil => exact start
  | cons target rest ih =>
    change motive ((hierarchy.after (.relate source target)).run (fan source rest))
    cases outcome : hierarchy.relate source target with
    | ok next =>
      rw [after_relate_ok outcome]
      exact ih (kept start outcome)
    | error refusal =>
      rw [after_relate_error outcome]
      exact ih start

theorem nodes_run_fan (hierarchy : Hierarchy α) (source : α) (targets : List α) :
    (hierarchy.run (fan source targets)).nodes = hierarchy.nodes :=
  run_fan_induction (motive := fun current => current.nodes = hierarchy.nodes)
    (fun same accepted => (nodes_relate accepted).trans same) targets rfl

theorem checkAcyclic_run_fan (hierarchy : Hierarchy α) (source : α) (targets : List α) :
    (hierarchy.run (fan source targets)).checkAcyclic = hierarchy.checkAcyclic :=
  run_fan_induction (motive := fun current => current.checkAcyclic = hierarchy.checkAcyclic)
    (fun same accepted => (checkAcyclic_relate accepted).trans same) targets rfl

theorem name_run_fan (hierarchy : Hierarchy α) (source : α) (targets : List α) :
    (hierarchy.run (fan source targets)).name = hierarchy.name :=
  run_fan_induction (motive := fun current => current.name = hierarchy.name)
    (fun same accepted => (name_relate accepted).trans same) targets rfl

theorem run_fan_cons {hierarchy next : Hierarchy α} {source target : α} {rest : List α}
    (accepted : hierarchy.relate source target = .ok next) :
    hierarchy.run (fan source (target :: rest)) = next.run (fan source rest) := by
  change (hierarchy.after (.relate source target)).run (fan source rest) = _
  rw [after_relate_ok accepted]

/-- A fan that can be added adds its edges and no others. -/
theorem hasDirectEdge_run_fan {hierarchy : Hierarchy α} (closed : hierarchy.Closed) {source : α}
    {targets : List α} (extendable : hierarchy.Extendable source targets) {x y : α} :
    (hierarchy.run (fan source targets)).hasDirectEdge x y ↔
      hierarchy.hasDirectEdge x y ∨ x = source ∧ y ∈ targets := by
  induction targets generalizing hierarchy with
  | nil => simp [fan, run]
  | cons target rest ih =>
    obtain ⟨next, accepted, further⟩ := extendable.step closed
    rw [run_fan_cons accepted, ih (closed_relate closed accepted) further,
      hasDirectEdge_relate accepted, List.mem_cons, or_assoc, ← and_or_left]

end Hierarchy

end ModuleAtlas
