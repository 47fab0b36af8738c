import ModuleAtlas.Hierarchy.Basic

/-!
# Entries after an operation

A hierarchy is known by the entry that it gives for each node.  Registering a node adds an isolated
entry for it, an edge joins all entries, and nothing else changes what is found.
-/

namespace ModuleAtlas

namespace Hierarchy

variable {α : Type} [LT α] [DecidableEq α]

/-! ## Looking up -/

/-- The entry that is found for a node is the entry of that node. -/
theorem node_of_get? {hierarchy : Hierarchy α} {node : α} {entry : Entry α}
    (found : hierarchy.get? node = some entry) : entry.node = node := by
  have holds := List.find?_some found
  exact of_decide_eq_true holds

/-- A node is registered if and only if it is listed. -/
theorem contains_iff_mem_nodes {hierarchy : Hierarchy α} {node : α} :
    hierarchy.contains node = true ↔ node ∈ hierarchy.nodes := by
  simp [contains, get?, nodes]

/-- Looking up an entry succeeds with what is found and fails otherwise. -/
theorem entry_eq_ok_iff {hierarchy : Hierarchy α} {node : α} {entry : Entry α} :
    hierarchy.entry node = .ok entry ↔ hierarchy.get? node = some entry := by
  unfold Hierarchy.entry
  cases found : hierarchy.get? node with
  | none => simp
  | some other => simp

/-! ## Registering -/

/-- Registering a node adds its isolated entry unless an entry is there. -/
theorem get?_register (hierarchy : Hierarchy α) (node other : α) :
    (hierarchy.register node).get? other =
      (hierarchy.get? other).or (if node = other then some (.isolated node) else none) := by
  unfold register
  by_cases known : hierarchy.contains node
  · rw [if_pos known]
    by_cases same : node = other
    · subst same
      obtain ⟨entry, found⟩ := Option.isSome_iff_exists.1 known
      simp [found]
    · simp [same]
  · rw [if_neg known]
    simp only [get?, List.find?_append, List.find?_singleton, Entry.isolated, decide_eq_true_eq]

/-- Registering puts a new node behind all others. -/
theorem nodes_register (hierarchy : Hierarchy α) (node : α) :
    (hierarchy.register node).nodes =
      if node ∈ hierarchy.nodes then hierarchy.nodes else hierarchy.nodes ++ [node] := by
  unfold register
  by_cases known : hierarchy.contains node
  · rw [if_pos known, if_pos (contains_iff_mem_nodes.1 known)]
  · rw [if_neg known, if_neg (fun listed => known (contains_iff_mem_nodes.2 listed))]
    simp [nodes, Entry.isolated]

/-! ## Joining -/

variable [DecidableLT α] [LE α] [Std.IsLinearOrder α] [Std.LawfulOrderLT α]

/-- An edge joins every entry. -/
theorem get?_join (hierarchy : Hierarchy α) (upper lower : Entry α) (node : α) :
    (hierarchy.join upper lower).get? node =
      (hierarchy.get? node).map (Entry.joined upper lower) := by
  simp only [get?, join, List.find?_map]
  rfl

/-- An edge registers no node. -/
theorem nodes_join (hierarchy : Hierarchy α) (upper lower : Entry α) :
    (hierarchy.join upper lower).nodes = hierarchy.nodes := by
  simp only [nodes, join, List.map_map]
  rfl

/-! ## Relating -/

/-- When an edge is accepted, and what becomes of the hierarchy. -/
theorem relate_eq_ok_iff {hierarchy next : Hierarchy α} {greater smaller : α} :
    hierarchy.relate greater smaller = .ok next ↔
      ∃ upper lower, hierarchy.get? greater = some upper ∧ hierarchy.get? smaller = some lower ∧
        if smaller ∈ upper.directBelow then next = hierarchy
        else ¬ (hierarchy.checkAcyclic ∧ (greater = smaller ∨ greater ∈ lower.below)) ∧
          next = hierarchy.join upper lower := by
  unfold relate Hierarchy.entry
  cases hierarchy.get? greater with
  | none => simp [bind, Except.bind]
  | some upper =>
    cases hierarchy.get? smaller with
    | none => simp [bind, Except.bind]
    | some lower =>
      simp only [bind, Except.bind, Option.some.injEq, exists_and_left, exists_eq_left']
      by_cases present : smaller ∈ upper.directBelow
      · simp [present, pure, Except.pure, eq_comm]
      · by_cases closes : hierarchy.checkAcyclic ∧ (greater = smaller ∨ greater ∈ lower.below)
        · rw [if_neg present, if_neg present, if_pos closes]
          exact ⟨fun refused => (nomatch refused), fun accepted => absurd closes accepted.1⟩
        · rw [if_neg present, if_neg present, if_neg closes]
          exact ⟨fun accepted => ⟨closes, (Except.ok.inj accepted).symm⟩,
            fun joined => congrArg Except.ok joined.2.symm⟩

/-- When an edge is refused for a cycle. -/
theorem relate_eq_cycle_iff {hierarchy : Hierarchy α} {greater smaller : α} :
    hierarchy.relate greater smaller = .error (.cycle greater smaller) ↔
      ∃ upper lower, hierarchy.get? greater = some upper ∧ hierarchy.get? smaller = some lower ∧
        ¬ smaller ∈ upper.directBelow ∧
        hierarchy.checkAcyclic ∧ (greater = smaller ∨ greater ∈ lower.below) := by
  unfold relate Hierarchy.entry
  cases hierarchy.get? greater with
  | none => simp [bind, Except.bind]
  | some upper =>
    cases hierarchy.get? smaller with
    | none => simp [bind, Except.bind]
    | some lower =>
      simp only [bind, Except.bind, Option.some.injEq, exists_and_left, exists_eq_left']
      by_cases present : smaller ∈ upper.directBelow
      · simp [present, pure, Except.pure]
      · by_cases closes : hierarchy.checkAcyclic ∧ (greater = smaller ∨ greater ∈ lower.below)
        · rw [if_neg present, if_pos closes]
          exact ⟨fun _ => ⟨present, closes⟩, fun _ => rfl⟩
        · rw [if_neg present, if_neg closes]
          exact ⟨fun refused => (nomatch refused), fun refused => absurd refused.2 closes⟩

end Hierarchy

end ModuleAtlas
