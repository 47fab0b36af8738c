import Mathlib.Data.List.Nodup
import ModuleAtlas.Proofs.Acyclic

/-!
# Edges in any order

Every edge is checked against the closure as it stands and extends it from there, so the same edges
in another order are other checks and other unions.  What they come to depends on the edges alone.
The closure is exact, so there is only one hierarchy with given nodes and direct edges; and the
edges are all accepted if and only if none of them closes a cycle with the others and those before.
-/

namespace ModuleAtlas

namespace Hierarchy

variable {α : Type} [LT α] [DecidableEq α]

/-- No path along direct edges and further ones leads from a node back to it. -/
def AcyclicWith (hierarchy : Hierarchy α) (pairs : List (α × α)) : Prop :=
  ∀ x, ¬ Relation.TransGen
    (fun greater smaller => hierarchy.hasDirectEdge greater smaller ∨ (greater, smaller) ∈ pairs)
    x x

/-- Nothing leads from the lower end of one of the further edges back to its upper end. -/
theorem AcyclicWith.harmless {hierarchy : Hierarchy α} {pairs : List (α × α)}
    (acyclic : hierarchy.AcyclicWith pairs) {greater smaller : α}
    (listed : (greater, smaller) ∈ pairs) :
    smaller ≠ greater ∧ ¬ hierarchy.Path smaller greater := by
  constructor
  · rintro rfl
    exact acyclic smaller (.single (Or.inr listed))
  · intro back
    refine acyclic greater (.head (Or.inr listed) (Relation.TransGen.mono ?_ _ _ back))
    exact fun _ _ edge => Or.inl edge

/-! ## Nodes are registered once -/

theorem nodup_nodes_register {hierarchy : Hierarchy α} (once : hierarchy.nodes.Nodup) (node : α) :
    (hierarchy.register node).nodes.Nodup := by
  rw [nodes_register]
  split
  next => exact once
  next fresh => simpa using once.concat fresh

/-- An entry is found under its node. -/
theorem get?_node {hierarchy : Hierarchy α} (once : hierarchy.nodes.Nodup) {entry : Entry α}
    (listed : entry ∈ hierarchy.entries) : hierarchy.get? entry.node = some entry := by
  have registered : hierarchy.contains entry.node :=
    contains_iff_mem_nodes.2 (List.mem_map_of_mem listed)
  obtain ⟨other, found⟩ := contains_iff.1 registered
  have same : other = entry :=
    List.inj_on_of_nodup_map once (List.mem_of_find?_eq_some found) listed (node_of_get? found)
  rw [found, same]

/-- Looking up the registered nodes one after another gives the entries. -/
theorem filterMap_get? {hierarchy : Hierarchy α} (once : hierarchy.nodes.Nodup) :
    hierarchy.nodes.filterMap hierarchy.get? = hierarchy.entries := by
  rw [nodes, List.filterMap_map]
  have found : ∀ entry ∈ hierarchy.entries,
      (hierarchy.get? ∘ Entry.node) entry = some entry := fun _ => get?_node once
  rw [List.filterMap_congr found, List.filterMap_some]

/-! ## Hierarchies with the same edges -/

section Same

variable {left right : Hierarchy α}

/-- What the sets of a node say follows from the direct edges. -/
theorem Closed.entry_unique [LE α] [Std.IsLinearOrder α] [Std.LawfulOrderLT α]
    (closedLeft : left.Closed) (closedRight : right.Closed)
    (edges : ∀ x y, right.hasDirectEdge x y ↔ left.hasDirectEdge x y) {x : α}
    {first second : Entry α} (foundLeft : left.get? x = some first)
    (foundRight : right.get? x = some second) : second = first := by
  have paths (y z : α) : right.Path y z ↔ left.Path y z := by
    simp only [Path, edges]
  have direct : second.directBelow = first.directBelow := by
    ext y
    have edge := edges x y
    simpa [hasDirectEdge_iff, foundLeft, foundRight] using edge
  have below : second.below = first.below := by
    ext y
    rw [closedRight.below foundRight, closedLeft.below foundLeft, paths]
  have directAbove : second.directAbove = first.directAbove := by
    ext y
    rw [closedRight.directAbove foundRight, closedLeft.directAbove foundLeft, edges]
  have above : second.above = first.above := by
    ext y
    rw [closedRight.above foundRight, closedLeft.above foundLeft, paths]
  have node : second.node = first.node :=
    (node_of_get? foundRight).trans (node_of_get? foundLeft).symm
  cases first
  cases second
  simp_all only

theorem Closed.entries_unique [LE α] [Std.IsLinearOrder α] [Std.LawfulOrderLT α]
    (closedLeft : left.Closed) (closedRight : right.Closed) (once : left.nodes.Nodup)
    (nodes : right.nodes = left.nodes)
    (edges : ∀ x y, right.hasDirectEdge x y ↔ left.hasDirectEdge x y) :
    right.entries = left.entries := by
  have onceRight : right.nodes.Nodup := nodes ▸ once
  refine List.ext_getElem ?_ fun i insideRight insideLeft => ?_
  · simpa [Hierarchy.nodes] using congrArg List.length nodes
  · have sameNode : right.entries[i].node = left.entries[i].node := by
      have listed : right.nodes[i]? = left.nodes[i]? := by rw [nodes]
      simpa [Hierarchy.nodes, insideLeft, insideRight] using listed
    have foundLeft := get?_node once (List.getElem_mem insideLeft)
    have foundRight := get?_node onceRight (List.getElem_mem insideRight)
    rw [sameNode] at foundRight
    exact closedLeft.entry_unique closedRight edges foundLeft foundRight

end Same

/-! ## What edges change -/

/-- A hierarchy got further edges and is otherwise what it was. -/
structure Gains (before : Hierarchy α) (pairs : List (α × α)) (after : Hierarchy α) : Prop where
  name : after.name = before.name
  checkAcyclic : after.checkAcyclic = before.checkAcyclic
  nodes : after.nodes = before.nodes
  closed : after.Closed
  edges : ∀ x y, after.hasDirectEdge x y ↔ before.hasDirectEdge x y ∨ (x, y) ∈ pairs

namespace Gains

variable {before middle after final : Hierarchy α} {pair : α × α} {pairs rest : List (α × α)}

theorem cons (first : before.Gains [pair] middle) (others : middle.Gains rest after) :
    before.Gains (pair :: rest) after where
  name := others.name.trans first.name
  checkAcyclic := others.checkAcyclic.trans first.checkAcyclic
  nodes := others.nodes.trans first.nodes
  closed := others.closed
  edges x y := by
    rw [others.edges, first.edges, List.mem_singleton, List.mem_cons, or_assoc]

/-- Whether cycles are looked for is no part of what edges change. -/
theorem withAcyclicCheck (gains : before.Gains pairs after) (enabled : Bool) :
    (before.withAcyclicCheck enabled).Gains pairs (after.withAcyclicCheck enabled) :=
  ⟨gains.name, rfl, gains.nodes, closed_withAcyclicCheck gains.closed enabled, gains.edges⟩

theorem acyclic_iff (gains : before.Gains pairs after) :
    after.Acyclic ↔ before.AcyclicWith pairs := by
  simp only [Acyclic, AcyclicWith, Path, gains.edges]

/-- The same edges in whatever order give the same hierarchy. -/
theorem unique [LE α] [Std.IsLinearOrder α] [Std.LawfulOrderLT α] {others : List (α × α)}
    (once : before.nodes.Nodup) (gains : before.Gains pairs after)
    (gainsOthers : before.Gains others final) (same : ∀ pair, pair ∈ others ↔ pair ∈ pairs) :
    final = after := by
  have nodes : final.nodes = after.nodes := gainsOthers.nodes.trans gains.nodes.symm
  have edges (x y : α) : final.hasDirectEdge x y ↔ after.hasDirectEdge x y := by
    rw [gainsOthers.edges, gains.edges, same]
  have onceAfter : after.nodes.Nodup := gains.nodes ▸ once
  have entries := gains.closed.entries_unique gainsOthers.closed onceAfter nodes edges
  have name := gainsOthers.name.trans gains.name.symm
  have checkAcyclic := gainsOthers.checkAcyclic.trans gains.checkAcyclic.symm
  cases final
  cases after
  simp_all only

end Gains

variable [DecidableLT α] [LE α] [Std.IsLinearOrder α] [Std.LawfulOrderLT α]

theorem nodup_nodes_after {hierarchy : Hierarchy α} (once : hierarchy.nodes.Nodup)
    (edit : Edit α) : (hierarchy.after edit).nodes.Nodup := by
  cases edit with
  | register node => exact nodup_nodes_register once node
  | checkAcyclic enabled => exact once
  | relate greater smaller =>
    cases outcome : hierarchy.relate greater smaller with
    | ok next =>
      rw [after_relate_ok outcome, nodes_relate outcome]
      exact once
    | error refusal =>
      rw [after_relate_error outcome]
      exact once

theorem nodup_nodes_run {hierarchy : Hierarchy α} (once : hierarchy.nodes.Nodup)
    (edits : List (Edit α)) : (hierarchy.run edits).nodes.Nodup := by
  induction edits generalizing hierarchy with
  | nil => exact once
  | cons edit rest ih => exact ih (nodup_nodes_after once edit)

/-! ## Adding edges one after another -/

def relateAll (hierarchy : Hierarchy α) (pairs : List (α × α)) :
    Except (Refusal α) (Hierarchy α) :=
  pairs.foldlM (fun current (greater, smaller) => current.relate greater smaller) hierarchy

section Adding

variable {before after final : Hierarchy α} {pair : α × α} {pairs rest : List (α × α)}

theorem relateAll_cons_ok :
    before.relateAll (pair :: rest) = .ok final ↔
      ∃ next, before.relate pair.1 pair.2 = .ok next ∧ next.relateAll rest = .ok final := by
  change before.relate pair.1 pair.2 >>= (fun next => next.relateAll rest) = .ok final ↔ _
  cases before.relate pair.1 pair.2 with
  | error refusal => simp [bind, Except.bind]
  | ok next => simp [bind, Except.bind]

theorem gains_of_relate (closed : before.Closed)
    (accepted : before.relate pair.1 pair.2 = .ok after) : before.Gains [pair] after where
  name := name_relate accepted
  checkAcyclic := checkAcyclic_relate accepted
  nodes := nodes_relate accepted
  closed := closed_relate closed accepted
  edges x y := by
    rw [hasDirectEdge_relate accepted, List.mem_singleton, Prod.ext_iff]

theorem gains_of_relateAll (closed : before.Closed)
    (accepted : before.relateAll pairs = .ok after) : before.Gains pairs after := by
  induction pairs generalizing before with
  | nil =>
    obtain rfl : before = after := Except.ok.inj accepted
    exact ⟨rfl, rfl, rfl, closed, fun x y => by simp⟩
  | cons pair rest ih =>
    obtain ⟨next, first, others⟩ := relateAll_cons_ok.1 accepted
    have gains := gains_of_relate closed first
    exact gains.cons (ih gains.closed others)

/-- A fan that can be added is added as a whole. -/
theorem gains_run_fan (closed : before.Closed) {source : α} {targets : List α}
    (extendable : before.Extendable source targets) :
    before.Gains (targets.map (Prod.mk source)) (before.run (fan source targets)) where
  name := name_run_fan before source targets
  checkAcyclic := checkAcyclic_run_fan before source targets
  nodes := nodes_run_fan before source targets
  closed := closed_run closed _
  edges x y := by
    have listed : (x, y) ∈ targets.map (Prod.mk source) ↔ x = source ∧ y ∈ targets := by
      simp [eq_comm, and_comm]
    rw [hasDirectEdge_run_fan closed extendable, listed]

/-- Edges between registered nodes are accepted if cycles are not looked for or there is none. -/
theorem relateAll_accepted (closed : before.Closed)
    (registered : ∀ pair ∈ pairs, before.contains pair.1 ∧ before.contains pair.2)
    (harmless : before.checkAcyclic → before.AcyclicWith pairs) :
    ∃ final, before.relateAll pairs = .ok final := by
  induction pairs generalizing before with
  | nil => exact ⟨before, rfl⟩
  | cons pair rest ih =>
    obtain ⟨greater, smaller⟩ := pair
    have listed : (greater, smaller) ∈ (greater, smaller) :: rest := List.mem_cons_self
    obtain ⟨known, target⟩ := registered _ listed
    obtain ⟨next, first⟩ :=
      relate_accepted closed known target fun checked => (harmless checked).harmless listed
    have gains : before.Gains [(greater, smaller)] next := gains_of_relate closed first
    have others : ∃ final, next.relateAll rest = .ok final := by
      refine ih gains.closed (fun other member => ?_) fun checked x cycle => ?_
      · rw [contains_relate first, contains_relate first]
        exact registered other (List.mem_cons_of_mem _ member)
      · -- what the first edge and the others close together, all of them close
        refine harmless (gains.checkAcyclic ▸ checked) x
          (Relation.TransGen.mono (fun y z edge => ?_) _ _ cycle)
        rw [gains.edges, List.mem_singleton, or_assoc, ← List.mem_cons] at edge
        exact edge
    obtain ⟨final, others⟩ := others
    exact ⟨final, relateAll_cons_ok.2 ⟨next, first, others⟩⟩

/-- Edges that all passed the check close no cycle. -/
theorem acyclic_of_relateAll (closed : before.Closed) (checked : before.checkAcyclic)
    (acyclic : before.Acyclic) (accepted : before.relateAll pairs = .ok after) :
    after.Acyclic := by
  induction pairs generalizing before with
  | nil =>
    obtain rfl : before = after := Except.ok.inj accepted
    exact acyclic
  | cons pair rest ih =>
    obtain ⟨next, first, others⟩ := relateAll_cons_ok.1 accepted
    refine ih (closed_relate closed first) ?_ ?_ others
    · rw [checkAcyclic_relate first]
      exact checked
    · exact fun x cycle => acyclic x (cycle_of_relate closed checked first cycle)

theorem relateAll_accepted_iff (closed : before.Closed) (checked : before.checkAcyclic)
    (acyclic : before.Acyclic)
    (registered : ∀ pair ∈ pairs, before.contains pair.1 ∧ before.contains pair.2) :
    (∃ final, before.relateAll pairs = .ok final) ↔ before.AcyclicWith pairs := by
  constructor
  · rintro ⟨final, accepted⟩
    have finalAcyclic := acyclic_of_relateAll closed checked acyclic accepted
    exact (gains_of_relateAll closed accepted).acyclic_iff.1 finalAcyclic
  · exact fun acyclicWith => relateAll_accepted closed registered fun _ => acyclicWith

end Adding

/--
After a run with the check on all the time, edges between registered nodes are accepted one after
another if and only if they close no cycle together with the edges that there are already.  Then
they are accepted in every other order as well, and with the check off, and every order ends in the
same hierarchy: all four sets of every node are the same.
-/
theorem insertion_order_free (name : String) (edits : List (Edit α))
    (checked : ∀ earlier, earlier <+: edits →
      ((empty name : Hierarchy α).run earlier).checkAcyclic)
    (pairs : List (α × α)) :
    let start : Hierarchy α := (empty name).run edits
    (∀ pair ∈ pairs, start.contains pair.1 ∧ start.contains pair.2) →
      ((∃ final, start.relateAll pairs = .ok final) ↔ start.AcyclicWith pairs) ∧
      ∀ final, start.relateAll pairs = .ok final → ∀ others : List (α × α), others.Perm pairs →
        start.relateAll others = .ok final ∧
          (start.withAcyclicCheck false).relateAll others =
            .ok (final.withAcyclicCheck false) := by
  intro start registered
  have closed : start.Closed := closed_run (closed_empty name) edits
  have emptyOnce : (empty name : Hierarchy α).nodes.Nodup := List.nodup_nil
  have once : start.nodes.Nodup := nodup_nodes_run emptyOnce edits
  have looked : start.checkAcyclic := checked edits List.prefix_rfl
  have acyclic : start.Acyclic := acyclic_run (closed_empty name) (acyclic_empty name) checked
  have accepted_iff := relateAll_accepted_iff closed looked acyclic registered
  refine ⟨accepted_iff, fun final accepted others perm => ?_⟩
  have gains := gains_of_relateAll closed accepted
  have same (pair : α × α) : pair ∈ others ↔ pair ∈ pairs := perm.mem_iff
  have registeredOthers :
      ∀ pair ∈ others, start.contains pair.1 ∧ start.contains pair.2 :=
    fun pair listed => registered pair ((same pair).1 listed)
  constructor
  · have acyclicWith : start.AcyclicWith others := by
      simp only [AcyclicWith, same]
      exact accepted_iff.1 ⟨final, accepted⟩
    obtain ⟨other, acceptedOther⟩ :=
      relateAll_accepted closed registeredOthers fun _ => acyclicWith
    rw [acceptedOther, gains.unique once (gains_of_relateAll closed acceptedOther) same]
  · have closedUnchecked := closed_withAcyclicCheck closed false
    have unchecked : ¬ (start.withAcyclicCheck false).checkAcyclic := Bool.false_ne_true
    obtain ⟨other, acceptedOther⟩ :=
      relateAll_accepted closedUnchecked registeredOthers fun looked => absurd looked unchecked
    have gainsOther := gains_of_relateAll closedUnchecked acceptedOther
    have onceUnchecked : (start.withAcyclicCheck false).nodes.Nodup := once
    rw [acceptedOther, (gains.withAcyclicCheck false).unique onceUnchecked gainsOther same]

/-- The two ways around a diamond in two orders, and an edge back that no order admits. -/
theorem insertion_order_free_on_diamond :
    let start : Hierarchy Nat := (empty "order").run
      [.register 1, .register 2, .register 3, .register 4, .relate 1 2]
    let pairs := [(2, 4), (1, 3), (3, 4), (2, 4)]
    let others := [(3, 4), (2, 4), (2, 4), (1, 3)]
    (∃ final, start.relateAll pairs = .ok final ∧ start.relateAll others = .ok final ∧
      (start.withAcyclicCheck false).relateAll others = .ok (final.withAcyclicCheck false)) ∧
      start.AcyclicWith pairs ∧ ¬ start.AcyclicWith [(4, 1), (2, 4)] := by
  intro start pairs others
  have neverOff : ∀ earlier ∈ List.inits [.register 1, .register 2, .register 3, .register 4,
      .relate 1 2], ((empty "order" : Hierarchy Nat).run earlier).checkAcyclic := by
    decide
  have checked (earlier : List (Edit Nat)) (isPrefix : earlier <+: [.register 1, .register 2,
      .register 3, .register 4, .relate 1 2]) :=
    neverOff earlier ((List.mem_inits earlier _).2 isPrefix)
  obtain ⟨accepted_iff, ends⟩ := insertion_order_free "order" _ checked pairs (by decide)
  obtain ⟨back_iff, _⟩ := insertion_order_free "order" _ checked [(4, 1), (2, 4)] (by decide)
  have accepted : start.relateAll pairs = .ok _ := rfl
  refine ⟨⟨_, accepted, ends _ accepted others (by decide)⟩, accepted_iff.1 ⟨_, accepted⟩, ?_⟩
  intro acyclicWith
  obtain ⟨final, admitted⟩ := back_iff.2 acyclicWith
  cases admitted

end Hierarchy

end ModuleAtlas
