import Mathlib.Data.List.Pairwise
import Mathlib.Data.Option.Basic
import ModuleAtlas.Hierarchy.Graph
import ModuleAtlas.Proofs.Insertion

/-!
# Graphs of direct edges

A graph lists the nodes of a hierarchy and its direct edges between positions of that list; an edge
whose ends are not found there would be passed over.  None is: every end of an edge is registered,
and no node is registered twice.  The closure follows from the direct edges, so the hierarchy can be
built again from its graph, node by node and edge by edge.
-/

namespace ModuleAtlas

namespace Graph

variable {α : Type}

def ends? (graph : Graph α) (edge : Nat × Nat) : Option (α × α) := do
  return (← graph.nodes[edge.1]?, ← graph.nodes[edge.2]?)

theorem ends?_eq_some_iff {graph : Graph α} {edge : Nat × Nat} {pair : α × α} :
    graph.ends? edge = some pair ↔
      graph.nodes[edge.1]? = some pair.1 ∧ graph.nodes[edge.2]? = some pair.2 := by
  obtain ⟨greater, smaller⟩ := pair
  unfold ends?
  cases graph.nodes[edge.1]? with
  | none => simp
  | some x =>
    cases graph.nodes[edge.2]? with
    | none => simp
    | some y => simp

def pairs (graph : Graph α) : List (α × α) := graph.edges.filterMap graph.ends?

/-- One edge leaves an earlier node than another one, or the same node for a smaller target. -/
def Before [LT α] (graph : Graph α) (first second : Nat × Nat) : Prop :=
  first.1 < second.1 ∨ first.1 = second.1 ∧
    ∃ x y, graph.nodes[first.2]? = some x ∧ graph.nodes[second.2]? = some y ∧ x < y

/--
A graph shows a hierarchy: every registered node once, every direct edge once and no other, in the
order of their sources and, out of one source, of their targets.
-/
structure Shows [LT α] [DecidableEq α] (graph : Graph α) (hierarchy : Hierarchy α) : Prop where
  once : graph.nodes.Nodup
  nodes : ∀ x, x ∈ graph.nodes ↔ hierarchy.contains x
  edges : ∀ i j, (i, j) ∈ graph.edges ↔ ∃ x y, graph.nodes[i]? = some x ∧
    graph.nodes[j]? = some y ∧ hierarchy.hasDirectEdge x y
  ends : ∀ x y, hierarchy.hasDirectEdge x y → x ∈ graph.nodes ∧ y ∈ graph.nodes
  single : graph.edges.Nodup
  ascending : graph.edges.Pairwise graph.Before

namespace Shows

variable [LT α] [DecidableEq α] {graph : Graph α} {hierarchy : Hierarchy α}

/-- Every edge has nodes at its ends, so none is lost among the pairs. -/
theorem map_ends (shows : graph.Shows hierarchy) :
    graph.edges.map graph.ends? = graph.pairs.map some := by
  rw [pairs, List.map_filterMap, ← List.filterMap_eq_map]
  refine List.filterMap_congr fun edge listed => ?_
  obtain ⟨x, y, atSource, atTarget, _⟩ := (shows.edges edge.1 edge.2).1 listed
  have isPair : graph.ends? edge = some (x, y) := ends?_eq_some_iff.2 ⟨atSource, atTarget⟩
  rw [Function.comp_apply, isPair, Option.map_some]

theorem mem_pairs (shows : graph.Shows hierarchy) {x y : α} :
    (x, y) ∈ graph.pairs ↔ hierarchy.hasDirectEdge x y := by
  simp only [pairs, List.mem_filterMap, ends?_eq_some_iff, Prod.exists, shows.edges]
  constructor
  · rintro ⟨i, j, ⟨x', y', atSource', atTarget', direct⟩, atSource, atTarget⟩
    obtain rfl := Option.some.inj (atSource.symm.trans atSource')
    obtain rfl := Option.some.inj (atTarget.symm.trans atTarget')
    exact direct
  · intro direct
    obtain ⟨source, target⟩ := shows.ends x y direct
    obtain ⟨i, atSource⟩ := List.mem_iff_getElem?.1 source
    obtain ⟨j, atTarget⟩ := List.mem_iff_getElem?.1 target
    exact ⟨i, j, ⟨x, y, atSource, atTarget, direct⟩, atSource, atTarget⟩

end Shows

end Graph

namespace Hierarchy

/-! ## Registrations of a run -/

section Registrations

variable {α : Type}

def Edit.registered? : Edit α → Option α
  | .register node => some node
  | _ => none

variable [DecidableEq α]

def registrations (edits : List (Edit α)) : List α := (edits.filterMap Edit.registered?).eraseDups

theorem registrations_concat_register (edits : List (Edit α)) (node : α) :
    registrations (edits ++ [.register node]) =
      if node ∈ registrations edits then registrations edits
      else registrations edits ++ [node] := by
  have last : [Edit.register node].filterMap Edit.registered? = [node] := rfl
  rw [registrations, registrations, List.filterMap_append, last, List.eraseDups_append]
  generalize edits.filterMap Edit.registered? = earlier
  simp only [List.mem_eraseDups]
  split
  next known => simp [List.removeAll, known]
  next fresh => simp [List.removeAll, fresh, List.eraseDups_cons]

theorem registrations_concat_other (edits : List (Edit α)) {edit : Edit α}
    (other : edit.registered? = none) : registrations (edits ++ [edit]) = registrations edits := by
  rw [registrations, List.filterMap_append, List.filterMap_cons_none other, List.filterMap_nil,
    List.append_nil, registrations]

end Registrations

variable {α : Type} [LT α] [DecidableEq α]

/-! ## Positions -/

section Positions

variable {hierarchy : Hierarchy α}

/-- A node is found at the position where it is listed. -/
theorem position?_eq_some_iff (once : hierarchy.nodes.Nodup) {x : α} {i : Nat} :
    hierarchy.position? x = some i ↔ hierarchy.nodes[i]? = some x := by
  rw [position?, List.findIdx?_eq_some_iff_getElem]
  simp only [nodes, List.getElem?_map, Option.map_eq_some_iff, decide_eq_true_eq]
  constructor
  · rintro ⟨inside, isNode, _⟩
    exact ⟨_, List.getElem?_eq_getElem inside, isNode⟩
  · rintro ⟨entry, found, isNode⟩
    obtain ⟨inside, rfl⟩ := List.getElem?_eq_some_iff.1 found
    refine ⟨inside, isNode, fun j earlier same => ?_⟩
    have ordered := List.pairwise_iff_getElem.1 once j i (by simp [nodes]; omega)
      (by simpa [nodes] using inside) earlier
    simp only [nodes, List.getElem_map] at ordered
    exact ordered (same.trans isNode.symm)

theorem mem_edgesFrom (once : hierarchy.nodes.Nodup) {entry : Entry α} {source i j : Nat} :
    (i, j) ∈ hierarchy.edgesFrom entry source ↔
      i = source ∧ ∃ y, y ∈ entry.directBelow ∧ hierarchy.nodes[j]? = some y := by
  simp only [edgesFrom, List.mem_filterMap, Option.map_eq_some_iff, Prod.mk.injEq,
    position?_eq_some_iff once, NodeSet.mem_toList]
  constructor
  · rintro ⟨y, direct, k, atTarget, rfl, rfl⟩
    exact ⟨rfl, y, direct, atTarget⟩
  · rintro ⟨rfl, y, direct, atTarget⟩
    exact ⟨y, direct, j, atTarget, rfl, rfl⟩

theorem edgesFrom_ascending (once : hierarchy.nodes.Nodup) (entry : Entry α) (source : Nat) :
    (hierarchy.edgesFrom entry source).Pairwise hierarchy.toGraph.Before := by
  refine List.pairwise_filterMap.2 (entry.directBelow.ascending.imp ?_)
  intro x y less first isFirst second isSecond
  obtain ⟨i, atFirst, rfl⟩ := Option.map_eq_some_iff.1 isFirst
  obtain ⟨j, atSecond, rfl⟩ := Option.map_eq_some_iff.1 isSecond
  exact Or.inr ⟨rfl, x, y, (position?_eq_some_iff once).1 atFirst,
    (position?_eq_some_iff once).1 atSecond, less⟩

theorem toGraph_ascending (once : hierarchy.nodes.Nodup) :
    hierarchy.toGraph.edges.Pairwise hierarchy.toGraph.Before := by
  refine List.pairwise_flatMap.2 ⟨fun listed _ => edgesFrom_ascending once listed.1 listed.2, ?_⟩
  refine List.pairwise_iff_getElem.2 fun i j insideI insideJ earlier => ?_
  rintro ⟨source, _⟩ first ⟨later, _⟩ second
  rw [List.getElem_zipIdx] at first second
  obtain ⟨rfl, _⟩ := (mem_edgesFrom once).1 first
  obtain ⟨rfl, _⟩ := (mem_edgesFrom once).1 second
  exact Or.inl (by simpa using earlier)

theorem mem_toGraph_edges (once : hierarchy.nodes.Nodup) {i j : Nat} :
    (i, j) ∈ hierarchy.toGraph.edges ↔ ∃ x y, hierarchy.nodes[i]? = some x ∧
      hierarchy.nodes[j]? = some y ∧ hierarchy.hasDirectEdge x y := by
  have node {k : Nat} {entry : Entry α} (found : hierarchy.entries[k]? = some entry) :
      hierarchy.nodes[k]? = some entry.node := by
    rw [nodes, List.getElem?_map, found, Option.map_some]
  simp only [toGraph, List.mem_flatMap, List.mem_zipIdx_iff_getElem?, Prod.exists,
    mem_edgesFrom once]
  constructor
  · rintro ⟨entry, source, found, rfl, y, direct, atTarget⟩
    have isEntry := get?_node once (List.mem_of_getElem? found)
    exact ⟨entry.node, y, node found, atTarget, hasDirectEdge_iff.2 ⟨entry, isEntry, direct⟩⟩
  · rintro ⟨x, y, atSource, atTarget, edge⟩
    rw [nodes, List.getElem?_map, Option.map_eq_some_iff] at atSource
    obtain ⟨entry, found, rfl⟩ := atSource
    obtain ⟨other, isOther, direct⟩ := hasDirectEdge_iff.1 edge
    have isEntry := get?_node once (List.mem_of_getElem? found)
    obtain rfl := Option.some.inj (isOther.symm.trans isEntry)
    exact ⟨other, i, found, rfl, y, direct, atTarget⟩

/--
The edges are found by looking up the registered nodes one after another and sorting what each was
declared greater than, in whichever order that is listed.
-/
theorem toGraph_edges_eq [LE α] [DecidableLE α] [Std.IsLinearOrder α] [Std.LawfulOrderLT α]
    (once : hierarchy.nodes.Nodup) {listing : Entry α → List α}
    (lists : ∀ entry, (listing entry).Perm entry.directBelow.toList) :
    hierarchy.toGraph.edges = (hierarchy.nodes.filterMap hierarchy.get?).flatMap fun entry =>
      ((listing entry).mergeSort fun x y => x ≤ y).filterMap fun target => do
        return (← hierarchy.position? entry.node, ← hierarchy.position? target) := by
  rw [filterMap_get? once, toGraph]
  simp only [NodeSet.mergeSort_eq_toList (lists _)]
  conv_rhs => rw [← List.zipIdx_map_fst 0 hierarchy.entries, List.flatMap_map]
  refine List.flatMap_congr fun (entry, source) listed => ?_
  have found : hierarchy.entries[source]? = some entry := List.mem_zipIdx_iff_getElem?.1 listed
  have position : hierarchy.position? entry.node = some source := by
    rw [position?_eq_some_iff once, nodes, List.getElem?_map, found, Option.map_some]
  refine List.filterMap_congr fun target _ => ?_
  rw [position]
  cases hierarchy.position? target with
  | none => rfl
  | some index => rfl

variable [LE α] [Std.LawfulOrderLT α]

theorem nodup_toGraph_edges (once : hierarchy.nodes.Nodup) :
    hierarchy.toGraph.edges.Nodup := by
  refine (toGraph_ascending once).imp ?_
  rintro edge _ (less | ⟨_, x, y, atFirst, atSecond, less⟩) rfl
  · exact Nat.lt_irrefl _ less
  · obtain rfl := Option.some.inj (atFirst.symm.trans atSecond)
    exact Std.lt_irrefl less

theorem shows_toGraph (closed : hierarchy.Closed) (once : hierarchy.nodes.Nodup) :
    hierarchy.toGraph.Shows hierarchy where
  once := once
  nodes _ := contains_iff_mem_nodes.symm
  edges _ _ := mem_toGraph_edges once
  ends _ _ edge := ⟨contains_iff_mem_nodes.1 (contains_of_hasDirectEdge edge),
    contains_iff_mem_nodes.1 (closed.registered edge)⟩
  single := nodup_toGraph_edges once
  ascending := toGraph_ascending once

end Positions

variable [DecidableLT α] [LE α] [Std.IsLinearOrder α] [Std.LawfulOrderLT α]

/-! ## Nodes in the order of registration -/

theorem nodes_run_empty (name : String) (edits : List (Edit α)) :
    ((empty name : Hierarchy α).run edits).nodes = registrations edits := by
  -- The last edit is taken off, for it is registered behind all the others.
  induction edits using List.reverseRecOn with
  | nil => rfl
  | append_singleton edits edit ih =>
    have last : (empty name : Hierarchy α).run (edits ++ [edit]) =
        ((empty name : Hierarchy α).run edits).after edit := List.foldl_append
    rw [last]
    cases edit with
    | register node =>
      change (((empty name : Hierarchy α).run edits).register node).nodes = _
      rw [nodes_register, ih, registrations_concat_register]
    | relate greater smaller =>
      rw [registrations_concat_other edits rfl, ← ih]
      cases outcome : ((empty name : Hierarchy α).run edits).relate greater smaller with
      | ok next => rw [after_relate_ok outcome, nodes_relate outcome]
      | error refusal => rw [after_relate_error outcome]
    | checkAcyclic enabled =>
      rw [registrations_concat_other edits rfl, ← ih]
      rfl

/-! ## Building a hierarchy again -/

def rebuild (start : Hierarchy α) (graph : Graph α) : Except (Refusal α) (Hierarchy α) :=
  (start.run (graph.nodes.map Edit.register)).relateAll graph.pairs

section Registering

variable {start : Hierarchy α} {items : List α}

theorem checkAcyclic_run_register (start : Hierarchy α) (items : List α) :
    (start.run (items.map Edit.register)).checkAcyclic = start.checkAcyclic := by
  induction items generalizing start with
  | nil => rfl
  | cons node rest ih => exact (ih (start.register node)).trans (checkAcyclic_register start node)

theorem hasDirectEdge_run_register (start : Hierarchy α) (items : List α) (x y : α) :
    (start.run (items.map Edit.register)).hasDirectEdge x y = start.hasDirectEdge x y := by
  induction items generalizing start with
  | nil => rfl
  | cons node rest ih =>
    exact (ih (start.register node)).trans (hasDirectEdge_register start node x y)

/-- Different nodes that are all new are registered in order. -/
theorem nodes_run_register (once : (start.nodes ++ items).Nodup) :
    (start.run (items.map Edit.register)).nodes = start.nodes ++ items := by
  induction items generalizing start with
  | nil => exact (List.append_nil _).symm
  | cons node rest ih =>
    have fresh : node ∉ start.nodes := fun known =>
      (List.nodup_append.1 once).2.2 node known node List.mem_cons_self rfl
    have grown : (start.register node).nodes = start.nodes ++ [node] := by
      rw [nodes_register, if_neg fresh]
    have onceNext : ((start.register node).nodes ++ rest).Nodup := by
      rw [grown, List.append_assoc]
      exact once
    have others := ih onceNext
    rw [grown, List.append_assoc] at others
    exact others

end Registering

section Rebuilding

variable {hierarchy : Hierarchy α} {graph : Graph α}

/-- What a graph shows can be built from it unless cycles are looked for and there are some. -/
theorem rebuild_of_shows (closed : hierarchy.Closed) (shows : graph.Shows hierarchy)
    (sameNodes : graph.nodes = hierarchy.nodes) (name : String) {check : Bool}
    (harmless : check → hierarchy.Acyclic) :
    ∃ rebuilt, rebuild ((empty name).withAcyclicCheck check) graph = .ok rebuilt ∧
      rebuilt.entries = hierarchy.entries := by
  -- All nodes come before the first edge, so the edges start from a hierarchy without any.
  let start : Hierarchy α := (empty name).withAcyclicCheck check
  let base := start.run (graph.nodes.map Edit.register)
  have closedBase : base.Closed :=
    closed_run (closed_withAcyclicCheck (closed_empty name) check) _
  have nodesBase : base.nodes = graph.nodes := nodes_run_register shows.once
  have edgesBase (x y : α) : ¬ base.hasDirectEdge x y := by
    rw [hasDirectEdge_run_register]
    exact nofun
  have registered : ∀ pair ∈ graph.pairs, base.contains pair.1 ∧ base.contains pair.2 := by
    rintro ⟨x, y⟩ listed
    rw [contains_iff_mem_nodes, contains_iff_mem_nodes, nodesBase]
    exact shows.ends x y (shows.mem_pairs.1 listed)
  -- A cycle of the listed edges is one of the hierarchy that they are taken from.
  have acyclicWith : base.checkAcyclic → base.AcyclicWith graph.pairs := by
    intro checked x cycle
    rw [checkAcyclic_run_register] at checked
    refine harmless checked x (Relation.TransGen.mono (fun y z edge => ?_) _ _ cycle)
    exact shows.mem_pairs.1 (edge.resolve_left (edgesBase y z))
  obtain ⟨rebuilt, accepted⟩ := relateAll_accepted closedBase registered acyclicWith
  have gains := gains_of_relateAll closedBase accepted
  refine ⟨rebuilt, accepted, ?_⟩
  have once : hierarchy.nodes.Nodup := sameNodes ▸ shows.once
  refine closed.entries_unique gains.closed once ?_ fun x y => ?_
  · rw [gains.nodes, nodesBase, sameNodes]
  · rw [gains.edges, shows.mem_pairs, or_iff_right (edgesBase x y)]

end Rebuilding

/--
The graph of a hierarchy after every run of edits lists the nodes in the order in which they were
registered first, and every direct edge between them, from earlier to later sources and from smaller
to greater targets.  Built again from the graph, with the check for cycles off or, if there is no
cycle, on, every edge is accepted and all nodes have the sets that they had.
-/
theorem graph_rebuilds (name : String) (edits : List (Edit α)) :
    let final : Hierarchy α := (empty name).run edits
    let graph := final.toGraph
    graph.Shows final ∧ graph.nodes = registrations edits ∧
      graph.edges.map graph.ends? = graph.pairs.map some ∧
      ∀ (other : String) (check : Bool), (check → final.Acyclic) →
        ∃ rebuilt, rebuild ((empty other).withAcyclicCheck check) graph = .ok rebuilt ∧
          rebuilt.entries = final.entries := by
  intro final graph
  have closed : final.Closed := closed_run (closed_empty name) edits
  have emptyOnce : (empty name : Hierarchy α).nodes.Nodup := List.nodup_nil
  have once : final.nodes.Nodup := nodup_nodes_run emptyOnce edits
  have shows : graph.Shows final := shows_toGraph closed once
  refine ⟨shows, nodes_run_empty name edits, shows.map_ends, fun other check harmless => ?_⟩
  exact rebuild_of_shows closed shows rfl other harmless

/-- A diamond with a shortcut, built again with the check on, and a cycle, built again without. -/
theorem graph_rebuilds_on_diamond :
    let diamond : Hierarchy Nat := (empty "order").run
      [.register 4, .register 2, .register 4, .register 3, .register 1, .relate 4 3, .relate 4 2,
        .relate 3 1, .relate 4 1, .relate 2 1, .relate 1 4]
    let cycle : Hierarchy Nat := (empty "order").run
      [.checkAcyclic false, .register 2, .register 1, .relate 1 2, .relate 2 1]
    diamond.toGraph = ⟨[4, 2, 3, 1], [(0, 3), (0, 1), (0, 2), (1, 3), (2, 3)]⟩ ∧
      diamond.toGraph.Shows diamond ∧ diamond.Acyclic ∧
      (∃ rebuilt, rebuild ((empty "copy").withAcyclicCheck true) diamond.toGraph = .ok rebuilt ∧
        rebuilt.entries = diamond.entries) ∧
      ∃ rebuilt, rebuild ((empty "copy").withAcyclicCheck false) cycle.toGraph = .ok rebuilt ∧
        rebuilt.entries = cycle.entries := by
  intro diamond cycle
  have neverOff : ∀ earlier ∈ List.inits [.register 4, .register 2, .register 4, .register 3,
      .register 1, .relate 4 3, .relate 4 2, .relate 3 1, .relate 4 1, .relate 2 1, .relate 1 4],
      ((empty "order" : Hierarchy Nat).run earlier).checkAcyclic := by
    decide
  have acyclic : diamond.Acyclic :=
    acyclic_run (closed_empty "order") (acyclic_empty "order")
      fun earlier isPrefix => neverOff earlier ((List.mem_inits earlier _).2 isPrefix)
  obtain ⟨shows, _, _, again⟩ := graph_rebuilds "order" [.register 4, .register 2, .register 4,
    .register 3, .register 1, .relate 4 3, .relate 4 2, .relate 3 1, .relate 4 1, .relate 2 1,
    .relate 1 4]
  obtain ⟨_, _, _, cycleAgain⟩ := graph_rebuilds "order"
    [.checkAcyclic false, .register (2 : Nat), .register 1, .relate 1 2, .relate 2 1]
  refine ⟨by decide, shows, acyclic, again "copy" true fun _ => acyclic, ?_⟩
  exact cycleAgain "copy" false fun looked => absurd looked Bool.false_ne_true

end Hierarchy

end ModuleAtlas
