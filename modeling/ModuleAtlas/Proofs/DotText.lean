import ModuleAtlas.Hierarchy.Dot
import ModuleAtlas.Proofs.Export

/-!
# Reading DOT text back

Every part of the text tells where it ends.  A label ends at the first quote that is not escaped, a
position at the first blank, and after its first position a line goes on either as the line of a
node or as that of an edge; only the last line starts without a blank.  So one text has one reading,
whatever the labels hold.
-/

namespace ModuleAtlas

namespace Dot

/-- What a text starts with determines one value and the rest of the text. -/
def SelfDelimiting {α : Type} (code : α → List Char) : Prop :=
  ∀ ⦃x y : α⦄ ⦃rest others : List Char⦄,
    code x ++ rest = code y ++ others → x = y ∧ rest = others

/-- Codes in a row can be told apart up to a mark that none of them starts with. -/
theorem SelfDelimiting.row {α : Type} {code : α → List Char} {mark : List Char}
    (delimiting : SelfDelimiting code)
    (apart : ∀ x rest others, code x ++ rest ≠ mark ++ others) :
    SelfDelimiting fun row : List α => row.flatMap code ++ mark := by
  intro row row' rest others same
  simp only [List.append_assoc] at same
  -- Both rows are read together: neither can end while the other one goes on.
  induction row generalizing row' with
  | nil =>
    cases row' with
    | nil => exact ⟨rfl, List.append_cancel_left same⟩
    | cons y ys =>
      rw [List.flatMap_cons, List.append_assoc] at same
      exact absurd same.symm (apart y _ _)
  | cons x xs ih =>
    rw [List.flatMap_cons, List.append_assoc] at same
    cases row' with
    | nil => exact absurd same (apart x _ _)
    | cons y ys =>
      rw [List.flatMap_cons, List.append_assoc] at same
      obtain ⟨rfl, sameRest⟩ := delimiting same
      obtain ⟨rfl, sameOthers⟩ := ih sameRest
      exact ⟨rfl, sameOthers⟩

/-! ## Labels -/

/-- A letter stands for itself unless it is a quote, a backslash or a line break. -/
theorem escape_cases (letter : Char) :
    letter = '"' ∧ escape letter = ['\\', '"'] ∨ letter = '\\' ∧ escape letter = ['\\', '\\'] ∨
      letter = '\n' ∧ escape letter = ['\\', 'l'] ∨
      letter ≠ '"' ∧ letter ≠ '\\' ∧ escape letter = [letter] := by
  unfold escape
  split <;> simp_all

theorem escape_selfDelimiting : SelfDelimiting escape := by
  intro x y rest others same
  -- Escapes start with a backslash and differ in their second letter; no plain letter is one.
  obtain ⟨rfl, codeX⟩ | ⟨rfl, codeX⟩ | ⟨rfl, codeX⟩ | ⟨_, plainX, codeX⟩ := escape_cases x <;>
    obtain ⟨rfl, codeY⟩ | ⟨rfl, codeY⟩ | ⟨rfl, codeY⟩ | ⟨_, plainY, codeY⟩ := escape_cases y <;>
    grind

/-- No letter of a label is written as the quote that closes it. -/
theorem escape_append_ne_quote (letter : Char) (rest others : List Char) :
    escape letter ++ rest ≠ ['"'] ++ others := by
  obtain ⟨_, code⟩ | ⟨_, code⟩ | ⟨_, code⟩ | ⟨notQuote, _, code⟩ := escape_cases letter <;>
    grind

theorem quoted_selfDelimiting : SelfDelimiting quoted := by
  intro first second rest others same
  simp only [quoted, List.cons_append] at same
  obtain ⟨letters, sameRest⟩ :=
    escape_selfDelimiting.row escape_append_ne_quote (List.cons.inj same).2
  exact ⟨String.toList_inj.1 letters, sameRest⟩

/-! ## Positions -/

theorem ofDigitChars_decimal (position : Nat) :
    Nat.ofDigitChars 10 (decimal position) 0 = position :=
  Nat.ofDigitChars_toDigits (by decide) (by decide)

/-- A position in front of a blank is what comes before the first letter that is no digit. -/
theorem takeWhile_decimal (position : Nat) (rest : List Char) :
    (decimal position ++ ' ' :: rest).takeWhile Char.isDigit = decimal position := by
  have digits : ∀ letter ∈ decimal position, letter.isDigit := fun _ listed =>
    Nat.isDigit_of_mem_toDigits (by decide) (by decide) listed
  have blank : ¬ ' '.isDigit := by decide
  rw [List.takeWhile_append_of_pos digits, List.takeWhile_cons_of_neg blank, List.append_nil]

theorem decimal_append_blank {first second : Nat} {rest others : List Char}
    (same : decimal first ++ ' ' :: rest = decimal second ++ ' ' :: others) :
    first = second ∧ rest = others := by
  have sameDigits : decimal first = decimal second := by
    rw [← takeWhile_decimal first rest, same, takeWhile_decimal]
  have samePosition : first = second := by
    rw [← ofDigitChars_decimal first, sameDigits, ofDigitChars_decimal]
  rw [sameDigits] at same
  exact ⟨samePosition, (List.cons.inj (List.append_cancel_left same)).2⟩

/-! ## Lines -/

inductive Line where
  | node (position : Nat) (label : String)
  | edge (ends : Nat × Nat)

namespace Line

def letters : Line → List Char
  | node position label => nodeLine position label
  | edge ends => edgeLine ends

def label? : Line → Option String
  | node _ label => some label
  | edge _ => none

def ends? : Line → Option (Nat × Nat)
  | node _ _ => none
  | edge ends => some ends

end Line

/-- The line of a node from its margin on, with the blank behind the position by itself. -/
theorem nodeLine_append (position : Nat) (label : String) (rest : List Char) :
    nodeLine position label ++ rest = "    ".toList ++ (decimal position ++ ' ' ::
      ("[ label = ".toList ++ (quoted label ++ (" ]\n".toList ++ rest)))) := by
  -- The literals get names, for rewriting would open them letter by letter.
  change "    ".toList ++ decimal position ++ (' ' :: "[ label = ".toList) ++ quoted label ++
    " ]\n".toList ++ rest = _
  generalize "    ".toList = margin, "[ label = ".toList = name, " ]\n".toList = closing
  simp only [List.append_assoc, List.cons_append]

theorem edgeLine_append (ends : Nat × Nat) (rest : List Char) :
    edgeLine ends ++ rest = "    ".toList ++ (decimal ends.1 ++ ' ' ::
      ("-> ".toList ++ (decimal ends.2 ++ ' ' :: ("[ ]\n".toList ++ rest)))) := by
  change "    ".toList ++ decimal ends.1 ++ (' ' :: "-> ".toList) ++ decimal ends.2 ++
    (' ' :: "[ ]\n".toList) ++ rest = _
  generalize "    ".toList = margin, "-> ".toList = arrow, "[ ]\n".toList = closing
  simp only [List.append_assoc, List.cons_append]

/-- After its first position a line goes on with a blank, and then in the way of its kind. -/
theorem line_selfDelimiting : SelfDelimiting Line.letters := by
  intro first second rest others same
  cases first with
  | node position label =>
    cases second with
    | node position' label' =>
      simp only [Line.letters, nodeLine_append] at same
      obtain ⟨rfl, sameTail⟩ := decimal_append_blank (List.append_cancel_left same)
      obtain ⟨rfl, sameRest⟩ := quoted_selfDelimiting (List.append_cancel_left sameTail)
      exact ⟨rfl, List.append_cancel_left sameRest⟩
    | edge ends =>
      simp only [Line.letters, nodeLine_append, edgeLine_append] at same
      obtain ⟨_, sameTail⟩ := decimal_append_blank (List.append_cancel_left same)
      exact absurd (List.cons.inj sameTail).1 (by decide)
  | edge ends =>
    cases second with
    | node position label =>
      simp only [Line.letters, nodeLine_append, edgeLine_append] at same
      obtain ⟨_, sameTail⟩ := decimal_append_blank (List.append_cancel_left same)
      exact absurd (List.cons.inj sameTail).1 (by decide)
    | edge ends' =>
      simp only [Line.letters, edgeLine_append] at same
      obtain ⟨sources, sameTail⟩ := decimal_append_blank (List.append_cancel_left same)
      obtain ⟨targets, sameRest⟩ := decimal_append_blank (List.append_cancel_left sameTail)
      exact ⟨congrArg Line.edge (Prod.ext sources targets), List.append_cancel_left sameRest⟩

theorem line_starts_blank (line : Line) : ∃ tail, line.letters = ' ' :: tail := by
  cases line with
  | node position label => exact ⟨_, rfl⟩
  | edge ends => exact ⟨_, rfl⟩

theorem line_append_ne_closing (line : Line) (rest others : List Char) :
    line.letters ++ rest ≠ "\x7d\n".toList ++ others := by
  obtain ⟨tail, starts⟩ := line_starts_blank line
  rw [starts]
  intro same
  exact absurd (List.cons.inj same).1 (by decide)

end Dot

/-! ## Whole graphs -/

namespace Graph

def lines (graph : Graph String) : List Dot.Line :=
  (graph.nodes.zipIdx.map fun (label, position) => .node position label) ++
    graph.edges.map .edge

theorem labels_lines (graph : Graph String) :
    graph.lines.filterMap Dot.Line.label? = graph.nodes := by
  rw [lines, List.filterMap_append, List.filterMap_map, List.filterMap_map]
  have fromNodes : graph.nodes.zipIdx.filterMap (some ∘ Prod.fst) = graph.nodes := by
    rw [List.filterMap_eq_map, List.zipIdx_map_fst]
  have fromEdges : (graph.edges.filterMap fun _ => none : List String) = [] :=
    List.filterMap_none graph.edges
  exact (congrArg₂ (· ++ ·) fromNodes fromEdges).trans (List.append_nil _)

theorem ends_lines (graph : Graph String) :
    graph.lines.filterMap Dot.Line.ends? = graph.edges := by
  rw [lines, List.filterMap_append, List.filterMap_map, List.filterMap_map]
  have fromNodes : (graph.nodes.zipIdx.filterMap fun _ => none : List (Nat × Nat)) = [] :=
    List.filterMap_none graph.nodes.zipIdx
  have fromEdges : graph.edges.filterMap some = graph.edges := List.filterMap_some
  exact congrArg₂ (· ++ ·) fromNodes fromEdges

theorem flatMap_lines (graph : Graph String) :
    graph.lines.flatMap Dot.Line.letters =
      Dot.nodeLines graph.nodes ++ graph.edges.flatMap Dot.edgeLine := by
  rw [lines, List.flatMap_append, List.flatMap_map, List.flatMap_map]
  rfl

theorem letters_eq_lines (graph : Graph String) :
    Dot.letters graph =
      "digraph \x7b\n".toList ++ (graph.lines.flatMap Dot.Line.letters ++ "\x7d\n".toList) := by
  rw [flatMap_lines]
  unfold Dot.letters
  -- Named for the same reason as in the lines.
  generalize "digraph \x7b\n".toList = opening
  generalize "\x7d\n".toList = closing
  simp only [List.append_assoc]

/-- One text stands for one graph. -/
theorem toDot_injective {first second : Graph String} (same : first.toDot = second.toDot) :
    first = second := by
  have sameLetters : Dot.letters first = Dot.letters second := String.ofList_injective same
  rw [letters_eq_lines, letters_eq_lines] at sameLetters
  have sameRow := congrArg (· ++ []) (List.append_cancel_left sameLetters)
  obtain ⟨sameLines, _⟩ := Dot.line_selfDelimiting.row Dot.line_append_ne_closing sameRow
  have sameNodes : first.nodes = second.nodes := by
    rw [← labels_lines first, sameLines, labels_lines]
  have sameEdges : first.edges = second.edges := by
    rw [← ends_lines first, sameLines, ends_lines]
  obtain ⟨nodes, edges⟩ := first
  cases sameNodes
  cases sameEdges
  rfl

end Graph

/-! ## Hierarchies -/

namespace Hierarchy

section Reading

variable {α β : Type} [LT α] [DecidableEq α] [LT β] [DecidableEq β]

/-- A direct edge leads from the node registered at one position to the node at the other. -/
def Joins (hierarchy : Hierarchy α) (i j : Nat) : Prop :=
  ∃ x y, hierarchy.nodes[i]? = some x ∧ hierarchy.nodes[j]? = some y ∧ hierarchy.hasDirectEdge x y

theorem toDot_injective {left : Hierarchy α} {right : Hierarchy β} {labelLeft : α → String}
    {labelRight : β → String} (same : left.toDot labelLeft = right.toDot labelRight) :
    left.nodes.map labelLeft = right.nodes.map labelRight ∧
      left.toGraph.edges = right.toGraph.edges :=
  have sameGraph := Graph.toDot_injective same
  ⟨congrArg Graph.nodes sameGraph, congrArg Graph.edges sameGraph⟩

end Reading

variable {α β : Type}
variable [LT α] [DecidableEq α] [DecidableLT α] [LE α] [Std.IsLinearOrder α] [Std.LawfulOrderLT α]
variable [LT β] [DecidableEq β] [DecidableLT β] [LE β] [Std.IsLinearOrder β] [Std.LawfulOrderLT β]

/--
When two runs end in hierarchies with the same DOT text, the labels of their nodes are the same in
the order of registration, the same edges are listed, and the same positions are joined by direct
edges.  The nodes may be of different types, and labels may hold any letters.
-/
theorem dot_unambiguous (nameLeft nameRight : String) (editsLeft : List (Edit α))
    (editsRight : List (Edit β)) (labelLeft : α → String) (labelRight : β → String) :
    let left : Hierarchy α := (empty nameLeft).run editsLeft
    let right : Hierarchy β := (empty nameRight).run editsRight
    left.toDot labelLeft = right.toDot labelRight →
      left.nodes.map labelLeft = right.nodes.map labelRight ∧
        left.toGraph.edges = right.toGraph.edges ∧ ∀ i j, left.Joins i j ↔ right.Joins i j := by
  intro left right same
  obtain ⟨sameLabels, sameEdges⟩ := toDot_injective same
  refine ⟨sameLabels, sameEdges, fun i j => ?_⟩
  have emptyLeft : (empty nameLeft : Hierarchy α).nodes.Nodup := List.nodup_nil
  have emptyRight : (empty nameRight : Hierarchy β).nodes.Nodup := List.nodup_nil
  calc left.Joins i j
    _ ↔ (i, j) ∈ left.toGraph.edges :=
      (mem_toGraph_edges (nodup_nodes_run emptyLeft editsLeft)).symm
    _ ↔ (i, j) ∈ right.toGraph.edges := by rw [sameEdges]
    _ ↔ right.Joins i j := mem_toGraph_edges (nodup_nodes_run emptyRight editsRight)

/--
Two nodes with troublesome labels in two hierarchies, and a label that looks like the rest of its
line and another line.
-/
theorem dot_unambiguous_despite_forgery :
    let forged := "a\" ]\n    1 [ label = \"b"
    let left : Hierarchy Nat := (empty "left").run [.register 1, .register 2, .relate 1 2]
    let right : Hierarchy Nat := (empty "right").run [.register 9, .register 4, .relate 9 4]
    let labelLeft := fun node => if node = 1 then forged else "\\l -> \\"
    let labelRight := fun node => if node < 5 then "\\l -> \\" else forged
    let single : Hierarchy Nat := (empty "single").run [.register 1]
    let pair : Hierarchy Nat := (empty "pair").run [.register 1, .register 2]
    (left.toDot labelLeft = right.toDot labelRight ∧ left.Joins 0 1 ∧ right.Joins 0 1) ∧
      single.toDot labelLeft ≠ pair.toDot fun node => if node = 1 then "a" else "b" := by
  intro forged left right labelLeft labelRight single pair
  have sameGraph : left.toGraph.map labelLeft = right.toGraph.map labelRight := by decide
  have same : left.toDot labelLeft = right.toDot labelRight := congrArg Graph.toDot sameGraph
  have joins : left.Joins 0 1 := ⟨1, 2, rfl, rfl, rfl⟩
  obtain ⟨_, _, joins_iff⟩ := dot_unambiguous "left" "right"
    [.register 1, .register 2, .relate 1 2] [.register 9, .register 4, .relate 9 4]
    labelLeft labelRight same
  refine ⟨⟨same, joins, (joins_iff 0 1).1 joins⟩, fun sameText => ?_⟩
  obtain ⟨sameLabels, _⟩ := dot_unambiguous "single" "pair" [.register 1]
    [.register 1, .register 2] labelLeft (fun node => if node = 1 then "a" else "b") sameText
  cases congrArg List.length sameLabels

end Hierarchy

end ModuleAtlas
