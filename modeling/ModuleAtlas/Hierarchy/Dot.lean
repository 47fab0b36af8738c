import ModuleAtlas.Hierarchy.Graph

/-!
# DOT text

A graph with labelled nodes is written in the DOT language: a line that opens the graph, a line for
each node, a line for each edge and a line that closes the graph.
-/

namespace ModuleAtlas

namespace Dot

/-- A letter of a label: quotes and backslashes are escaped, a line break is written `\l`. -/
def escape : Char → List Char
  | '"' => ['\\', '"']
  | '\\' => ['\\', '\\']
  | '\n' => ['\\', 'l']
  | letter => [letter]

def quoted (label : String) : List Char := '"' :: label.toList.flatMap escape ++ ['"']

def decimal (position : Nat) : List Char := Nat.toDigits 10 position

def nodeLine (position : Nat) (label : String) : List Char :=
  "    ".toList ++ decimal position ++ " [ label = ".toList ++ quoted label ++ " ]\n".toList

def edgeLine (edge : Nat × Nat) : List Char :=
  "    ".toList ++ decimal edge.1 ++ " -> ".toList ++ decimal edge.2 ++ " [ ]\n".toList

def nodeLines (labels : List String) : List Char :=
  labels.zipIdx.flatMap fun (label, position) => nodeLine position label

def letters (graph : Graph String) : List Char :=
  "digraph \x7b\n".toList ++ nodeLines graph.nodes ++ graph.edges.flatMap edgeLine ++
    "\x7d\n".toList

end Dot

def Graph.toDot (graph : Graph String) : String := String.ofList (Dot.letters graph)

def Hierarchy.toDot {α : Type} [LT α] [DecidableEq α] (hierarchy : Hierarchy α)
    (label : α → String) : String :=
  (hierarchy.toGraph.map label).toDot

end ModuleAtlas
