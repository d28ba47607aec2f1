import ArchFlow.Graph.Basic

/-!
# Flowcharts

A graph as the text of a Mermaid flowchart: a header, a line for each node with its position as its name, and a line
for each edge between two nodes. An edge to or from an id without a node has no line.

* `Graph.flowchart`: the text.
-/

namespace ArchFlow

/-- The label of a node as it stands between double quotes: a double quote in it becomes a single one. -/
def GraphNode.chartLabel (n : GraphNode) : String := n.label.map fun c => if c = '"' then '\x27' else c

/-- The line of the node at a position. -/
def GraphNode.chartLine (position : Nat) (n : GraphNode) : String :=
  "    n" ++ toString position ++ "[\"" ++ n.chartLabel ++ "\"]\n"

/-- The lines of nodes, from a position on. -/
def Graph.nodeLines (position : Nat) : List GraphNode → List String
  | [] => []
  | n :: ns => n.chartLine position :: nodeLines (position + 1) ns

/-- The arrow of an edge, with the label on it. -/
def GraphEdge.arrow (e : GraphEdge) : String :=
  match e.label with
  | some label => " -->|" ++ label ++ "| "
  | none => " --> "

/-- The line of an edge, if both its ends have a node. -/
def Graph.chartLine? (g : Graph) (e : GraphEdge) : Option String := do
  let source ← g.nodes.findIdx? (·.id = e.source)
  let target ← g.nodes.findIdx? (·.id = e.target)
  return "    n" ++ toString source ++ e.arrow ++ "n" ++ toString target ++ "\n"

/-- The text of the flowchart of a graph. -/
def Graph.flowchart (g : Graph) : String :=
  String.join ("flowchart LR\n" :: Graph.nodeLines 0 g.nodes ++ g.edges.filterMap g.chartLine?)

end ArchFlow
