import ArchFlow.Json.Value

/-!
# Graphs

A graph lists labelled nodes and directed edges for display. It says nothing of its own: it may name an element in an
edge that it has no node for.
-/

namespace ArchFlow

/-- A node for display. -/
structure GraphNode where
  id : String
  label : String
  /-- What the display sends when the node is clicked. -/
  clickPayload : String
deriving DecidableEq

/-- A directed edge. -/
structure GraphEdge where
  source : String
  target : String
  label : Option String
deriving DecidableEq

/-- Nodes and edges for display. -/
structure Graph where
  nodes : List GraphNode
  edges : List GraphEdge
deriving DecidableEq

namespace Graph

/-- The first node with an id. -/
def node? (g : Graph) (id : String) : Option GraphNode := g.nodes.find? (·.id = id)

/-- The edges that lead to an id. -/
def incoming (g : Graph) (id : String) : List GraphEdge := g.edges.filter (·.target = id)

end Graph

/-- The click payload of an element: the command to navigate to it. -/
def navigateTo (id : String) : String :=
  (Json.Value.object [("name", .string "NavigateTo"), ("parameters", .object [("Id", .string id)])]).compact

/-- Where the label of an edge comes from. -/
inductive EdgeLabeling
  /-- The classification of the node that the edge leaves. -/
  | parentLabel
  /-- The kind of the link. -/
  | linkKind
deriving DecidableEq

end ArchFlow
