import ArchFlow.Flow.Tree
import ArchFlow.Graph.Basic
import ArchFlow.Graph.Labeler

/-!
# Projection of flows

Flow trees are drawn as one graph: each element once, and an edge for each pair of a node and its child, edges that
agree in everything once. The elements come in the order in which a walk meets them; an edge comes when the walk is
done with the subtree it leads to.

* `Sketch.addTree`: the elements and edges of a tree, added to those of others.
* `project`: the graph of several trees.
-/

namespace ArchFlow

/-- The elements and edges that a walk has met. -/
structure Sketch where
  nodes : List ElementId
  edges : List GraphEdge

namespace Sketch

/-- Nothing is met yet. -/
def blank : Sketch := ⟨[], []⟩

/-- Meets an element. -/
def addNode (k : Sketch) (id : ElementId) : Sketch :=
  if id ∈ k.nodes then k else { k with nodes := k.nodes ++ [id] }

/-- Meets an edge. -/
def addEdge (k : Sketch) (e : GraphEdge) : Sketch :=
  if e ∈ k.edges then k else { k with edges := k.edges ++ [e] }

mutual

/-- Walks a tree; `edge` makes the edge between a node and its child. -/
def addTree (edge : FlowTree → FlowTree → GraphEdge) : FlowTree → Sketch → Sketch
  | t@⟨id, _, _, _, children⟩, k => addChildren edge (edge t) children (k.addNode id)

/-- Walks the children of a node; `toChild` makes the edge to a child. -/
def addChildren (edge : FlowTree → FlowTree → GraphEdge) (toChild : FlowTree → GraphEdge) :
    List FlowTree → Sketch → Sketch
  | [], k => k
  | t :: ts, k => addChildren edge toChild ts ((addTree edge t k).addEdge (toChild t))

end

/-- Walks several trees. -/
def addTrees (edge : FlowTree → FlowTree → GraphEdge) (ts : List FlowTree) (k : Sketch) : Sketch :=
  ts.foldl (fun k t => addTree edge t k) k

end Sketch

/-- The label of the edges that leave nodes with a classification. -/
def groupLabel (label : String) : Option String :=
  if label = Catalog.Label.endpoint then some "calls"
  else if label = Catalog.Label.httpClient then some "http"
  else if label = Catalog.Label.repository ∨ label = Catalog.Label.database then some "db"
  else if label = Catalog.Label.queue ∨ label = Catalog.Label.topic then some "message"
  else none

/-- The label of the edge from a node to its child. -/
def edgeLabel (labeling : EdgeLabeling) (linkLabel : String → String) (parent child : FlowTree) : Option String :=
  match labeling with
  | .parentLabel => groupLabel parent.label
  | .linkKind => child.via.map linkLabel

/-- The edge from a node to its child. -/
def edgeBetween (labeling : EdgeLabeling) (linkLabel : String → String) (parent child : FlowTree) : GraphEdge :=
  ⟨parent.id, child.id, edgeLabel labeling linkLabel parent child⟩

variable {ω : Type}

/-- A node for each element, in order. -/
def labelNodes (l : Labeler ω) : List ElementId → State ω → List GraphNode × State ω
  | [], s => ([], s)
  | id :: ids, s =>
    match l.element id s with
    | (label, s) =>
      match labelNodes l ids s with
      | (nodes, s) => (⟨id, label, navigateTo id⟩ :: nodes, s)

/-- The graph of several trees. -/
def project (l : Labeler ω) (labeling : EdgeLabeling) (ts : List FlowTree) (s : State ω) : Graph × State ω :=
  let k := Sketch.blank.addTrees (edgeBetween labeling l.link) ts
  match labelNodes l k.nodes s with
  | (nodes, s) => (⟨nodes, k.edges⟩, s)

end ArchFlow
