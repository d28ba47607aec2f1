import ArchFlow.Graph.Basic
import ArchFlow.Json.Decode

/-!
# Graphs in JSON

An edge without a label has null in its place.
-/

namespace ArchFlow

open Json (Value Decoder)
open Json.Decoder (Fields)

/-! ## Nodes and edges -/

/-- A node as an object. -/
def GraphNode.toJson (n : GraphNode) : Value :=
  .object [("id", .string n.id), ("label", .string n.label), ("click_payload", .string n.clickPayload)]

/-- Decodes a node. -/
def GraphNode.decoder : Decoder GraphNode :=
  (Decoder.record "GraphNode" <|
    Fields.required "id" Decoder.text <| Fields.required "label" Decoder.text <|
    Fields.required "click_payload" Decoder.text .nil).map
    fun (id, label, payload, _) => ⟨id, label, payload⟩

/-- An edge as an object; where it has no label, null stands for it. -/
def GraphEdge.toJson (e : GraphEdge) : Value :=
  .object [("source_id", .string e.source), ("target_id", .string e.target), ("label", .optional e.label)]

/-- Decodes an edge; an object may leave out the label. -/
def GraphEdge.decoder : Decoder GraphEdge :=
  (Decoder.record "GraphEdge" <|
    Fields.required "source_id" Decoder.text <| Fields.required "target_id" Decoder.text <|
    Fields.nullable "label" Decoder.text .nil).map
    fun (source, target, label, _) => ⟨source, target, label⟩

/-! ## Graphs -/

/-- A graph as an object of its nodes and its edges. -/
def Graph.toJson (g : Graph) : Value :=
  .object [("nodes", .array (g.nodes.map GraphNode.toJson)), ("edges", .array (g.edges.map GraphEdge.toJson))]

/-- Decodes a graph. -/
def Graph.decoder : Decoder Graph :=
  (Decoder.record "FlowGraph" <|
    Fields.required "nodes" (Decoder.list GraphNode.decoder) <|
    Fields.required "edges" (Decoder.list GraphEdge.decoder) .nil).map
    fun (nodes, edges, _) => ⟨nodes, edges⟩

/-- The text of a graph, with a line for each item and member. -/
def Graph.jsonText (g : Graph) : String := g.toJson.pretty

/-! ## Edge labelling -/

/-- The names of the ways to label edges. -/
def EdgeLabeling.names : List (String × EdgeLabeling) := [("parent_node_type", .parentLabel), ("link_kind", .linkKind)]

/-- The name of a way to label edges. -/
def EdgeLabeling.name : EdgeLabeling → String
  | .parentLabel => "parent_node_type"
  | .linkKind => "link_kind"

/-- A way to label edges as its name. -/
def EdgeLabeling.toJson (l : EdgeLabeling) : Value := .string l.name

/-- Decodes a way to label edges. -/
def EdgeLabeling.decoder : Decoder EdgeLabeling := Decoder.variant names

end ArchFlow
