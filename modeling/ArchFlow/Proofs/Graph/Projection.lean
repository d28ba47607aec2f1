import ArchFlow.Graph.Projection
import ArchFlow.Proofs.Flow.Occurrence
import ArchFlow.Proofs.List.AppendNew

/-!
# What a projection draws

The graph of flow trees has the elements of their nodes and the edges from nodes to their children, each once: elements
in pre-order, and edges in the order in which the subtrees they lead to are done.

* `Sketch.addTree_eq`: what a walk of a tree adds to a sketch.
* `edgeBetween_eq`: the edge from a node to its child, with its label.
* `project_ids`, `project_edges`: the nodes and edges of the graph of several trees.
* `project_exact`: the whole graph.
-/

namespace ArchFlow

/-! ## The edges of a tree -/

namespace FlowTree

variable (edge : FlowTree → FlowTree → GraphEdge)

mutual

/-- The edges from nodes of a tree to their children; the edges below a child come before the one to it. -/
def edges : FlowTree → List GraphEdge
  | t@⟨_, _, _, _, children⟩ => edgesTo (edge t) children

/-- The edges to several children of a node and below them. -/
def edgesTo (toChild : FlowTree → GraphEdge) : List FlowTree → List GraphEdge
  | [] => []
  | t :: ts => edges t ++ toChild t :: edgesTo toChild ts

end

theorem edges_eq (t : FlowTree) : t.edges edge = edgesTo edge (edge t) t.children := by
  cases t; rfl

theorem mem_edgesTo {toChild : FlowTree → GraphEdge} {e : GraphEdge} {ts : List FlowTree} :
    e ∈ edgesTo edge toChild ts ↔ ∃ t ∈ ts, e ∈ t.edges edge ∨ e = toChild t := by
  induction ts with
  | nil => simp [edgesTo]
  | cons t ts ih => simp [edgesTo, ih, or_assoc]

/-- The edges of a tree are those from its nodes to their children. -/
theorem mem_edges {e : GraphEdge} (t : FlowTree) :
    e ∈ t.edges edge ↔ ∃ p ∈ t.preorder, ∃ c ∈ p.children, e = edge p c := by
  induction t using induct with
  | node t ih =>
    rw [edges_eq, mem_edgesTo, preorder_eq, preorders_eq_flatMap]
    constructor
    · rintro ⟨c, hc, he | rfl⟩
      · obtain ⟨p, hp, d, hd, he⟩ := (ih c hc).1 he
        exact ⟨p, List.mem_cons_of_mem _ (List.mem_flatMap.2 ⟨c, hc, hp⟩), d, hd, he⟩
      · exact ⟨t, List.mem_cons_self, c, hc, rfl⟩
    · rintro ⟨p, hp, d, hd, he⟩
      rcases List.mem_cons.1 hp with rfl | hp
      · exact ⟨d, hd, .inr he⟩
      · obtain ⟨c, hc, hp⟩ := List.mem_flatMap.1 hp
        exact ⟨c, hc, .inl ((ih c hc).2 ⟨p, hp, d, hd, he⟩)⟩

end FlowTree

/-! ## Walks -/

namespace Sketch

variable {edge : FlowTree → FlowTree → GraphEdge}

theorem addNode_eq (k : Sketch) (id : ElementId) : k.addNode id = ⟨appendNew k.nodes id, k.edges⟩ := by
  rw [addNode, appendNew]
  split <;> rfl

theorem addEdge_eq (k : Sketch) (e : GraphEdge) : k.addEdge e = ⟨k.nodes, appendNew k.edges e⟩ := by
  rw [addEdge, appendNew]
  split <;> rfl

/-- A sketch with more elements and edges, as far as they are new. -/
def add (k : Sketch) (ids : List ElementId) (edges : List GraphEdge) : Sketch :=
  ⟨appendAllNew k.nodes ids, appendAllNew k.edges edges⟩

theorem add_add (k : Sketch) (ids ids' : List ElementId) (es es' : List GraphEdge) :
    (k.add ids es).add ids' es' = k.add (ids ++ ids') (es ++ es') := by
  rw [add, add, add, appendAllNew_append, appendAllNew_append]

theorem addChildren_eq {toChild : FlowTree → GraphEdge} {ts : List FlowTree}
    (h : ∀ t ∈ ts, ∀ k : Sketch, addTree edge t k = k.add (t.preorder.map (·.id)) (t.edges edge)) :
    ∀ k : Sketch, addChildren edge toChild ts k =
      k.add ((FlowTree.preorders ts).map (·.id)) (FlowTree.edgesTo edge toChild ts) := by
  induction ts with
  | nil => intro k; rfl
  | cons t ts ih =>
    intro k
    have hstep : ∀ k : Sketch, k.addEdge (toChild t) = k.add [] [toChild t] := fun k => addEdge_eq k _
    rw [addChildren, h t List.mem_cons_self, hstep, ih fun t ht => h t (List.mem_cons_of_mem _ ht), add_add, add_add]
    simp [FlowTree.preorders, FlowTree.edgesTo]

/-- A walk of a tree adds its elements in pre-order, and its edges. -/
theorem addTree_eq (t : FlowTree) : ∀ k : Sketch, addTree edge t k = k.add (t.preorder.map (·.id)) (t.edges edge) := by
  induction t using FlowTree.induct with
  | node t ih =>
    intro k
    have hroot : k.addNode t.id = k.add [t.id] [] := addNode_eq k _
    have hwalk : addTree edge t k = addChildren edge (edge t) t.children (k.addNode t.id) := by
      cases t; rfl
    rw [hwalk, addChildren_eq ih, hroot, add_add, FlowTree.preorder_eq, FlowTree.edges_eq]
    rfl

theorem addTrees_eq (ts : List FlowTree) :
    ∀ k : Sketch, k.addTrees edge ts =
      k.add ((FlowTree.preorders ts).map (·.id)) (ts.flatMap (FlowTree.edges edge)) := by
  induction ts with
  | nil => intro k; rfl
  | cons t ts ih =>
    intro k
    rw [addTrees, List.foldl_cons, ← addTrees, ih, addTree_eq, add_add]
    simp [FlowTree.preorders]

end Sketch

/-! ## Labels of edges -/

/-- The label of the edges that leave nodes with a classification. -/
def leavingLabel : String → Option String
  | "Endpoint" => some "calls"
  | "HttpClient" => some "http"
  | "Repository" | "Database" => some "db"
  | "Queue" | "Topic" => some "message"
  | _ => none

/-- The edge that is drawn from a node to its child. It is labelled by the classification of the node, or by the link that
led to the child. -/
def drawnEdge (labeling : EdgeLabeling) (linkLabel : String → String) (parent child : FlowTree) : GraphEdge where
  source := parent.id
  target := child.id
  label := match labeling with
    | .parentLabel => leavingLabel parent.label
    | .linkKind => child.via.map linkLabel

theorem groupLabel_eq (label : String) : groupLabel label = leavingLabel label := by
  fun_cases leavingLabel label with
  | case7 => simp_all [groupLabel, Catalog.Label.endpoint, Catalog.Label.httpClient, Catalog.Label.repository,
      Catalog.Label.database, Catalog.Label.queue, Catalog.Label.topic]
  | _ => rfl

theorem edgeBetween_eq (labeling : EdgeLabeling) (linkLabel : String → String) :
    edgeBetween labeling linkLabel = drawnEdge labeling linkLabel := by
  funext p c
  cases labeling with
  | parentLabel => rw [edgeBetween, drawnEdge, edgeLabel, groupLabel_eq]
  | linkKind => rfl

/-! ## Projections -/

variable {ω : Type}

theorem ids_labelNodes (l : Labeler ω) (ids : List ElementId) :
    ∀ s, (labelNodes l ids s).1.map (·.id) = ids := by
  induction ids with
  | nil => intro s; rfl
  | cons id ids ih => intro s; simp [labelNodes, ih]

/-- The nodes of a graph are the elements of the trees, in the order in which they first occur. -/
theorem project_ids (l : Labeler ω) (labeling : EdgeLabeling) (ts : List FlowTree) (s : State ω) :
    (project l labeling ts s).1.nodes.map (·.id) = appendAllNew [] ((FlowTree.preorders ts).map (·.id)) := by
  rw [project, Sketch.addTrees_eq]
  exact ids_labelNodes l _ s

/-- The edges of a graph are those of the trees, in the order in which they are first drawn. -/
theorem project_edges (l : Labeler ω) (labeling : EdgeLabeling) (ts : List FlowTree) (s : State ω) :
    (project l labeling ts s).1.edges =
      appendAllNew [] (ts.flatMap (FlowTree.edges (edgeBetween labeling l.link))) := by
  rw [project, Sketch.addTrees_eq]
  rfl

/-- The children of a node of some trees are nodes of the trees. -/
theorem FlowTree.child_mem_preorders {ts : List FlowTree} {p c : FlowTree} (hp : p ∈ FlowTree.preorders ts)
    (hc : c ∈ p.children) : c ∈ FlowTree.preorders ts := by
  rw [preorders_eq_flatMap, List.mem_flatMap] at hp ⊢
  obtain ⟨t, ht, hp⟩ := hp
  rw [← map_node_occurrences] at hp
  obtain ⟨o, ho, rfl⟩ := List.mem_map.1 hp
  refine ⟨t, ht, ?_⟩
  rw [← map_node_occurrences]
  exact List.mem_map.2 ⟨_, child_mem_occurrences ho hc, rfl⟩

/-- The edges of a graph lead from nodes of the trees to their children. -/
theorem mem_project_edges (l : Labeler ω) (labeling : EdgeLabeling) (ts : List FlowTree) (s : State ω) {e : GraphEdge} :
    e ∈ (project l labeling ts s).1.edges ↔
      ∃ p ∈ FlowTree.preorders ts, ∃ c ∈ p.children, e = edgeBetween labeling l.link p c := by
  rw [project_edges, appendAllNew_nil, List.mem_eraseDups, List.mem_flatMap, FlowTree.preorders_eq_flatMap]
  simp only [FlowTree.mem_edges, List.mem_flatMap]
  constructor
  · rintro ⟨t, ht, p, hp, c, hc, he⟩
    exact ⟨p, ⟨t, ht, hp⟩, c, hc, he⟩
  · rintro ⟨p, ⟨t, ht, hp⟩, c, hc, he⟩
    exact ⟨t, ht, p, hp, c, hc, he⟩

/-- **The projection of any trees is exact.** Whatever the trees are and however elements, links and edges are labelled,
the graph has the elements of the trees in the order in which they first occur in pre-order, and the edges of the trees
in the order in which a walk first meets them that meets the edge to a child when it is done with the subtree of the
child; none of them is there twice. The edges are those between the nodes of the trees and their children, and each of
them begins and ends at a node of the graph. Its label is either that of the classification of the node that it leaves,
or that of the link that led to the child, if any did. -/
theorem project_exact (l : Labeler ω) (labeling : EdgeLabeling) (ts : List FlowTree) (s : State ω) :
    let ids := (project l labeling ts s).1.nodes.map (·.id)
    let edges := (project l labeling ts s).1.edges
    ids = ((FlowTree.preorders ts).map (·.id)).eraseDups ∧ ids.Nodup ∧
      edges = (ts.flatMap (FlowTree.edges (drawnEdge labeling l.link))).eraseDups ∧ edges.Nodup ∧
      (∀ e : GraphEdge, e ∈ edges ↔
        ∃ p ∈ FlowTree.preorders ts, ∃ c ∈ p.children, e.source = p.id ∧ e.target = c.id ∧
          e.label = match labeling with
            | .parentLabel => leavingLabel p.label
            | .linkKind => c.via.map l.link) ∧
      ∀ e ∈ edges, e.source ∈ ids ∧ e.target ∈ ids := by
  intro ids edges
  have hids : ids = ((FlowTree.preorders ts).map (·.id)).eraseDups :=
    (project_ids l labeling ts s).trans (appendAllNew_nil _)
  have hedges : edges = (ts.flatMap (FlowTree.edges (drawnEdge labeling l.link))).eraseDups := by
    rw [← edgeBetween_eq]
    exact (project_edges l labeling ts s).trans (appendAllNew_nil _)
  have hnode : ∀ t ∈ FlowTree.preorders ts, t.id ∈ ids := fun t ht => by
    rw [hids, List.mem_eraseDups]
    exact List.mem_map_of_mem ht
  refine ⟨hids, hids ▸ nodup_eraseDups _, hedges, hedges ▸ nodup_eraseDups _, ?_, ?_⟩
  · intro e
    refine (mem_project_edges l labeling ts s).trans ?_
    rw [edgeBetween_eq]
    cases e
    simp only [drawnEdge, GraphEdge.mk.injEq]
  · intro e he
    obtain ⟨p, hp, c, hc, rfl⟩ := (mem_project_edges l labeling ts s).1 he
    exact ⟨hnode p hp, hnode c (FlowTree.child_mem_preorders hp hc)⟩

end ArchFlow
