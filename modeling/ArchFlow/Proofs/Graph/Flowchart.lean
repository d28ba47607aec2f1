import ArchFlow.Graph.Flowchart
import ArchFlow.Proofs.Graph.Projection
import ArchFlow.Proofs.Text.Lines

/-!
# What a flowchart shows

A flowchart has an entry for its header, for each node, and for each edge between two nodes, in this order. An entry is
a line of its own unless a label on it has a line break; such a label spreads its entry over more lines, and leaves the
others alone. In the flowchart of a projection no edge is left out, and only one node has the id of an end of it.

* `Graph.flowchart_eq`: the entries of a flowchart.
* `Graph.lines_of_flowchart`: the lines of a flowchart.
* `Graph.label_breaks_entry`: a label that spreads the entry of its node.
* `flowchart_of_projection`: the flowchart of a projection.
-/

namespace ArchFlow

/-! ## Entries -/

/-- The entry of the node at a position: its label in double quotes, with single quotes for the double ones in it. -/
def GraphNode.entry (position : Nat) (n : GraphNode) : String :=
  "    n" ++ toString position ++ "[\"" ++ n.label.map (fun c => if c = '"' then '\x27' else c) ++ "\"]"

/-- The entry of an edge between the nodes at two positions: an arrow, with the label of the edge between bars. -/
def GraphEdge.entry (source target : Nat) (e : GraphEdge) : String :=
  match e.label with
  | some label => "    n" ++ toString source ++ " -->|" ++ label ++ "| n" ++ toString target
  | none => "    n" ++ toString source ++ " --> n" ++ toString target

namespace Graph

/-- Both ends of an edge are nodes. -/
def Joins (g : Graph) (e : GraphEdge) : Prop := e.source ∈ g.nodes.map (·.id) ∧ e.target ∈ g.nodes.map (·.id)

instance (g : Graph) (e : GraphEdge) : Decidable (g.Joins e) := inferInstanceAs (Decidable (_ ∧ _))

/-- The position of the first node with an id. -/
def position (g : Graph) (id : String) : Nat := g.nodes.findIdx (·.id = id)

/-- The edges between nodes. -/
def joined (g : Graph) : List GraphEdge := g.edges.filter fun e => g.Joins e

/-- The entry of an edge between nodes. -/
def edgeEntry (g : Graph) (e : GraphEdge) : String := e.entry (g.position e.source) (g.position e.target)

/-- The entries of the flowchart of a graph. -/
def entries (g : Graph) : List String :=
  "flowchart LR" :: g.nodes.mapIdx GraphNode.entry ++ g.joined.map g.edgeEntry

/-- The labels in the flowchart of a graph. -/
def chartLabels (g : Graph) : List String := g.nodes.map (·.label) ++ g.joined.filterMap (·.label)

theorem chartLine_eq (position : Nat) (n : GraphNode) : n.chartLine position = n.entry position ++ "\n" := by
  have hend : "\"]\n" = "\"]" ++ "\n" := rfl
  rw [GraphNode.chartLine, hend, ← String.append_assoc]
  rfl

theorem nodeLines_eq (ns : List GraphNode) :
    ∀ position, nodeLines position ns = (ns.mapIdx fun i n => n.entry (position + i)).map (· ++ "\n") := by
  induction ns with
  | nil => intro position; rfl
  | cons n ns ih =>
    intro position
    have hrest : (fun i m => GraphNode.entry (position + 1 + i) m) =
        fun i m => GraphNode.entry (position + (i + 1)) m := by
      funext i m
      rw [Nat.add_assoc, Nat.add_comm 1 i]
    rw [nodeLines, ih, List.mapIdx_cons, chartLine_eq, hrest]
    rfl

theorem findIdx?_eq (g : Graph) (id : String) :
    g.nodes.findIdx? (·.id = id) = if id ∈ g.nodes.map (·.id) then some (g.position id) else none := by
  have hlt : g.position id < g.nodes.length ↔ id ∈ g.nodes.map (·.id) := by
    rw [position, List.findIdx_lt_length, List.mem_map]
    simp
  rw [List.findIdx?_eq_guard_findIdx_lt, Option.guard]
  simp only [decide_eq_true_eq]
  exact if_congr hlt rfl rfl

/-- The entry of an edge is its arrow between the names of two nodes. -/
theorem entry_eq (source target : Nat) (e : GraphEdge) :
    "    n" ++ toString source ++ e.arrow ++ "n" ++ toString target = e.entry source target := by
  have hbar : "| n" = "| " ++ "n" := rfl
  have hhead : " --> n" = " --> " ++ "n" := rfl
  rw [GraphEdge.entry, GraphEdge.arrow]
  cases e.label with
  | some label => simp only [hbar, String.append_assoc]
  | none => simp only [hhead, String.append_assoc]

/-- An edge has a line if it is between nodes. -/
theorem chartLine?_eq (g : Graph) (e : GraphEdge) :
    g.chartLine? e = if g.Joins e then some (g.edgeEntry e ++ "\n") else none := by
  rw [chartLine?, findIdx?_eq, findIdx?_eq]
  by_cases hsource : e.source ∈ g.nodes.map (·.id)
  · by_cases htarget : e.target ∈ g.nodes.map (·.id)
    · have hjoins : g.Joins e := ⟨hsource, htarget⟩
      rw [if_pos hsource, if_pos htarget, if_pos hjoins, edgeEntry, ← entry_eq]
      rfl
    · have hjoins : ¬g.Joins e := fun h => htarget h.2
      rw [if_pos hsource, if_neg htarget, if_neg hjoins]
      rfl
  · have hjoins : ¬g.Joins e := fun h => hsource h.1
    rw [if_neg hsource, if_neg hjoins]
    rfl

theorem filterMap_chartLine? (g : Graph) (es : List GraphEdge) :
    es.filterMap g.chartLine? = ((es.filter fun e => g.Joins e).map g.edgeEntry).map (· ++ "\n") := by
  induction es with
  | nil => rfl
  | cons e es ih =>
    rw [List.filterMap_cons, List.filter_cons, chartLine?_eq, ih]
    by_cases he : g.Joins e <;> simp [he]

/-- The text of a flowchart is its entries, each with a line break. -/
theorem flowchart_eq (g : Graph) : g.flowchart = String.join (g.entries.map (· ++ "\n")) := by
  have hnodes : nodeLines 0 g.nodes = (g.nodes.mapIdx GraphNode.entry).map (· ++ "\n") := by
    rw [nodeLines_eq]
    simp only [Nat.zero_add]
  rw [flowchart, entries, hnodes, filterMap_chartLine?, List.map_append]
  rfl

/-! ## Lines -/

/-- A line break in the label of a node is one in its entry; there are no others. -/
theorem breaksIn_node (position : Nat) (n : GraphNode) : breaksIn (n.entry position) = breaksIn n.label := by
  have hlabel : breaksIn (n.label.map fun c => if c = '"' then '\x27' else c) = breaksIn n.label := by
    rw [breaksIn, breaksIn, String.toList_map]
    induction n.label.toList with
    | nil => rfl
    | cons c cs ih =>
      rw [List.map_cons, List.count_cons, List.count_cons, ih]
      by_cases hc : c = '"' <;> simp [hc]
  simp only [GraphNode.entry, breaksIn_append, breaksIn_toString, hlabel]
  have hopen : breaksIn "    n" = 0 ∧ breaksIn "[\"" = 0 ∧ breaksIn "\"]" = 0 := by decide
  omega

/-- A line break in the label of an edge is one in its entry; there are no others. -/
theorem breaksIn_edge (source target : Nat) (e : GraphEdge) :
    breaksIn (e.entry source target) = (e.label.map breaksIn).getD 0 := by
  have hwords : breaksIn "    n" = 0 ∧ breaksIn " --> n" = 0 ∧ breaksIn " -->|" = 0 ∧ breaksIn "| n" = 0 := by decide
  rw [GraphEdge.entry]
  cases e.label with
  | some label =>
    simp only [breaksIn_append, breaksIn_toString, Option.map_some, Option.getD_some]
    omega
  | none =>
    simp only [breaksIn_append, breaksIn_toString, Option.map_none, Option.getD_none]
    omega

theorem sum_breaksIn_nodes (g : Graph) :
    ((g.nodes.mapIdx GraphNode.entry).map breaksIn).sum = ((g.nodes.map (·.label)).map breaksIn).sum := by
  have hnodes : (g.nodes.mapIdx GraphNode.entry).map breaksIn = (g.nodes.map (·.label)).map breaksIn := by
    refine List.ext_getElem (by simp) fun i _ _ => ?_
    simp [breaksIn_node]
  rw [hnodes]

theorem sum_breaksIn_edges (g : Graph) (es : List GraphEdge) :
    ((es.map g.edgeEntry).map breaksIn).sum = ((es.filterMap (·.label)).map breaksIn).sum := by
  induction es with
  | nil => rfl
  | cons e es ih =>
    rw [List.map_cons, List.map_cons, List.sum_cons, ih, edgeEntry, breaksIn_edge, List.filterMap_cons]
    cases e.label with
    | none => exact Nat.zero_add _
    | some label => rfl

/-- The line breaks in the entries of a flowchart are those in its labels. -/
theorem sum_breaksIn_entries (g : Graph) : (g.entries.map breaksIn).sum = (g.chartLabels.map breaksIn).sum := by
  have hheader : breaksIn "flowchart LR" = 0 := by decide
  rw [entries, chartLabels, List.map_append, List.map_append, List.sum_append, List.sum_append, List.map_cons,
    List.sum_cons, sum_breaksIn_nodes, sum_breaksIn_edges, hheader, Nat.zero_add]

/-- **The lines of a flowchart.** Whatever the labels of a graph are, the entries of its flowchart take their lines one
after the other: the header, the nodes, and the edges between nodes, in their order; so no label makes a difference to
the lines of another entry. Every line break in a label makes one line more. The entries are the lines exactly if there
is no line break in a label. -/
theorem lines_of_flowchart (g : Graph) :
    linesOf g.flowchart = g.entries.flatMap linesOf ++ [""] ∧
      (linesOf g.flowchart).length =
        1 + g.nodes.length + g.joined.length + (g.chartLabels.map breaksIn).sum + 1 ∧
      (linesOf g.flowchart = g.entries ++ [""] ↔ ∀ label ∈ g.chartLabels, '\n' ∉ label.toList) := by
  have hlines : linesOf g.flowchart = g.entries.flatMap linesOf ++ [""] := by
    rw [flowchart_eq, linesOf_join_breaks]
  refine ⟨hlines, ?_, ?_⟩
  · have hentries : g.entries.length = 1 + g.nodes.length + g.joined.length := by
      simp only [entries, List.length_append, List.length_cons, List.length_mapIdx, List.length_map]
      omega
    rw [hlines, List.length_append, length_flatMap_linesOf, sum_breaksIn_entries, hentries]
    rfl
  · have hsum : (∀ s ∈ g.entries, breaksIn s = 0) ↔ ∀ label ∈ g.chartLabels, breaksIn label = 0 := by
      rw [← List.forall_mem_map (P := fun n => n = 0), ← List.sum_eq_zero_iff_forall_eq_nat, sum_breaksIn_entries,
        List.sum_eq_zero_iff_forall_eq_nat, List.forall_mem_map]
    rw [hlines, List.append_cancel_right_eq, flatMap_linesOf_eq_self_iff, hsum]
    simp only [breaksIn_eq_zero_iff]

/-- A label with a line break spreads the entry of its node over two lines. -/
theorem label_breaks_entry :
    let g : Graph := ⟨[⟨"a", "x\ny", ""⟩], []⟩
    linesOf g.flowchart = ["flowchart LR", "    n0[\"x", "y\"]", ""] ∧
      (linesOf g.flowchart).length ≠ 1 + g.nodes.length + g.joined.length + 1 := by
  decide +kernel

end Graph

/-! ## Projections -/

/-- Where no two nodes have the same id, the first node with an id is the only one. -/
theorem Graph.getElem?_eq_iff {g : Graph} (h : (g.nodes.map (·.id)).Nodup) {id : String}
    (hid : id ∈ g.nodes.map (·.id)) (i : Nat) : g.nodes[i]?.map (·.id) = some id ↔ i = g.position id := by
  have hfirst : g.nodes[g.position id]?.map (·.id) = some id := by
    obtain ⟨n, hn, hnid⟩ := List.mem_map.1 hid
    have hlt : g.position id < g.nodes.length := List.findIdx_lt_length.2 ⟨n, hn, decide_eq_true hnid⟩
    have hfound : decide (g.nodes[g.position id].id = id) = true :=
      @List.findIdx_getElem GraphNode (fun n => decide (n.id = id)) g.nodes hlt
    rw [List.getElem?_eq_getElem hlt, Option.map_some, of_decide_eq_true hfound]
  constructor
  · intro hi
    rw [← List.getElem?_map] at hi hfirst
    obtain ⟨hlt, -⟩ := List.getElem?_eq_some_iff.1 hi
    exact (List.getElem?_inj hlt h).1 (hi.trans hfirst.symm)
  · rintro rfl
    exact hfirst

section Projection

variable {ω : Type} (l : Labeler ω) (labeling : EdgeLabeling) (ts : List FlowTree) (s : State ω)

theorem nodup_project_ids : ((project l labeling ts s).1.nodes.map (·.id)).Nodup := by
  rw [project_ids]
  exact nodup_appendAllNew List.nodup_nil

/-- The edges of a projection begin and end at nodes of it. -/
theorem joins_of_mem_project {e : GraphEdge} (he : e ∈ (project l labeling ts s).1.edges) :
    (project l labeling ts s).1.Joins e := by
  have hnode : ∀ t ∈ FlowTree.preorders ts, t.id ∈ (project l labeling ts s).1.nodes.map (·.id) := fun t ht => by
    rw [project_ids, mem_appendAllNew]
    exact .inr (List.mem_map_of_mem ht)
  obtain ⟨p, hp, c, hc, rfl⟩ := (mem_project_edges l labeling ts s).1 he
  exact ⟨hnode p hp, hnode c (FlowTree.child_mem_preorders hp hc)⟩

end Projection

/-- **The flowchart of a projection shows all of it.** Whatever the trees are and however elements, links and edges are
labelled, the flowchart of their graph is the header, an entry for each node with its position as its name, and an entry
for each edge, in order, each with a line break. The entry of an edge is between the positions of its ends; these are
the only positions of nodes with their ids. -/
theorem flowchart_of_projection {ω : Type} (l : Labeler ω) (labeling : EdgeLabeling) (ts : List FlowTree)
    (s : State ω) :
    let g := (project l labeling ts s).1
    g.flowchart = String.join (("flowchart LR" :: g.nodes.mapIdx GraphNode.entry ++
        g.edges.map fun e => e.entry (g.position e.source) (g.position e.target)).map (· ++ "\n")) ∧
      ∀ e ∈ g.edges, ∀ i, (g.nodes[i]?.map (·.id) = some e.source ↔ i = g.position e.source) ∧
        (g.nodes[i]?.map (·.id) = some e.target ↔ i = g.position e.target) := by
  intro g
  have hjoins : ∀ e ∈ g.edges, g.Joins e := fun e => joins_of_mem_project l labeling ts s
  have hids : (g.nodes.map (·.id)).Nodup := nodup_project_ids l labeling ts s
  constructor
  · have hall : g.joined = g.edges := List.filter_eq_self.2 fun e he => decide_eq_true (hjoins e he)
    rw [g.flowchart_eq, Graph.entries, hall]
    rfl
  · intro e he i
    obtain ⟨hsource, htarget⟩ := hjoins e he
    exact ⟨Graph.getElem?_eq_iff hids hsource i, Graph.getElem?_eq_iff hids htarget i⟩

end ArchFlow
