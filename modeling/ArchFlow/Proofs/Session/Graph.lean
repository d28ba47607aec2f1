import ArchFlow.Proofs.Session.Drawing

/-!
# The graph of a flow

A flow of snapshots that goes deep enough is drawn as the part of the stated graph that its root leads to. Nothing gets
lost between the snapshots and the graph: not by the types that sources are registered for, not at elements that occur
again, and not where nodes and edges are drawn once.

* `Session.graph_of_flow`: the nodes and edges of the graph.
-/

namespace ArchFlow

/-- The label that an edge gets between two elements, for a link of the kind. -/
def labelBetween {ω : Type} (x : Session ω) (s : State ω) (source : ElementId) (kind : String) : Option String :=
  match x.settings.edgeLabels with
  | .linkKind => some (catalogLinkLabel kind)
  | .parentLabel => groupLabel (x.explorer.labelOf s source)

namespace Session

variable {snapshots : List Snapshot} {settings : Settings} {root : ElementId} {s s' : State Unit} {m : Nat}

/-- The nodes of the graph of a tree are the elements that occur in it. -/
theorem mem_graph_ids (x : Session Unit) (t : FlowTree) (s : State Unit) {id : ElementId} :
    id ∈ (x.graph [t] s).1.nodes.map (·.id) ↔ ∃ o ∈ t.occurrences, o.id = id := by
  rw [graph, project_ids, mem_appendAllNew, FlowTree.preorders, FlowTree.preorders, List.append_nil,
    ← t.map_node_occurrences, List.map_map, List.mem_map]
  simp

/-- The edges of the graph of a tree lead from what occurs in it to its children. -/
theorem mem_graph_edges (x : Session Unit) (t : FlowTree) (s : State Unit) {e : GraphEdge} :
    e ∈ (x.graph [t] s).1.edges ↔
      ∃ o ∈ t.occurrences, ∃ c ∈ o.node.children, e = edgeBetween x.settings.edgeLabels catalogLinkLabel o.node c := by
  rw [graph, mem_project_edges, FlowTree.preorders_eq_flatMap, List.flatMap_singleton, ← t.map_node_occurrences]
  simp [Labeler.architecture]

theorem nodup_graph (x : Session Unit) (ts : List FlowTree) (s : State Unit) :
    ((x.graph ts s).1.nodes.map (·.id)).Nodup ∧ (x.graph ts s).1.edges.Nodup := by
  rw [graph, project_ids, project_edges]
  exact ⟨nodup_appendAllNew List.nodup_nil, nodup_appendAllNew List.nodup_nil⟩

/-- The edge to a child is labelled by the link that led to it. -/
theorem edgeLabel_eq {o : Occurrence} {c : FlowTree} {kind : String} (hkind : HasKind snapshots o.id kind)
    (hlabel : o.node.label = (snapshotExplorer snapshots settings).labelOf s o.id) {link : String}
    (hvia : c.via = some link) :
    edgeLabel settings.edgeLabels catalogLinkLabel o.node c =
      labelBetween ⟨snapshotBase snapshots, settings⟩ (.fresh ()) o.id link := by
  have htype : (snapshotExplorer snapshots settings).base.typeOf? s o.id =
      (snapshotExplorer snapshots settings).base.typeOf? (.fresh ()) o.id := typeOf?_eq hkind s
  have hfresh : o.node.label = (snapshotExplorer snapshots settings).labelOf (.fresh ()) o.id := by
    rw [hlabel, Explorer.labelOf, Explorer.labelOf, htype]
  unfold edgeLabel labelBetween
  rw [hvia, hfresh]
  cases settings.edgeLabels <;> rfl

section Exact

variable {R : List ElementId} (hR : Reached snapshots settings root R) (hroot : ∃ kind, HasKind snapshots root kind)
  (hm : R.length ≤ m)
include hR hroot hm

/-- A drawing that is deep enough shows what its root leads to. -/
theorem exists_occurrence_iff {id : ElementId} :
    (∃ o ∈ ((snapshotSurvey snapshots settings s).tree m root).occurrences, o.id = id) ↔ id ∈ R := by
  constructor
  · rintro ⟨o, ho, rfl⟩
    exact (reaches_iff_mem hroot hR s).1 (Survey.reaches_of_mem ho)
  · intro hid
    exact Survey.exists_of_reaches (fun _ => (reaches_iff_mem hroot hR s).1) hm ((reaches_iff_mem hroot hR s).2 hid)

/-- A drawing that is deep enough shows every link that is followed from what its root leads to, and no other. -/
theorem mem_edges_iff {e : GraphEdge} :
    e ∈ (graph ⟨snapshotBase snapshots, settings⟩
        [(snapshotSurvey snapshots settings s).tree m root] s').1.edges ↔
      e.source ∈ R ∧ ∃ kind ∈ settings.followLinks, Linked snapshots e.source kind e.target ∧
        e.label = labelBetween ⟨snapshotBase snapshots, settings⟩ (.fresh ()) e.source kind := by
  rw [mem_graph_edges]
  constructor
  · rintro ⟨o, ho, c, hc, rfl⟩
    obtain ⟨kind, hkind⟩ := hasKind_of_mem hroot ho
    obtain ⟨link, hlink, hlinked, hvia⟩ := (mem_next hkind s).1 (Survey.child_mem_next ho hc).2
    refine ⟨(exists_occurrence_iff hR hroot hm).1 ⟨o, ho, rfl⟩, link, hlink, hlinked, ?_⟩
    exact edgeLabel_eq hkind (Survey.tree_draws.nodes o ho).1 hvia
  · rintro ⟨hsource, link, hlink, hlinked, hlabel⟩
    obtain ⟨u, hu, huid⟩ := (exists_occurrence_iff (s := s) hR hroot hm).2 hsource
    obtain ⟨q, hq, hqid, hqlt⟩ := Survey.exists_above_bound (fun _ => (reaches_iff_mem hroot hR s).1) hm hu
    obtain ⟨kind, hkind⟩ := hasKind_of_mem hroot hq
    have hqsource : q.id = e.source := hqid.trans huid
    obtain ⟨o, ho, hoid, c, hc, hvia, hcid⟩ :=
      Survey.exists_child hq hqlt ((mem_next hkind s).2 ⟨link, hlink, hqsource ▸ hlinked, rfl⟩)
    have hosource : o.id = e.source := hoid.trans hqsource
    refine ⟨o, ho, c, hc, ?_⟩
    obtain ⟨source, target, label⟩ := e
    dsimp only at hosource hcid hlabel
    rw [edgeBetween, edgeLabel_eq (hoid ▸ hkind) (Survey.tree_draws.nodes o ho).1 hvia, hcid, hlabel, ← hosource]

end Exact

/-- **The graph of a flow is what its root leads to.** Snapshots always come to a session. If the depth bound of a flow
is not below the number of elements that its root leads to over links that are followed, then the graph of the flow has
a node for each of these elements and no other, and an edge for each link that is followed from one of them, with its
label, and no other; no node or edge is there twice. -/
theorem graph_of_flow (snapshots : List Snapshot) (settings : Settings) :
    ∃ x, ofSnapshots snapshots settings = .ok x ∧
      ∀ root, x.base.contains (.fresh ()) root = true →
        ∃ R, Reached snapshots settings root R ∧
          ∀ (depth : Option UInt64) (s : State Unit), R.length ≤ (depth.getD settings.maxDepth).toNat →
            ∃ t s', x.flow root depth s = (.ok t, s') ∧ ∀ u : State Unit,
              ((x.graph [t] u).1.nodes.map (·.id)).Perm R ∧
              (x.graph [t] u).1.edges.Nodup ∧
              ∀ e : GraphEdge, e ∈ (x.graph [t] u).1.edges ↔
                e.source ∈ R ∧ ∃ kind ∈ settings.followLinks, Linked snapshots e.source kind e.target ∧
                  e.label = labelBetween x (.fresh ()) e.source kind := by
  refine ⟨_, ofSnapshots_eq snapshots settings, fun root hcontains => ?_⟩
  have hroot : ∃ kind, HasKind snapshots root kind := contains_fresh_iff.1 hcontains
  obtain ⟨R, hR⟩ := exists_reached hroot settings
  refine ⟨R, hR, fun depth s hm => ?_⟩
  obtain ⟨s', hflow⟩ := flow_eq hroot depth s
  refine ⟨_, s', hflow, fun u => ?_⟩
  obtain ⟨hnodes, hedges⟩ := nodup_graph ⟨snapshotBase snapshots, settings⟩
    [(snapshotSurvey snapshots settings s).tree (depth.getD settings.maxDepth).toNat root] u
  refine ⟨(List.perm_ext_iff_of_nodup hnodes hR.nodup).2 fun id => ?_, hedges, fun e => mem_edges_iff hR hroot hm⟩
  rw [mem_graph_ids, exists_occurrence_iff hR hroot hm]

/-! ### Two snapshots -/

/-- Two services that call each other, one of them by its name, and a link that leads out of the snapshot. -/
def serviceFacts : Snapshot where
  elements := [⟨some "a", "app.service", none, ∅⟩, ⟨some "b", "app.service", some "Billing", ∅⟩]
  links := [⟨"a", "Billing", "calls"⟩, ⟨"b", "a", "calls"⟩, ⟨"a", "c", "calls"⟩]

/-- One of the services as a repository, and two tables. -/
def storageFacts : Snapshot where
  elements := [⟨some "b", "app.repository", none, ∅⟩, ⟨some "c", "db.table", none, ∅⟩, ⟨some "d", "db.table", none, ∅⟩]
  links := [⟨"b", "c", "queries"⟩, ⟨"c", "d", "maps_to"⟩]

theorem hasKind_twoSnapshots {id : ElementId} {kind : String} (h : HasKind [serviceFacts, storageFacts] id kind) :
    id ∈ ["a", "b", "c", "d"] := by
  obtain ⟨s, hs, f, hf, rfl, -⟩ := h
  simp only [List.mem_cons, List.not_mem_nil, or_false] at hs
  rcases hs with rfl | rfl <;>
    simp only [serviceFacts, storageFacts, List.mem_cons, List.not_mem_nil, or_false] at hf <;>
    rcases hf with rfl | rfl | rfl <;> decide

theorem hasKind_root_twoSnapshots : ∃ kind, HasKind [serviceFacts, storageFacts] "a" kind :=
  ⟨_, serviceFacts, List.mem_cons_self, _, List.mem_cons_self, rfl, rfl⟩

/-- There are four services and tables. -/
theorem length_le_twoSnapshots {R : List ElementId} (hR : Reached [serviceFacts, storageFacts] .default "a" R) :
    R.length ≤ 4 := by
  have hsub : R ⊆ ["a", "b", "c", "d"] := fun id hid => by
    obtain ⟨kind, hkind⟩ := hasKind_of_follows hasKind_root_twoSnapshots ((hR.mem_iff id).1 hid)
    exact hasKind_twoSnapshots hkind
  exact hR.nodup.length_le_of_subset hsub

/-- Four levels are enough for the services and tables. -/
theorem graph_of_flow_twoSnapshots :
    ∃ x R t s', ofSnapshots [serviceFacts, storageFacts] .default = .ok x ∧
      x.base.contains (.fresh ()) "a" = true ∧ R.length ≤ 4 ∧ x.flow "a" (some 4) (.fresh ()) = (.ok t, s') ∧
      ((x.graph [t] s').1.nodes.map (·.id)).Perm R ∧
      (⟨"b", "c", some "db"⟩ : GraphEdge) ∈ (x.graph [t] s').1.edges := by
  have hlinked : Linked [serviceFacts, storageFacts] "a" "calls" "b" :=
    ⟨serviceFacts, by simp, ⟨"a", "Billing", "calls"⟩, by simp [serviceFacts], rfl,
      .inl ⟨⟨_, List.mem_cons_self, rfl⟩, rfl⟩,
      .inr ⟨by decide, [_], _, [], rfl, by decide, rfl, rfl⟩⟩
  have hqueried : Linked [serviceFacts, storageFacts] "b" "queries" "c" :=
    ⟨storageFacts, by simp, ⟨"b", "c", "queries"⟩, by simp [storageFacts], rfl,
      .inl ⟨⟨_, List.mem_cons_self, rfl⟩, rfl⟩,
      .inl ⟨⟨_, List.mem_cons_of_mem _ List.mem_cons_self, rfl⟩, rfl⟩⟩
  obtain ⟨x, hx, hflow⟩ := graph_of_flow [serviceFacts, storageFacts] .default
  cases hx.symm.trans (ofSnapshots_eq [serviceFacts, storageFacts] .default)
  have hcontains := contains_fresh_iff.2 hasKind_root_twoSnapshots
  obtain ⟨R, hR, hdeep⟩ := hflow "a" hcontains
  have hlength : R.length ≤ 4 := length_le_twoSnapshots hR
  obtain ⟨t, s', ht, hgraph⟩ := hdeep (some 4) (.fresh ()) hlength
  obtain ⟨hnodes, -, hedges⟩ := hgraph s'
  refine ⟨_, R, t, s', hx, hcontains, hlength, ht, hnodes, (hedges _).2 ⟨?_, "queries", by decide, hqueried, ?_⟩⟩
  · exact (hR.mem_iff "b").2 (.single ⟨"calls", by decide, hlinked⟩)
  · decide +kernel

end Session

end ArchFlow
