import ArchFlow.Proofs.Flow.Saturation
import ArchFlow.Proofs.Graph.Projection

/-!
# Links that are drawn again

An element may link to another one in the same way more than once. By the time a drawing comes to such a link again, the
element it leads to is expanded, or the link leads to the bound; so it is drawn as a leaf. A sketch has met the leaf and
the edge to it before. Although drawings differ in these leaves, their sketches do not.

* `SameSketch`: two trees that add the same to a sketch.
* `Survey.drawAll_again`: a link that is drawn again is drawn as a leaf.
* `Survey.expand_once`: the drawing that shows every link once.
* `Survey.tree_sameSketch`: surveys that tell the same, apart from links that repeat, give the same sketch.
* `project_congr`: what is sketched alike has the same graph.
-/

namespace ArchFlow

namespace FlowTree

variable {edge : FlowTree → FlowTree → GraphEdge} {toChild : FlowTree → GraphEdge}

theorem preorders_append (ts us : List FlowTree) : preorders (ts ++ us) = preorders ts ++ preorders us := by
  rw [preorders_eq_flatMap, preorders_eq_flatMap, preorders_eq_flatMap, List.flatMap_append]

theorem edgesTo_append (ts us : List FlowTree) :
    edgesTo edge toChild (ts ++ us) = edgesTo edge toChild ts ++ edgesTo edge toChild us := by
  induction ts with
  | nil => rfl
  | cons t ts ih => rw [List.cons_append, edgesTo, edgesTo, ih, List.append_assoc, List.cons_append]

theorem preorders_singleton (t : FlowTree) : preorders [t] = t.preorder := List.append_nil _

theorem edgesTo_singleton (t : FlowTree) : edgesTo edge toChild [t] = t.edges edge ++ [toChild t] := rfl

end FlowTree

/-! ## Edges of nodes that are alike -/

section Edge

variable {labeling : EdgeLabeling} {linkLabel : String → String} {p q c d : FlowTree}

theorem edgeBetween_parent (hid : p.id = q.id) (hlabel : p.label = q.label) :
    edgeBetween labeling linkLabel p = edgeBetween labeling linkLabel q := by
  funext c
  simp only [edgeBetween, edgeLabel, hid, hlabel]

theorem edgeBetween_child (h : Survey.link c = Survey.link d) :
    edgeBetween labeling linkLabel p c = edgeBetween labeling linkLabel p d := by
  have hvia : c.via = d.via := congrArg Prod.fst h
  have hid : c.id = d.id := congrArg Prod.snd h
  simp only [edgeBetween, edgeLabel, hvia, hid]

end Edge

/-! ## Trees that are sketched alike -/

/-- Two trees are reached in the same way, and add the same elements and edges to a sketch, in the same order. -/
structure SameSketch (edge : FlowTree → FlowTree → GraphEdge) (t u : FlowTree) : Prop where
  link : Survey.link t = Survey.link u
  ids : (t.preorder.map (·.id)).eraseDups = (u.preorder.map (·.id)).eraseDups
  edges : (t.edges edge).eraseDups = (u.edges edge).eraseDups

/-- The children of two nodes add the same elements and edges to a sketch, in the same order. -/
structure SameSketches (edge : FlowTree → FlowTree → GraphEdge) (toChild : FlowTree → GraphEdge)
    (ts us : List FlowTree) : Prop where
  ids : ((FlowTree.preorders ts).map (·.id)).eraseDups = ((FlowTree.preorders us).map (·.id)).eraseDups
  edges : (FlowTree.edgesTo edge toChild ts).eraseDups = (FlowTree.edgesTo edge toChild us).eraseDups

section Sketches

variable {edge : FlowTree → FlowTree → GraphEdge} {toChild : FlowTree → GraphEdge} {t u : FlowTree}
  {ts us : List FlowTree}

protected theorem SameSketch.refl (edge : FlowTree → FlowTree → GraphEdge) (t : FlowTree) : SameSketch edge t t :=
  ⟨rfl, rfl, rfl⟩

theorem SameSketch.symm (h : SameSketch edge t u) : SameSketch edge u t := ⟨h.link.symm, h.ids.symm, h.edges.symm⟩

theorem SameSketch.trans {w : FlowTree} (h : SameSketch edge t u) (h' : SameSketch edge u w) : SameSketch edge t w :=
  ⟨h.link.trans h'.link, h.ids.trans h'.ids, h.edges.trans h'.edges⟩

/-- One more child on both sides. -/
theorem SameSketches.concat (h : SameSketches edge toChild ts us) (htu : SameSketch edge t u)
    (hedge : toChild t = toChild u) : SameSketches edge toChild (ts ++ [t]) (us ++ [u]) where
  ids := by
    rw [FlowTree.preorders_append, FlowTree.preorders_append, FlowTree.preorders_singleton,
      FlowTree.preorders_singleton, List.map_append, List.map_append]
    exact eraseDups_append_congr h.ids htu.ids
  edges := by
    rw [FlowTree.edgesTo_append, FlowTree.edgesTo_append, FlowTree.edgesTo_singleton, FlowTree.edgesTo_singleton, hedge]
    exact eraseDups_append_congr h.edges (eraseDups_append_congr htu.edges rfl)

/-- A leaf whose element and edge were there before adds nothing. -/
theorem SameSketches.again (h : SameSketches edge toChild ts us) (hleaf : t.children = []) {c : FlowTree}
    (hc : c ∈ ts) (hid : c.id = t.id) (hedge : toChild c = toChild t) : SameSketches edge toChild (ts ++ [t]) us where
  ids := by
    have hnode : c ∈ FlowTree.preorders ts := by
      rw [FlowTree.preorders_eq_flatMap, List.mem_flatMap]
      exact ⟨c, hc, c.preorder_eq ▸ List.mem_cons_self⟩
    have hold : t.preorder.map (·.id) ⊆ (FlowTree.preorders ts).map (·.id) := by
      have hmem : t.id ∈ (FlowTree.preorders ts).map (·.id) := List.mem_map.2 ⟨c, hnode, hid⟩
      rw [t.preorder_eq, hleaf]
      exact List.cons_subset.2 ⟨hmem, List.nil_subset _⟩
    rw [FlowTree.preorders_append, FlowTree.preorders_singleton, List.map_append, eraseDups_append_of_subset hold,
      h.ids]
  edges := by
    have hold : t.edges edge ++ [toChild t] ⊆ FlowTree.edgesTo edge toChild ts := by
      rw [t.edges_eq, hleaf, ← hedge]
      exact List.cons_subset.2 ⟨(FlowTree.mem_edgesTo edge).2 ⟨c, hc, .inr rfl⟩, List.nil_subset _⟩
    rw [FlowTree.edgesTo_append, FlowTree.edgesTo_singleton, eraseDups_append_of_subset hold, h.edges]

/-- Nodes are sketched alike if their children are. -/
theorem SameSketch.node (hlink : Survey.link t = Survey.link u) (hedge : edge t = edge u)
    (h : SameSketches edge (edge u) t.children u.children) : SameSketch edge t u where
  link := hlink
  ids := by
    have hid : t.id = u.id := congrArg Prod.snd hlink
    have hroot : [u.id].eraseDups = [u.id].eraseDups := rfl
    rw [t.preorder_eq, u.preorder_eq, List.map_cons, List.map_cons, hid]
    exact eraseDups_append_congr hroot h.ids
  edges := by
    rw [t.edges_eq, u.edges_eq, hedge]
    exact h.edges

end Sketches

/-! ## Links that repeat -/

namespace Survey

variable {v w : Survey}

/-- What is known of elements, with every link once. -/
def once (v : Survey) : Survey := { v with next := fun id => appendAllNew [] (v.next id) }

/-- What links lead to is expanded when all of them are drawn, unless it is at the bound; drawn again, it is a leaf. -/
theorem drawAll_again {n : Nat} {l : List (Option String × ElementId)} {a : Option String × ElementId} (ha : a ∈ l)
    (seen : List ElementId) :
    v.expand n a.2 a.1 (drawAll (v.expand n) l seen).2 = (v.leaf a.2 a.1, (drawAll (v.expand n) l seen).2) := by
  cases n with
  | zero => rfl
  | succ n =>
    refine expand_of_mem ?_ (n + 1) a.1
    have hdraws : v.Draws (n + 1) (FlowTree.forestBelow [] (drawAll (v.expand (n + 1)) l seen).1) seen
        (drawAll (v.expand (n + 1)) l seen).2 := drawAll_draws (expand_draws (n + 1) [] (Nat.zero_add _)) l seen
    have hlinks : (drawAll (v.expand (n + 1)) l seen).1.map link = l := map_link_drawAll (link_expand (n + 1)) l seen
    rw [← hlinks] at ha
    obtain ⟨t, ht, rfl⟩ := List.mem_map.1 ha
    have hroot : ⟨[], t⟩ ∈ t.occurrencesBelow [] := t.root_mem_occurrences
    exact (hdraws.seen t.id).2 (.inr (mem_idsAbove.2
      ⟨⟨[], t⟩, FlowTree.mem_forestBelow.2 ⟨t, ht, hroot⟩, Nat.succ_pos n, rfl⟩))

section Once

variable {edge : FlowTree → FlowTree → GraphEdge} {n : Nat}

theorem drawAll_once {toChild : FlowTree → GraphEdge} (hchild : ∀ c d, link c = link d → toChild c = toChild d)
    (h : ∀ id via seen, (v.expand n id via seen).2 = (v.once.expand n id via seen).2 ∧
      SameSketch edge (v.expand n id via seen).1 (v.once.expand n id via seen).1)
    (seen : List ElementId) (l : List (Option String × ElementId)) :
    (drawAll (v.expand n) l seen).2 = (drawAll (v.once.expand n) (appendAllNew [] l) seen).2 ∧
      SameSketches edge toChild (drawAll (v.expand n) l seen).1
        (drawAll (v.once.expand n) (appendAllNew [] l) seen).1 := by
  -- from left to right: the links up to here are drawn, and the next one is new or it is drawn again
  induction l using List.reverseRecOn with
  | nil => exact ⟨rfl, rfl, rfl⟩
  | append_singleton l a ih =>
    obtain ⟨hseen, hsketch⟩ := ih
    have hlast : ∀ draw : Draw, drawAll draw [a] = fun seen => ([(draw a.2 a.1 seen).1], (draw a.2 a.1 seen).2) :=
      fun _ => rfl
    have honce : appendAllNew [] (l ++ [a]) = appendNew (appendAllNew [] l) a := appendAllNew_append [] l [a]
    rw [honce, drawAll_append, hlast]
    dsimp only
    by_cases ha : a ∈ l
    · have hlinks : (drawAll (v.expand n) l seen).1.map link = l := map_link_drawAll (link_expand n) l seen
      obtain ⟨c, hc, hlink⟩ := List.mem_map.1 (hlinks.symm ▸ ha)
      rw [appendNew, if_pos (mem_appendAllNew.2 (.inr ha)), drawAll_again ha seen]
      exact ⟨hseen, hsketch.again rfl hc (congrArg Prod.snd hlink) (hchild c _ hlink)⟩
    · have hnew : a ∉ appendAllNew [] l := fun h => (mem_appendAllNew.1 h).elim List.not_mem_nil ha
      rw [appendNew, if_neg hnew, drawAll_append, hlast, ← hseen]
      obtain ⟨hseen', hsketch'⟩ := h a.2 a.1 (drawAll (v.expand n) l seen).2
      exact ⟨hseen', hsketch.concat hsketch' (hchild _ _ hsketch'.link)⟩

end Once

variable {labeling : EdgeLabeling} {linkLabel : String → String}

/-- Links that repeat make no difference to what is expanded, and none to a sketch. -/
theorem expand_once (n : Nat) :
    ∀ id via seen, (v.expand n id via seen).2 = (v.once.expand n id via seen).2 ∧
      SameSketch (edgeBetween labeling linkLabel) (v.expand n id via seen).1 (v.once.expand n id via seen).1 := by
  induction n with
  | zero => exact fun id via seen => ⟨rfl, .refl _ _⟩
  | succ n ih =>
    intro id via seen
    rw [expand, expand]
    split
    · exact ⟨rfl, .refl _ _⟩
    · have hchild : ∀ c d, link c = link d → edgeBetween labeling linkLabel (v.leaf id via) c =
          edgeBetween labeling linkLabel (v.leaf id via) d := fun _ _ => edgeBetween_child
      obtain ⟨hseen, hsketch⟩ := drawAll_once hchild ih (id :: seen) (v.next id)
      exact ⟨hseen, .node rfl (edgeBetween_parent rfl rfl) hsketch⟩

/-- The same is sketched of drawings from surveys that tell the same, apart from links that repeat. -/
theorem tree_sameSketch (hlabel : v.label = w.label) (hattributes : v.attributes = w.attributes)
    (hnext : ∀ id, appendAllNew [] (v.next id) = appendAllNew [] (w.next id)) (m : Nat) (root : ElementId) :
    SameSketch (edgeBetween labeling linkLabel) (v.tree m root) (w.tree m root) := by
  have hv : SameSketch (edgeBetween labeling linkLabel) (v.tree m root) (v.once.tree m root) :=
    (expand_once m root none []).2
  have hw : SameSketch (edgeBetween labeling linkLabel) (w.tree m root) (w.once.tree m root) :=
    (expand_once m root none []).2
  have honce : v.once = w.once := by
    rw [once, once, hlabel, hattributes, funext hnext]
  rw [honce] at hv
  exact hv.trans hw.symm

end Survey

/-! ## Graphs -/

/-- Trees that are sketched alike have the same graph, if their elements are labelled alike. -/
theorem project_congr {ω : Type} {l : Labeler ω} {labeling : EdgeLabeling} {t u : FlowTree} {s s' : State ω}
    (h : SameSketch (edgeBetween labeling l.link) t u)
    (hlabels : ∀ ids, (labelNodes l ids s).1 = (labelNodes l ids s').1) :
    (project l labeling [t] s).1 = (project l labeling [u] s').1 := by
  have hsketch : Sketch.blank.addTrees (edgeBetween labeling l.link) [t] =
      Sketch.blank.addTrees (edgeBetween labeling l.link) [u] := by
    rw [Sketch.addTrees_eq, Sketch.addTrees_eq, FlowTree.preorders_singleton, FlowTree.preorders_singleton,
      List.flatMap_singleton, List.flatMap_singleton]
    have hids : appendAllNew [] (t.preorder.map (·.id)) = appendAllNew [] (u.preorder.map (·.id)) := by
      rw [appendAllNew_nil, appendAllNew_nil, h.ids]
    have hedges : appendAllNew [] (t.edges (edgeBetween labeling l.link)) =
        appendAllNew [] (u.edges (edgeBetween labeling l.link)) := by
      rw [appendAllNew_nil, appendAllNew_nil, h.edges]
    exact congrArg₂ Sketch.mk hids hedges
  rw [project, project, hsketch]
  exact congrArg (Graph.mk · _) (hlabels _)

end ArchFlow
