import ArchFlow.Proofs.Flow.Occurrence
import Mathlib.Order.Bounds.Defs

/-!
# Iteration over a flow tree

The nodes of a tree are visited with a stack of trees that are still to come. An iterator keeps the top of the stack at
its end: it takes the last tree, and puts the children of that tree in its place in reverse order, so that the first
child comes next. However the stack is written down, what is still to come is the pre-order of its trees, the top one
first, and the number of nodes that are still to come goes down with every step.

* `FlowTree.visit_eq_preorders`: a stack of trees is visited in pre-order.
* `FlowTree.yields_iff`: an iterator ends, and yields what the visit of its stack does.
* `FlowTree.walk_preorder`: the iterator over a tree against the recursive order, the size and the height.
-/

namespace ArchFlow

namespace FlowTree

/-! ## Stacks with the top at the end -/

/-- One step of an iterator: it yields the last tree of the stack and puts the children there, the first one last. -/
def next? (stack : List FlowTree) : Option (FlowTree × List FlowTree) :=
  stack.getLast?.map fun t => (t, stack.dropLast ++ t.children.reverse)

/-- The nodes that an iterator yields, one step after the other, until its stack is empty. -/
inductive Yields : List FlowTree → List FlowTree → Prop
  | done {stack} (h : next? stack = none) : Yields stack []
  | step {stack rest t ts} (h : next? stack = some (t, rest)) (hrest : Yields rest ts) : Yields stack (t :: ts)

theorem next?_nil : next? [] = none := rfl

/-- Read from the top, one step replaces a tree by its children. -/
theorem next?_reverse_cons (t : FlowTree) (stack : List FlowTree) :
    next? (t :: stack).reverse = some (t, (t.children ++ stack).reverse) := by
  simp [next?]

/-- What is visited of a stack an iterator yields. -/
theorem yields_visit (stack : List FlowTree) : Yields stack.reverse (visit stack) := by
  induction stack using visit.induct with
  | case1 =>
    rw [visit]
    exact .done next?_nil
  | case2 t stack ih =>
    rw [visit]
    exact .step (next?_reverse_cons t stack) ih

/-- An iterator yields nothing else. -/
theorem Yields.unique {stack ts us : List FlowTree} (hts : Yields stack ts) (hus : Yields stack us) : ts = us := by
  induction hts generalizing us with
  | done h =>
    cases hus with
    | done => rfl
    | step h' => rw [h] at h'; cases h'
  | step h _ ih =>
    cases hus with
    | done h' => rw [h] at h'; cases h'
    | step h' hrest =>
      rw [h] at h'
      cases h'
      rw [ih hrest]

/-- An iterator ends, and yields the visit of its stack. -/
theorem yields_iff {stack ts : List FlowTree} : Yields stack.reverse ts ↔ ts = visit stack :=
  ⟨fun h => h.unique (yields_visit stack), fun h => h ▸ yields_visit stack⟩

/-! ## Pre-order -/

/-- A stack of trees is visited in pre-order, tree by tree. -/
theorem visit_eq_preorders (stack : List FlowTree) : visit stack = preorders stack := by
  induction stack using visit.induct with
  | case1 => rw [visit, preorders]
  | case2 t stack ih =>
    rw [visit, ih, preorders, preorder_eq, List.cons_append]
    simp only [preorders_eq_flatMap, List.flatMap_append]

theorem walk_eq_preorder (t : FlowTree) : t.walk = t.preorder := by
  rw [walk, visit_eq_preorders, preorders, preorders, List.append_nil]

mutual

/-- The pre-order has as many nodes as the tree. -/
theorem length_preorder : ∀ t : FlowTree, t.preorder.length = t.size
  | ⟨_, _, _, _, children⟩ => by
    rw [preorder, size, List.length_cons, length_preorders children, Nat.add_comm]

theorem length_preorders : ∀ ts : List FlowTree, (preorders ts).length = sizes ts
  | [] => rfl
  | t :: ts => by rw [preorders, sizes, List.length_append, length_preorder t, length_preorders ts]

end

/-! ## Depth -/

/-- Some node is as deep as the tree is high. -/
theorem exists_depth_eq_height (t : FlowTree) : ∃ o ∈ t.occurrences, o.depth = t.height := by
  refine Decidable.byContradiction fun hnone => ?_
  have hdepth : ∀ o ∈ t.occurrences, o.depth < t.height := fun o ho =>
    Nat.lt_of_le_of_ne (height_le_iff.1 (Nat.le_refl t.height) o ho) fun h => hnone ⟨o, ho, h⟩
  -- The root is among the nodes, so the height is not zero, and one less bounds all depths as well.
  have hpos : 0 < t.height := hdepth _ t.root_mem_occurrences
  have hless : t.height ≤ t.height - 1 := height_le_iff.2 fun o ho => Nat.le_sub_one_of_lt (hdepth o ho)
  omega

/-- **The iterator over a tree is the recursive pre-order.** Started with the tree alone on its stack it ends, and yields
the tree and then the pre-orders of its children from left to right. It yields as many nodes as the size of the tree
tells, and the height is the greatest depth of any of them. -/
theorem walk_preorder (t : FlowTree) :
    (∀ ts, Yields [t] ts ↔ ts = t.walk) ∧ t.walk = t.preorder ∧ t.preorder = t :: t.children.flatMap preorder ∧
      t.walk.length = t.size ∧ t.walk = t.occurrences.map (·.node) ∧
      IsGreatest {depth | ∃ o ∈ t.occurrences, o.depth = depth} t.height := by
  refine ⟨fun ts => @yields_iff [t] ts, t.walk_eq_preorder, ?recursion, ?size, ?nodes, t.exists_depth_eq_height,
    ?height⟩
  case recursion => rw [preorder_eq, preorders_eq_flatMap]
  case size => rw [walk_eq_preorder, length_preorder]
  case nodes => rw [walk_eq_preorder, map_node_occurrences]
  case height =>
    rintro _ ⟨o, ho, rfl⟩
    exact height_le_iff.1 (Nat.le_refl t.height) o ho

end FlowTree

end ArchFlow
