import ArchFlow.Element.Basic
import ArchFlow.SortedMap

/-!
# Flow trees

A flow is a tree of occurrences of elements: each node tells how its element is classified, which attributes it has,
and through which kind of link it was reached.

* `FlowTree.preorder`: a node before its children, the children from left to right.
* `FlowTree.walk`: the same order, visited with a stack of trees that are still to come.
-/

namespace ArchFlow

/-- An occurrence of an element in a flow, with what follows from it. -/
structure FlowTree where
  id : ElementId
  /-- The label of the classification of the element. -/
  label : String
  attributes : SortedMap String String
  /-- The kind of the link that led here; the root has none. -/
  via : Option String
  children : List FlowTree

instance : Inhabited FlowTree := ⟨⟨"", "", .empty, none, []⟩⟩

namespace FlowTree

/-! ## Measures -/

mutual

/-- Number of nodes. -/
def size : FlowTree → Nat
  | ⟨_, _, _, _, children⟩ => 1 + sizes children

/-- Number of nodes of several trees. -/
def sizes : List FlowTree → Nat
  | [] => 0
  | t :: ts => size t + sizes ts

end

mutual

/-- Number of levels below the root. -/
def height : FlowTree → Nat
  | ⟨_, _, _, _, children⟩ => levels children

/-- Number of levels of several trees, their roots included. -/
def levels : List FlowTree → Nat
  | [] => 0
  | t :: ts => max (height t + 1) (levels ts)

end

/-! ## Order -/

mutual

/-- The nodes, each before its children, the children from left to right. -/
def preorder : FlowTree → List FlowTree
  | t@⟨_, _, _, _, children⟩ => t :: preorders children

/-- The nodes of several trees, from left to right. -/
def preorders : List FlowTree → List FlowTree
  | [] => []
  | t :: ts => preorder t ++ preorders ts

end

/-- The trees of two lists have as many nodes as those of both. -/
theorem sizes_append (ts us : List FlowTree) : sizes (ts ++ us) = sizes ts + sizes us := by
  induction ts with
  | nil => simp [sizes]
  | cons t ts ih => simp [sizes, ih, Nat.add_assoc]

/-- Visits the trees on a stack: the next node is the top one, and its children come before the rest. -/
def visit : List FlowTree → List FlowTree
  | [] => []
  | t :: stack => t :: visit (t.children ++ stack)
termination_by stack => sizes stack
decreasing_by
  obtain ⟨_, _, _, _, children⟩ := t
  simp only [sizes_append, sizes, size]
  omega

/-- The nodes in the order in which a stack of trees visits them. -/
def walk (t : FlowTree) : List FlowTree := visit [t]

end FlowTree

end ArchFlow
