import ArchFlow.Flow.Tree

/-!
# Outlines

A flow as a nested Markdown list: a line for each node, and below it a line for each of its attributes.

* `FlowTree.outline`: the text.
-/

namespace ArchFlow

namespace FlowTree

/-- Two blanks for each level. -/
def indent (level : Nat) : String := String.ofList (List.replicate (2 * level) ' ')

/-- The lines of the attributes of a node. -/
def attributeLines (level : Nat) (attributes : SortedMap String String) : List String :=
  attributes.toList.map fun (name, value) => indent level ++ "  - " ++ name ++ ": `" ++ value ++ "`\n"

/-- How a node was reached. -/
def viaText : Option String → String
  | some kind => " _via " ++ kind ++ "_"
  | none => ""

mutual

/-- The lines of a tree. -/
def outlineLines (level : Nat) : FlowTree → List String
  | ⟨id, label, attributes, via, children⟩ =>
    (indent level ++ "- **" ++ id ++ "** (" ++ label ++ ")" ++ viaText via ++ "\n") ::
      attributeLines level attributes ++ allOutlineLines (level + 1) children

/-- The lines of several trees. -/
def allOutlineLines (level : Nat) : List FlowTree → List String
  | [] => []
  | t :: ts => outlineLines level t ++ allOutlineLines level ts

end

/-- The text of the outline of a flow. -/
def outline (t : FlowTree) : String :=
  "## Flow\n" ++ "**Root:** " ++ t.id ++ " (" ++ t.label ++ ")\n\n" ++ String.join (t.outlineLines 0)

end FlowTree

end ArchFlow
