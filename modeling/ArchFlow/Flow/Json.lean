import ArchFlow.Flow.Tree
import ArchFlow.Json.Decode
import ArchFlow.Json.Value

/-!
# Flow trees in JSON

A node is an object; where it was not reached through a link, it has no member for the kind of the link. Each level of
a tree takes two levels of nesting, so only trees of a limited height can be read.

* `FlowTree.decoder`: decoding, by recursion on the levels that may still be entered.
-/

namespace ArchFlow

open Json (Value Decoder)
open Json.Decoder (Fields)

/-- An object of texts. -/
def Json.Value.textMap (m : SortedMap String String) : Value := .object (m.toList.map fun (k, v) => (k, .string v))

namespace FlowTree

mutual

/-- A tree as an object of what its root tells, with its children last. -/
def toJson : FlowTree → Value
  | ⟨id, label, attributes, via, children⟩ =>
    let kind := match via with
      | some kind => [("via", .string kind)]
      | none => []
    .object ([("element_id", .string id), ("node_type", .string label), ("attributes", .textMap attributes)] ++ kind ++
      [("children", .array (childrenToJson children))])

/-- Trees as objects, in order. -/
def childrenToJson : List FlowTree → List Value
  | [] => []
  | t :: ts => toJson t :: childrenToJson ts

end

/-- Decodes trees of limited height. -/
def decoderWithin : Nat → Decoder FlowTree
  | 0 => fun _ _ => .error .malformed
  | height + 1 =>
    (Decoder.record "FlowNode" <|
      Fields.required "element_id" Decoder.text <| Fields.required "node_type" Decoder.text <|
      Fields.required "attributes" Decoder.textMap <|
      Fields.withDefault "via" none (Decoder.optional Decoder.text) <|
      Fields.required "children" (Decoder.list (decoderWithin height)) .nil).map
      fun (id, label, attributes, via, children, _) => ⟨id, label, attributes, via, children⟩

/-- Decodes a tree; no tree is higher than the levels that may be entered. -/
def decoder : Decoder FlowTree := fun levels d => decoderWithin (levels + 1) levels d

/-- The text of a flow, with a line for each item and member. -/
def jsonText (t : FlowTree) : String := t.toJson.pretty

end FlowTree

end ArchFlow
