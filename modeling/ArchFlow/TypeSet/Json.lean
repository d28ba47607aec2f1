import ArchFlow.Element.Basic
import ArchFlow.Json.Decode
import ArchFlow.Json.Value

/-!
# Types and elements in JSON

A type is an object with the list of its conjuncts, each a list of predicates. Whatever conjuncts are read, the type
is brought into normal form.
-/

namespace ArchFlow

open Json (Value Decoder)
open Json.Decoder (Fields)

/-! ## Predicates -/

/-- A predicate as an object of its key and its value. -/
def Predicate.toJson (p : Predicate) : Value := .object [("key", .string p.key), ("value", .string p.value)]

/-- Decodes a predicate. -/
def Predicate.decoder : Decoder Predicate :=
  (Decoder.record "Predicate" <|
    Fields.required "key" Decoder.text <| Fields.required "value" Decoder.text .nil).map
    fun (key, value, _) => ⟨key, value⟩

/-! ## Types -/

/-- A type as an object with the list of its conjuncts. -/
def TypeSet.toJson (a : TypeSet) : Value :=
  .object [("disjuncts", .array (a.disjuncts.toList.map fun c => .array (c.toList.map Predicate.toJson)))]

/-- Decodes a type; without a list of conjuncts it is the empty one. -/
def TypeSet.decoder : Decoder TypeSet :=
  (Decoder.record "RawTypeSet" <|
    Fields.withDefault "disjuncts" [] (Decoder.list (Decoder.list Predicate.decoder)) .nil).map
    fun (disjuncts, _) => .ofDisjuncts disjuncts

/-! ## Elements -/

/-- An element as an object of its id and its type. -/
def Element.toJson (e : Element) : Value := .object [("id", .string e.id), ("element_type", e.type.toJson)]

/-- Decodes an element. -/
def Element.decoder : Decoder Element :=
  (Decoder.record "Element" <|
    Fields.required "id" Decoder.text <| Fields.required "element_type" TypeSet.decoder .nil).map
    fun (id, type, _) => ⟨id, type⟩

end ArchFlow
