import ArchFlow.Flow.Json
import ArchFlow.Snapshot.Basic

/-!
# Snapshots in JSON

An element may leave out its id, its name and its attributes, and a snapshot either of its lists.

* `Snapshot.ofText`: the snapshot of a text.
-/

namespace ArchFlow

open Json (Value Decoder)
open Json.Decoder (Fields)

/-- A member for a value that may be left out. -/
def optionalMember (name : String) : Option String → List (String × Value)
  | some s => [(name, .string s)]
  | none => []

/-! ## Elements -/

/-- A fact about an element as an object, without members for an id or a name that it does not have. -/
def ElementFact.toJson (f : ElementFact) : Value :=
  .object (optionalMember "id" f.id ++ [("kind", .string f.kind)] ++ optionalMember "name" f.name ++
    [("attributes", .textMap f.attributes)])

/-- Decodes a fact about an element. -/
def ElementFact.decoder : Decoder ElementFact :=
  (Decoder.record "ElementFact" <|
    Fields.withDefault "id" none (Decoder.optional Decoder.text) <|
    Fields.required "kind" Decoder.text <|
    Fields.withDefault "name" none (Decoder.optional Decoder.text) <|
    Fields.withDefault "attributes" .empty Decoder.textMap .nil).map
    fun (id, kind, name, attributes, _) => ⟨id, kind, name, attributes⟩

/-! ## Links -/

/-- A fact about a link as an object. -/
def LinkFact.toJson (l : LinkFact) : Value :=
  .object [("source", .string l.source), ("target", .string l.target), ("kind", .string l.kind)]

/-- Decodes a fact about a link. -/
def LinkFact.decoder : Decoder LinkFact :=
  (Decoder.record "LinkFact" <|
    Fields.required "source" Decoder.text <| Fields.required "target" Decoder.text <|
    Fields.required "kind" Decoder.text .nil).map
    fun (source, target, kind, _) => ⟨source, target, kind⟩

/-! ## Snapshots -/

/-- A snapshot as an object of its elements and its links. -/
def Snapshot.toJson (s : Snapshot) : Value :=
  .object [("elements", .array (s.elements.map ElementFact.toJson)), ("links", .array (s.links.map LinkFact.toJson))]

/-- Decodes a snapshot; a list that is left out is empty. -/
def Snapshot.decoder : Decoder Snapshot :=
  (Decoder.record "FactSnapshot" <|
    Fields.withDefault "elements" [] (Decoder.list ElementFact.decoder) <|
    Fields.withDefault "links" [] (Decoder.list LinkFact.decoder) .nil).map
    fun (elements, links, _) => ⟨elements, links⟩

/-- The snapshot of a text. -/
def Snapshot.ofText (text : String) : Except Json.Fault Snapshot := Json.decode decoder text

end ArchFlow
