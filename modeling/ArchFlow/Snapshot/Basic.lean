import ArchFlow.Catalog.Types
import ArchFlow.Element.Basic
import ArchFlow.SortedMap

/-!
# Snapshots

A snapshot states facts: which elements there are, of which kind and with which attributes, and which links lead from
one to another. An element without an id of its own goes by one that is derived from its kind and name. A link refers
to its ends by id or by name.

* `Snapshot.resolve?`: the element that a reference means.
* `Snapshot.resolvedLinks`: the links whose ends are both elements of the snapshot.
-/

namespace ArchFlow

/-- A fact about an element. -/
structure ElementFact where
  id : Option String
  kind : String
  name : Option String
  attributes : SortedMap String String

/-- A fact about a link; its ends are ids or names. -/
structure LinkFact where
  source : String
  target : String
  kind : String
deriving DecidableEq

/-- Facts about elements and links. -/
structure Snapshot where
  elements : List ElementFact
  links : List LinkFact

/-- The id of the element that a fact is about. -/
def ElementFact.elementId (f : ElementFact) : ElementId :=
  match f.id with
  | some id => id
  | none => .derived f.kind (f.name.getD "")

/-- A fact about an element, with the id that it goes by. -/
structure IdentifiedFact where
  id : ElementId
  fact : ElementFact

/-- The fact as an element of its kind. -/
def IdentifiedFact.element (f : IdentifiedFact) : Element := ⟨f.id, .ofKind f.fact.kind⟩

/-- A link between two elements of a snapshot. -/
structure ResolvedLink where
  kind : String
  source : IdentifiedFact
  target : IdentifiedFact

/-- The kind of a link and those of its ends. -/
def ResolvedLink.group (l : ResolvedLink) : String × String × String :=
  (l.kind, l.source.fact.kind, l.target.fact.kind)

/-- The fact that a reference means: the last one with that id, or else the first one with that name. -/
def resolveIn (facts : List IdentifiedFact) (reference : String) : Option IdentifiedFact :=
  (facts.reverse.find? (·.id = reference)).or (facts.find? (·.fact.name = some reference))

namespace Snapshot

/-- The facts about elements with their ids. -/
def identified (s : Snapshot) : List IdentifiedFact := s.elements.map fun f => ⟨f.elementId, f⟩

/-- The element that a reference means. -/
def resolve? (s : Snapshot) (reference : String) : Option IdentifiedFact := resolveIn s.identified reference

/-- A link between the facts that its ends refer to. -/
def linkIn (facts : List IdentifiedFact) (l : LinkFact) : Option ResolvedLink := do
  let source ← resolveIn facts l.source
  let target ← resolveIn facts l.target
  return ⟨l.kind, source, target⟩

/-- The links whose ends are both elements of the snapshot. -/
def resolvedLinks (s : Snapshot) : List ResolvedLink := s.links.filterMap (linkIn s.identified)

end Snapshot

end ArchFlow
