import ArchFlow.TypeSet.Basic
import ArchFlow.Element.Sha256

/-!
# Elements

An element is known by its id and by the type under which somebody declared it. Ids are opaque texts; where a fact
gives none, `ElementId.derived` makes one from the kind and the name of the element.
-/

namespace ArchFlow

/-- The name of an element, unique in a graph. -/
abbrev ElementId := String

/-- The id of an element of the given kind and name: the kind, a colon, and half of the digest of both. -/
def ElementId.derived (kind name : String) : ElementId :=
  kind ++ ":" ++ String.ofList ((Sha256.hex (kind ++ ":" ++ name)).take 32)

/-- An element and the type it was declared under. -/
structure Element where
  id : ElementId
  type : ElementType
deriving DecidableEq

end ArchFlow
