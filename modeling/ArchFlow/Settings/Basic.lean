import ArchFlow.Flow.Profile
import ArchFlow.Graph.Basic

/-!
# Settings

The configuration of a project: what its flows follow and resolve, how deep they go, which kinds of elements they
start from, and how the edges of their graphs are labelled.

* `Settings.default`: the configuration of a project that has none.
* `Settings.profile`: the profile of its flows.
-/

namespace ArchFlow

/-- The configuration of a project. -/
structure Settings where
  version : UInt32
  maxDepth : UInt64
  /-- The kinds of links that flows follow, in order. -/
  followLinks : List String
  /-- The attributes that flows resolve. -/
  attributes : List String
  edgeLabels : EdgeLabeling
  /-- The kinds of elements that flows start from. -/
  rootKinds : List String
deriving DecidableEq

namespace Settings

/-- The configuration of a project that has none. -/
def default : Settings where
  version := 1
  maxDepth := defaultDepth
  followLinks := LinkKind.followed.map LinkKind.name
  attributes := Attribute.resolved
  edgeLabels := .parentLabel
  rootKinds := [ElementKind.name .endpointController, ElementKind.name .endpointMinimalApi,
    ElementKind.name .backgroundService]

/-- The profile of the flows of a project. -/
def profile (c : Settings) : Profile where
  linkTypes := c.followLinks.map TypeSet.ofKind
  attributeNames := c.attributes
  classification := Catalog.classification
  maxDepth := c.maxDepth

/-- The type of the elements that flows start from. -/
def rootType (c : Settings) : ElementType := c.rootKinds.foldl (fun a kind => a.union (.ofKind kind)) .empty

end Settings

end ArchFlow
