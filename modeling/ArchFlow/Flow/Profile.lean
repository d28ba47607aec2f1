import ArchFlow.Catalog.Types

/-!
# Profiles

A profile says which links a flow follows and in which order, which attributes it resolves, how it classifies
elements, and how deep it goes unless told otherwise.

* `Profile.architecture`: the profile of the catalog.
* `Profile.classify`: the label of a type.
-/

namespace ArchFlow

/-- What a flow follows and shows. -/
structure Profile where
  linkTypes : List LinkType
  attributeNames : List String
  /-- Labels and the types that they stand for; the first row that fits counts. -/
  classification : List (String × ElementType)
  maxDepth : UInt64

/-- How deep a flow goes unless told otherwise. -/
def defaultDepth : UInt64 := 10

/-- The profile of the catalog. -/
def Profile.architecture : Profile where
  linkTypes := Catalog.linkTypes
  attributeNames := Attribute.resolved
  classification := Catalog.classification
  maxDepth := defaultDepth

/-- The label of a type: that of the first row one of its classifications fits. -/
def Profile.classify (p : Profile) (type : ElementType) : String :=
  match p.classification.find? fun row => type.fits row.2 with
  | some row => row.1
  | none => Catalog.Label.unknown

end ArchFlow
