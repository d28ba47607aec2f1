import ArchFlow.Failure

/-!
# Providers of facts

Facts come from providers, which are asked for elements, for attribute values and for the targets of links. A provider
lives in a world of type `ω`: asking it may change the world, and what it answers may depend on it. So an answer may
change from one request to the next, any request may fail, and whatever else goes on in the world may go on meanwhile.

* `Registry`: what providers register, in the order in which they do.
* `Loader.Steady`: a loader that answers the same in every world.
-/

namespace ArchFlow

/-- Asks a provider: its answer, and the world afterwards. -/
abbrev Loader (ω α : Type) := ω → Except Failure α × ω

/-- The loader that gives a fixed answer and leaves the world as it is. -/
def Loader.constant {ω α : Type} (a : α) : Loader ω α := fun w => (.ok a, w)

/-- The loader answers the same in every world, be it a value or a failure. -/
def Loader.Steady {ω α : Type} (load : Loader ω α) (answer : Except Failure α) : Prop := ∀ w, (load w).1 = answer

/-- Enumerates the elements of a type. -/
structure RootSource (ω : Type) where
  slotType : ElementType
  load : Loader ω (List Element)

/-- Gives the value of an attribute of elements of a type; no value means that the attribute does not apply. -/
structure AttributeSource (ω : Type) where
  elementType : ElementType
  name : String
  load : ElementId → Loader ω (Option String)

/-- Gives the targets of the links of a type from elements of one type to elements of another. -/
structure LinkSource (ω : Type) where
  linkType : LinkType
  sourceType : ElementType
  targetType : ElementType
  load : ElementId → Loader ω (List Element)

/-- What providers register. -/
structure Registry (ω : Type) where
  roots : List (RootSource ω) := []
  attributes : List (AttributeSource ω) := []
  links : List (LinkSource ω) := []

namespace Registry

variable {ω : Type}

/-- What two providers register one after the other. -/
def append (r s : Registry ω) : Registry ω where
  roots := r.roots ++ s.roots
  attributes := r.attributes ++ s.attributes
  links := r.links ++ s.links

instance : Append (Registry ω) := ⟨append⟩

/-- What several providers register one after the other. -/
def join (rs : List (Registry ω)) : Registry ω := rs.foldl append {}

end Registry

end ArchFlow
