import ArchFlow.FactBase.Slot

/-!
# Fact bases

A fact base is what the registrations of all providers come to: the slots, the types of the ids in them, and the
sources that are asked for attributes and links when somebody wants to know. It never changes. What changes is beside
it in a `State`: the types of elements that were met as targets of links, the attribute values that were resolved, and
the world of the providers.

* `Registry.build`: the fact base of a registry.
* `FactBase.typeOf?`: the type of an element, registered or met.
* `FactBase.rootsOf`: the registered elements of a type.
-/

namespace ArchFlow

/-- The registrations of all providers, with the elements that were enumerated. -/
structure FactBase (ω : Type) where
  slots : List Slot
  /-- The type of each registered id. -/
  types : List (ElementId × ElementType)
  attributes : List (AttributeSource ω)
  links : List (LinkSource ω)

/-- What changes while a fact base is queried. -/
structure State (ω : Type) where
  /-- The types of elements that are not registered, but were met as targets of links. -/
  met : List (ElementId × ElementType)
  /-- The attribute values that were resolved, by name and element. -/
  resolved : List ((String × ElementId) × Option String)
  world : ω

/-- Nothing was asked yet. -/
def State.fresh {ω : Type} (w : ω) : State ω := ⟨[], [], w⟩

/-- Enumerates all elements once and keeps the result. -/
def Registry.build {ω : Type} (r : Registry ω) : Loader ω (FactBase ω) := fun w =>
  match enumerate r.roots [] w with
  | (.error failure, w) => (.error failure, w)
  | (.ok slots, w) => (.ok ⟨slots, typeTable slots, r.attributes, r.links⟩, w)

/-- The elements of a list whose ids are neither in `seen` nor earlier in the list. -/
def firstById (seen : List ElementId) : List Element → List Element
  | [] => []
  | e :: es => if e.id ∈ seen then firstById seen es else e :: firstById (e.id :: seen) es

namespace FactBase

variable {ω : Type} (b : FactBase ω)

/-- The type of an element that is registered or was met. -/
def typeOf? (s : State ω) (id : ElementId) : Option ElementType :=
  (b.types.lookup id).or (s.met.lookup id)

/-- Whether an element is registered or was met. -/
def contains (s : State ω) (id : ElementId) : Bool := (b.typeOf? s id).isSome

/-- The type of an element; there is none of an unknown one. -/
def typeOf (s : State ω) (id : ElementId) : Except Failure ElementType :=
  match b.typeOf? s id with
  | some type => .ok type
  | none => .error (.unknownElement id)

theorem typeOf_eq_ok_iff {s : State ω} {id : ElementId} {type : ElementType} :
    b.typeOf s id = .ok type ↔ b.typeOf? s id = some type := by
  rw [typeOf]
  split <;> simp_all

/-- Number of registered ids. -/
def size : Nat := b.types.length

/-- The types that elements were registered under, in the order of registration. -/
def slotTypes : List ElementType := b.slots.map (·.type)

/-- The registered elements whose declared type is within `type`, each id once, in the order of registration. -/
def rootsOf (type : ElementType) : List Element :=
  firstById [] ((b.slots.flatMap (·.elements)).filter fun e => e.type.refines type)

/-- The names of the attributes that somebody can be asked for, in order. -/
def attributeNames : List String := (SortedSet.ofList (b.attributes.map (·.name))).toList

end FactBase

end ArchFlow
