import ArchFlow.FactBase.Basic

/-!
# Resolution of attributes

The value of an attribute is the first one that is not empty among the answers of the sources for that attribute whose
type describes the element. Once resolved it is kept, and so is the knowledge that there is none; a failure is not.

* `FactBase.resolve?`: the value, if there is one.
* `FactBase.resolve`: the value; it is a failure if there is none.
-/

namespace ArchFlow

namespace FactBase

variable {ω : Type} (b : FactBase ω)

/-- Asks the sources in turn for a value that is not empty. -/
def firstValue (id : ElementId) (type : ElementType) : List (AttributeSource ω) → Loader ω (Option String)
  | [], w => (.ok none, w)
  | r :: rs, w =>
    if type.fits r.elementType then
      match r.load id w with
      | (.error failure, w) => (.error failure, w)
      | (.ok answer, w) =>
        match answer.filter (· ≠ "") with
        | some value => (.ok (some value), w)
        | none => firstValue id type rs w
    else firstValue id type rs w

/-- The value of an attribute of an element, if there is one. -/
def resolve? (name : String) (id : ElementId) (s : State ω) : Except Failure (Option String) × State ω :=
  match b.typeOf? s id with
  | none => (.error (.unknownElement id), s)
  | some type =>
    match s.resolved.lookup (name, id) with
    | some value => (.ok value, s)
    | none =>
      match firstValue id type (b.attributes.filter fun r => r.name = name) s.world with
      | (.error failure, w) => (.error failure, { s with world := w })
      | (.ok value, w) => (.ok value, { s with resolved := ((name, id), value) :: s.resolved, world := w })

/-- The value of an attribute of an element. -/
def resolve (name : String) (id : ElementId) (s : State ω) : Except Failure String × State ω :=
  match b.resolve? name id s with
  | (.error failure, s) => (.error failure, s)
  | (.ok (some value), s) => (.ok value, s)
  | (.ok none, s) => (.error (.attributeNotApplicable name id), s)

end FactBase

end ArchFlow
