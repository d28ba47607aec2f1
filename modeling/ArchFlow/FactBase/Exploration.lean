import ArchFlow.FactBase.Basic

/-!
# Exploration of links

The targets of the links of one type from an element are what the matching sources answer, each id once. A target that
is not registered is remembered with the type under which it was met.

* `FactBase.targets`: the targets; the first failure of a source fails the exploration.
-/

namespace ArchFlow

namespace FactBase

variable {ω : Type} (b : FactBase ω)

/-- Remembers the type of an element that is not registered. -/
def remember (met : List (ElementId × ElementType)) (e : Element) : List (ElementId × ElementType) :=
  if (b.types.lookup e.id).isSome then met else classifyAs e.id e.type met

/-- The targets in an answer that are not found yet. -/
def freshTargets (targetType : ElementType) (found answer : List Element) : List Element :=
  firstById (found.map (·.id)) (answer.filter fun e => e.type.fits targetType)

/-- Asks the sources in turn for targets of an element; targets are remembered source by source. -/
def ask (source : ElementId) (type : ElementType) :
    List (LinkSource ω) → List Element → State ω → Except Failure (List Element) × State ω
  | [], found, s => (.ok found, s)
  | r :: rs, found, s =>
    if type.fits r.sourceType then
      match r.load source s.world with
      | (.error failure, w) => (.error failure, { s with world := w })
      | (.ok answer, w) =>
        let fresh := freshTargets r.targetType found answer
        ask source type rs (found ++ fresh) { s with met := fresh.foldl b.remember s.met, world := w }
    else ask source type rs found s

/-- The targets of the links of exactly the given type from an element. -/
def targets (link : LinkType) (source : ElementId) (s : State ω) : Except Failure (List Element) × State ω :=
  match b.typeOf? s source with
  | none => (.error (.unknownElement source), s)
  | some type => b.ask source type (b.links.filter fun r => r.linkType = link) [] s

end FactBase

end ArchFlow
