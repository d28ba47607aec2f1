import ArchFlow.Provider
import ArchFlow.Snapshot.Basic

/-!
# Snapshots as providers

A snapshot registers a slot for each kind of element, a source for each attribute of a kind, and a source for each
group of links that agree in their kind and in the kinds of their ends. Its sources answer from the snapshot alone and
never fail.

* `Snapshot.registry`: what a snapshot registers.
-/

namespace ArchFlow

/-- The elements of a kind. -/
def elementsOfKind (facts : List IdentifiedFact) (kind : String) : List Element :=
  (facts.filter (·.fact.kind = kind)).map IdentifiedFact.element

/-- The value of an attribute that the last fact about an element as one of a kind gives. -/
def statedValue (facts : List IdentifiedFact) (kind name : String) (id : ElementId) : Option String :=
  ((facts.filter fun f => f.fact.kind = kind ∧ f.id = id).filterMap fun f => f.fact.attributes.get? name).getLast?

/-- The targets of the links of a group from an element. -/
def statedTargets (links : List ResolvedLink) (group : String × String × String) (id : ElementId) : List Element :=
  (links.filter fun l => l.group = group ∧ l.source.id = id).map (·.target.element)

/-- The names of the attributes that facts about elements of a kind give, in order. -/
def statedNames (facts : List IdentifiedFact) (kind : String) : List String :=
  (SortedSet.ofList
    ((facts.filter (·.fact.kind = kind)).flatMap fun f => f.fact.attributes.toList.map (·.1))).toList

variable {ω : Type}

/-- A source for each kind, in the order in which kinds first occur. -/
def rootSources (facts : List IdentifiedFact) : List (RootSource ω) :=
  (facts.map (·.fact.kind)).eraseDups.map fun kind => ⟨.ofKind kind, .constant (elementsOfKind facts kind)⟩

/-- A source for each attribute of each kind, in the order of the kinds and names. -/
def attributeSources (facts : List IdentifiedFact) : List (AttributeSource ω) :=
  (SortedSet.ofList (facts.map (·.fact.kind))).toList.flatMap fun kind =>
    (statedNames facts kind).map fun name =>
      ⟨.ofKind kind, name, fun id => .constant (statedValue facts kind name id)⟩

/-- A source for each group of links, in the order in which groups first occur. -/
def linkSources (links : List ResolvedLink) : List (LinkSource ω) :=
  (links.map ResolvedLink.group).eraseDups.map fun group =>
    ⟨.ofKind group.1, .ofKind group.2.1, .ofKind group.2.2, fun id => .constant (statedTargets links group id)⟩

/-- What a snapshot registers. -/
def Snapshot.registry (s : Snapshot) : Registry ω :=
  let facts := s.identified
  let links := s.links.filterMap (linkIn facts)
  ⟨rootSources facts, attributeSources facts, linkSources links⟩

end ArchFlow
