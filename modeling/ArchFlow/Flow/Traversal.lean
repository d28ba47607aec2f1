import ArchFlow.FactBase.Exploration
import ArchFlow.FactBase.Resolution
import ArchFlow.Flow.Profile
import ArchFlow.Flow.Tree

/-!
# Flows

A flow starts from an element and follows links, depth first. An element is expanded at most once: the first time it
occurs above the depth bound. All its other occurrences are leaves, which keeps the tree finite on cycles and small on
shared elements.

Attributes and links that cannot be loaded are left out. A flow may be cancelled while it is computed; from then on
nodes are leaves without attributes and no more links are explored.

* `Explorer.expand`: the tree of an element, by recursion on the levels that may follow below it.
* `Explorer.flow`: the tree from a root; only an unknown root is a failure.
* `Explorer.flowsOf`: a tree from each registered element of a type.
-/

namespace ArchFlow

/-- Tells whether a flow is cancelled. The flag may be raised by anybody at any time, so looking at it lets the world
go on. -/
abbrev Signal (ω : Type) := ω → Bool × ω

/-- The signal of a flow that nobody cancels. -/
def Signal.never {ω : Type} : Signal ω := fun w => (false, w)

/-- The state of a flow while it is computed. -/
structure Progress (ω : Type) where
  /-- The elements that are expanded already. -/
  expanded : List ElementId
  state : State ω

/-- What a flow is computed from. -/
structure Explorer (ω : Type) where
  base : FactBase ω
  profile : Profile
  signal : Signal ω

namespace Explorer

variable {ω : Type} (x : Explorer ω)

/-- Looks at the signal. -/
def cancelled (p : Progress ω) : Bool × Progress ω :=
  match x.signal p.state.world with
  | (up, w) => (up, { p with state := { p.state with world := w } })

/-- The label of an element, by what is known of its type. -/
def labelOf (s : State ω) (id : ElementId) : String :=
  match x.base.typeOf? s id with
  | some type => x.profile.classify type
  | none => Catalog.Label.unknown

/-- The attributes that an element has, of those named; the ones that fail to load are left out. -/
def attributesOf (id : ElementId) :
    List String → SortedMap String String → State ω → SortedMap String String × State ω
  | [], known, s => (known, s)
  | name :: names, known, s =>
    match x.base.resolve? name id s with
    | (.ok (some value), s) => attributesOf id names (known.insert name value) s
    | (_, s) => attributesOf id names known s

/-- The attributes of a node: none if the flow is cancelled when the node is reached. -/
def nodeAttributes (id : ElementId) (p : Progress ω) : SortedMap String String × Progress ω :=
  match x.cancelled p with
  | (true, p) => (.empty, p)
  | (false, p) =>
    match x.attributesOf id x.profile.attributeNames .empty p.state with
    | (attributes, s) => (attributes, { p with state := s })

/-- A way to make the tree of an element that was reached through a kind of link. -/
abbrev Grow (ω : Type) := ElementId → Option String → Progress ω → FlowTree × Progress ω

/-- A tree for each target, in order. -/
def growTargets (grow : Grow ω) (via : Option String) : List Element → Progress ω → List FlowTree × Progress ω
  | [], p => ([], p)
  | e :: es, p =>
    match grow e.id via p with
    | (t, p) =>
      match growTargets grow via es p with
      | (ts, p) => (t :: ts, p)

/-- Trees for the targets of links of each type in turn, up to a cancellation; a type whose exploration fails
contributes none. -/
def growLinks (grow : Grow ω) (id : ElementId) : List LinkType → Progress ω → List FlowTree × Progress ω
  | [], p => ([], p)
  | link :: links, p =>
    match x.cancelled p with
    | (true, p) => ([], p)
    | (false, p) =>
      match x.base.targets link id p.state with
      | (.error _, s) => growLinks grow id links { p with state := s }
      | (.ok targets, s) =>
        match growTargets grow (link.requiredValue? Attribute.kind) targets { p with state := s } with
        | (ts, p) =>
          match growLinks grow id links p with
          | (us, p) => (ts ++ us, p)

/-- The tree of an element; `remaining` levels may follow below it. -/
def expand : Nat → Grow ω
  | remaining, id, via, p =>
    let label := x.labelOf p.state id
    match x.nodeAttributes id p with
    | (attributes, p) =>
      match remaining with
      | 0 => (⟨id, label, attributes, via, []⟩, p)
      | remaining + 1 =>
        if id ∈ p.expanded then (⟨id, label, attributes, via, []⟩, p)
        else
          match x.cancelled p with
          | (true, p) => (⟨id, label, attributes, via, []⟩, p)
          | (false, p) =>
            match x.growLinks (expand remaining) id x.profile.linkTypes { p with expanded := id :: p.expanded } with
            | (children, p) => (⟨id, label, attributes, via, children⟩, p)

/-- The tree from a root, down to a depth. -/
def flow (root : ElementId) (depth : UInt64) (s : State ω) : Except Failure FlowTree × State ω :=
  if x.base.contains s root then
    match x.expand depth.toNat root none ⟨[], s⟩ with
    | (t, p) => (.ok t, p.state)
  else (.error (.unknownElement root), s)

/-- A tree from each root, up to the first failure. -/
def flows (depth : UInt64) : List ElementId → State ω → Except Failure (List FlowTree) × State ω
  | [], s => (.ok [], s)
  | root :: roots, s =>
    match x.flow root depth s with
    | (.error failure, s) => (.error failure, s)
    | (.ok t, s) =>
      match flows depth roots s with
      | (.error failure, s) => (.error failure, s)
      | (.ok ts, s) => (.ok (t :: ts), s)

/-- A tree from each registered element of a type. -/
def flowsOf (type : ElementType) (depth : UInt64) (s : State ω) : Except Failure (List FlowTree) × State ω :=
  x.flows depth ((x.base.rootsOf type).map (·.id)) s

end Explorer

end ArchFlow
