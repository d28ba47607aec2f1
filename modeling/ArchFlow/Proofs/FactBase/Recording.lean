import ArchFlow.Proofs.FactBase.Invariant
import ArchFlow.Proofs.FactBase.Steady

/-!
# Recorded worlds

What a fact base asks of its sources leaves no trace in its answers. A recorded world keeps one: every call of a source
is an event, with the world that it was made in and the world that it left. Recording changes neither the answers nor
the worlds, and a record has no gaps.

* `FactBase.recorded`: the base whose sources are recorded.
* `FactBase.resolve?_recorded`, `FactBase.targets_recorded`: recording changes no answer.
* `FactBase.resolve?_recorded_keeps`, `FactBase.targets_recorded_keeps`: what queries record.
* `Chained`: events that lead from one world to another.
-/

namespace ArchFlow

/-- What is asked of the world. -/
inductive Call
  | attribute (name : String) (id : ElementId)
  | links (link : LinkType) (id : ElementId)
  /-- A look at a signal, and whether it was seen up. -/
  | look (up : Bool)
deriving DecidableEq

/-- A call, with the worlds before and after it. -/
structure Event (ω : Type) where
  call : Call
  before : ω
  after : ω

/-- A world with a record of the calls so far. -/
structure Recorded (ω : Type) where
  world : ω
  events : List (Event ω)

section Record

variable {ω α : Type}

/-- Makes a call, and records it. -/
def record (call : α → Call) (act : ω → α × ω) (r : Recorded ω) : α × Recorded ω :=
  ((act r.world).1, ⟨(act r.world).2, r.events ++ [⟨call (act r.world).1, r.world, (act r.world).2⟩]⟩)

/-- The state with a record that is still empty. -/
def State.recording (s : State ω) : State (Recorded ω) := ⟨s.met, s.resolved, ⟨s.world, []⟩⟩

/-- The state without the record. -/
def State.unrecorded (s : State (Recorded ω)) : State ω := ⟨s.met, s.resolved, s.world.world⟩

end Record

/-! ## Records without gaps -/

/-- The events lead from one world to another. -/
def Chained {ω : Type} : ω → List (Event ω) → ω → Prop
  | w, [], w' => w = w'
  | w, e :: es, w' => e.before = w ∧ Chained e.after es w'

section Chained

variable {ω : Type}

theorem chained_append {es fs : List (Event ω)} {w'' : ω} :
    ∀ {w : ω}, Chained w (es ++ fs) w'' ↔ ∃ w', Chained w es w' ∧ Chained w' fs w'' := by
  induction es with
  | nil => intro w; simp [Chained]
  | cons e es ih => intro w; simp [Chained, ih, and_assoc]

theorem Chained.record {α : Type} {w : ω} {r : Recorded ω} (h : Chained w r.events r.world) (call : α → Call)
    (act : ω → α × ω) :
    Chained w (ArchFlow.record call act r).2.events (ArchFlow.record call act r).2.world :=
  chained_append.2 ⟨_, h, rfl, rfl⟩

/-- Where events lead from a world without a property to one with it, one of them brings it about. -/
theorem Chained.exists_change {P : ω → Prop} {es : List (Event ω)} {w' : ω} :
    ∀ {w : ω}, Chained w es w' → ¬ P w → P w' →
      ∃ before e after, es = before ++ e :: after ∧ ¬ P e.before ∧ P e.after := by
  induction es with
  | nil =>
    rintro w rfl hw hw'
    exact absurd hw' hw
  | cons e es ih =>
    rintro w ⟨rfl, hes⟩ hw hw'
    by_cases he : P e.after
    · exact ⟨[], e, es, rfl, hw, he⟩
    · obtain ⟨before, e', after, rfl, hchange⟩ := ih hes he hw'
      exact ⟨e :: before, e', after, rfl, hchange⟩

end Chained

/-! ## Recorded bases -/

namespace FactBase

variable {ω : Type}

/-- The source with its calls recorded. -/
def recordedAttribute (r : AttributeSource ω) : AttributeSource (Recorded ω) :=
  { r with load := fun id => record (fun _ => .attribute r.name id) (r.load id) }

/-- The source with its calls recorded. -/
def recordedLinks (r : LinkSource ω) : LinkSource (Recorded ω) :=
  { r with load := fun id => record (fun _ => .links r.linkType id) (r.load id) }

/-- The base with all calls of its sources recorded. -/
def recorded (b : FactBase ω) : FactBase (Recorded ω) where
  slots := b.slots
  types := b.types
  attributes := b.attributes.map recordedAttribute
  links := b.links.map recordedLinks

variable {b : FactBase ω}

theorem typeOf?_recorded (s : State (Recorded ω)) (id : ElementId) :
    b.recorded.typeOf? s id = b.typeOf? s.unrecorded id := rfl

/-! ### Resolution -/

theorem firstValue_recorded (id : ElementId) (type : ElementType) (rs : List (AttributeSource ω)) :
    ∀ r : Recorded ω, (firstValue id type (rs.map recordedAttribute) r).1 = (firstValue id type rs r.world).1 ∧
      (firstValue id type (rs.map recordedAttribute) r).2.world = (firstValue id type rs r.world).2 := by
  induction rs with
  | nil => intro r; exact ⟨rfl, rfl⟩
  | cons q rs ih =>
    intro r
    have hfits : (recordedAttribute q).elementType = q.elementType := rfl
    have hanswer : ((recordedAttribute q).load id r).1 = (q.load id r.world).1 := rfl
    have hnext := ih ((recordedAttribute q).load id r).2
    rw [List.map_cons, firstValue_cons, firstValue_cons, hfits, hanswer]
    split
    · split
      · exact ⟨rfl, rfl⟩
      · split
        · exact ⟨rfl, rfl⟩
        · exact hnext
    · exact ih r

theorem filter_recordedAttribute (name : String) :
    (b.recorded.attributes.filter fun r => r.name = name) =
      (b.attributes.filter fun r => r.name = name).map recordedAttribute :=
  List.filter_map

/-- Recording changes no value of an attribute, and nothing of the state. -/
theorem resolve?_recorded (name : String) (id : ElementId) (s : State (Recorded ω)) :
    (b.recorded.resolve? name id s).1 = (b.resolve? name id s.unrecorded).1 ∧
      (b.recorded.resolve? name id s).2.unrecorded = (b.resolve? name id s.unrecorded).2 := by
  rw [resolve?, resolve?, typeOf?_recorded]
  split
  · exact ⟨rfl, rfl⟩
  · next type _ =>
    have hresolved : s.unrecorded.resolved = s.resolved := rfl
    rw [hresolved, filter_recordedAttribute]
    split
    · exact ⟨rfl, rfl⟩
    · have hworld : s.unrecorded.world = s.world.world := rfl
      obtain ⟨hvalue, hafter⟩ := firstValue_recorded id type (b.attributes.filter fun r => r.name = name) s.world
      rw [hworld]
      generalize firstValue id type (List.filter _ b.attributes) s.world.world = plain at hvalue hafter ⊢
      generalize firstValue id type (List.map recordedAttribute _) s.world = r at hvalue hafter ⊢
      obtain ⟨answer, w⟩ := plain
      obtain ⟨_, r⟩ := r
      cases hvalue
      cases hafter
      cases answer <;> exact ⟨rfl, rfl⟩

/-! ### Exploration -/

theorem ask_recorded (source : ElementId) (type : ElementType) (rs : List (LinkSource ω)) :
    ∀ found (s : State (Recorded ω)),
      (b.recorded.ask source type (rs.map recordedLinks) found s).1 = (b.ask source type rs found s.unrecorded).1 ∧
        (b.recorded.ask source type (rs.map recordedLinks) found s).2.unrecorded =
          (b.ask source type rs found s.unrecorded).2 := by
  induction rs with
  | nil => intro found s; exact ⟨rfl, rfl⟩
  | cons q rs ih =>
    intro found s
    have hfits : (recordedLinks q).sourceType = q.sourceType := rfl
    have hanswer : ((recordedLinks q).load source s.world).1 = (q.load source s.unrecorded.world).1 := rfl
    rw [List.map_cons, ask_cons, ask_cons, hfits, hanswer]
    split
    · split
      · exact ⟨rfl, rfl⟩
      · exact ih _ _
    · exact ih found s

theorem filter_recordedLinks (link : LinkType) :
    (b.recorded.links.filter fun r => r.linkType = link) =
      (b.links.filter fun r => r.linkType = link).map recordedLinks :=
  List.filter_map

/-- Recording changes no targets, and nothing of the state. -/
theorem targets_recorded (link : LinkType) (id : ElementId) (s : State (Recorded ω)) :
    (b.recorded.targets link id s).1 = (b.targets link id s.unrecorded).1 ∧
      (b.recorded.targets link id s).2.unrecorded = (b.targets link id s.unrecorded).2 := by
  rw [targets, targets, typeOf?_recorded, filter_recordedLinks]
  split
  · exact ⟨rfl, rfl⟩
  · next type _ => exact ask_recorded id type _ [] s

/-! ### What is recorded -/

section Keeps

variable {P : Recorded ω → Prop}

/-- Resolving an attribute records requests for this attribute of this element. -/
theorem resolve?_recorded_keeps {name : String} {id : ElementId}
    (h : ∀ q ∈ b.attributes, ∀ r, P r → P (record (fun _ => .attribute name id) (q.load id) r).2)
    (s : State (Recorded ω)) (hs : P s.world) : P (b.recorded.resolve? name id s).2.world := by
  refine resolve?_keeps (fun q' hq' hname r hr => ?_) s hs
  obtain ⟨q, hq, rfl⟩ := List.mem_map.1 hq'
  cases hname
  exact h q hq r hr

/-- Exploring links records requests for the links of this type from this element. -/
theorem targets_recorded_keeps {link : LinkType} {id : ElementId}
    (h : ∀ q ∈ b.links, ∀ r, P r → P (record (fun _ => .links link id) (q.load id) r).2)
    (s : State (Recorded ω)) (hs : P s.world) : P (b.recorded.targets link id s).2.world := by
  refine targets_keeps (fun q' hq' hlink r hr => ?_) s hs
  obtain ⟨q, hq, rfl⟩ := List.mem_map.1 hq'
  cases hlink
  exact h q hq r hr

end Keeps

end FactBase

end ArchFlow
