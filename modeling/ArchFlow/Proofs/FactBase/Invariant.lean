import ArchFlow.FactBase.Exploration
import ArchFlow.Proofs.FactBase.Resolution

/-!
# Invariants of queries

Queries change the state next to a fact base. A property of states is an invariant of the base if resolving an
attribute and exploring links keep it, whatever the sources answer. A property of worlds is one as soon as the sources
themselves keep it. An invariant may be about what is known of an element: where it settles all answers about the
element, states that have it cannot be told apart there.

* `FactBase.resolve?_keeps`, `FactBase.targets_keeps`: what the sources that are asked keep of the world is kept.
* `FactBase.keeps_world`: what the sources keep of the world the queries keep.
* `FactBase.Consistent`: an invariant that settles the answers about elements.
-/

namespace ArchFlow

namespace FactBase

variable {ω : Type} {b : FactBase ω}

/-- Queries keep a property of states. -/
structure Keeps (b : FactBase ω) (I : State ω → Prop) : Prop where
  resolve : ∀ name id s, I s → I (b.resolve? name id s).2
  targets : ∀ link id s, I s → I (b.targets link id s).2

/-- States for which `J` holds of an element give the same answers about it. Queries keep `J`, and it holds of what they
find as well. -/
structure Consistent (b : FactBase ω) (J : ElementId → State ω → Prop) : Prop where
  keeps : ∀ id, b.Keeps (J id)
  world : ∀ id s w, J id s → J id { s with world := w }
  typeOf? : ∀ {id s s'}, J id s → J id s' → b.typeOf? s' id = b.typeOf? s id
  resolve : ∀ {id s s'}, J id s → J id s' → ∀ name, (b.resolve? name id s').1 = (b.resolve? name id s).1
  targets : ∀ {id s s'}, J id s → J id s' → ∀ link, (b.targets link id s').1 = (b.targets link id s).1
  found : ∀ {link id s es}, J id s → (b.targets link id s).1 = .ok es → ∀ e ∈ es, J e.id (b.targets link id s).2

section World

variable {P : ω → Prop}

theorem firstValue_keeps (id : ElementId) (type : ElementType) {rs : List (AttributeSource ω)}
    (h : ∀ r ∈ rs, ∀ w, P w → P (r.load id w).2) : ∀ w, P w → P (firstValue id type rs w).2 := by
  induction rs with
  | nil => intro w hw; exact hw
  | cons r rs ih =>
    intro w hw
    have hr := h r List.mem_cons_self w hw
    have ih := ih fun r hr => h r (List.mem_cons_of_mem _ hr)
    unfold firstValue
    split
    · split
      · next he => rw [he] at hr; exact hr
      · next he =>
        rw [he] at hr
        split
        · exact hr
        · exact ih _ hr
    · exact ih _ hw

theorem ask_keeps (source : ElementId) (type : ElementType) {rs : List (LinkSource ω)}
    (h : ∀ r ∈ rs, ∀ w, P w → P (r.load source w).2) :
    ∀ found s, P s.world → P (b.ask source type rs found s).2.world := by
  induction rs with
  | nil => intro found s hs; exact hs
  | cons r rs ih =>
    intro found s hs
    have hr := h r List.mem_cons_self s.world hs
    have ih := ih fun r hr => h r (List.mem_cons_of_mem _ hr)
    unfold ask
    split
    · split
      · next he => rw [he] at hr; exact hr
      · next he => rw [he] at hr; exact ih _ _ hr
    · exact ih _ _ hs

/-- Resolving an attribute asks the sources of this attribute, for this element. -/
theorem resolve?_keeps {name : String} {id : ElementId}
    (h : ∀ r ∈ b.attributes, r.name = name → ∀ w, P w → P (r.load id w).2) (s : State ω) (hs : P s.world) :
    P (b.resolve? name id s).2.world := by
  have hmem : ∀ r ∈ b.sourcesOf name, ∀ w, P w → P (r.load id w).2 := fun r hr =>
    h r (List.mem_filter.1 hr).1 (of_decide_eq_true (List.mem_filter.1 hr).2)
  have hasks : ∀ type, P (firstValue id type (b.sourcesOf name) s.world).2 := fun type =>
    firstValue_keeps id type hmem s.world hs
  have hway := b.resolution name id s
  generalize b.resolve? name id s = r at hway ⊢
  cases hway with
  | unknown => exact hs
  | remembered => exact hs
  | @failed type _ _ _ _ hasked => simpa only [hasked] using hasks type
  | @found type _ _ _ _ hasked => simpa only [hasked] using hasks type

/-- Exploring links asks the sources of this type of links, for this element. -/
theorem targets_keeps {link : LinkType} {id : ElementId}
    (h : ∀ r ∈ b.links, r.linkType = link → ∀ w, P w → P (r.load id w).2) (s : State ω) (hs : P s.world) :
    P (b.targets link id s).2.world := by
  unfold targets
  split
  · exact hs
  · refine ask_keeps id _ (fun r hr => ?_) [] s hs
    exact h r (List.mem_filter.1 hr).1 (of_decide_eq_true (List.mem_filter.1 hr).2)

/-- What the sources keep of the world the queries keep. -/
theorem keeps_world (hattribute : ∀ r ∈ b.attributes, ∀ id w, P w → P (r.load id w).2)
    (hlink : ∀ r ∈ b.links, ∀ id w, P w → P (r.load id w).2) : b.Keeps fun s => P s.world where
  resolve _ id s hs := resolve?_keeps (fun r hr _ => hattribute r hr id) s hs
  targets _ id s hs := targets_keeps (fun r hr _ => hlink r hr id) s hs

end World

end FactBase

end ArchFlow
