import ArchFlow.Proofs.FactBase.Exploration
import ArchFlow.Proofs.FactBase.Invariant

/-!
# Steady sources

Where sources answer the same whenever they are asked, and no link leads out of the registered elements, queries leave
nothing behind that a later query could notice: the state goes on to agree with what it was.

* `FactBase.Agrees`: a state in which everything is answered as in an earlier one.
* `FactBase.Steady.keeps`: queries keep a state in agreement.
* `FactBase.Agrees.typeOf?`, `FactBase.Steady.targets_eq`: agreeing states have the same types and targets.
* `FactBase.Steady.consistent`: agreement settles all answers.
-/

namespace ArchFlow

namespace FactBase

variable {ω : Type} {b : FactBase ω}

/-- The sources answer the same whenever they are asked, and links lead to registered elements only. -/
structure Steady (b : FactBase ω) : Prop where
  attributes : ∀ r ∈ b.attributes, ∀ id, ∃ answer, (r.load id).Steady answer
  links : ∀ r ∈ b.links, ∀ id, ∃ answer, (r.load id).Steady answer
  closed : ∀ r ∈ b.links, ∀ id w es, (r.load id w).1 = .ok es → ∀ e ∈ es, (b.types.lookup e.id).isSome = true

/-- The state `s'` tells the same of types and attributes as `s`. -/
structure Agrees (b : FactBase ω) (s s' : State ω) : Prop where
  met : s'.met = s.met
  resolve : ∀ name id, (b.resolve? name id s').1 = (b.resolve? name id s).1

namespace Agrees

variable {s s' s'' : State ω}

protected theorem refl (b : FactBase ω) (s : State ω) : b.Agrees s s := ⟨rfl, fun _ _ => rfl⟩

protected theorem symm (h : b.Agrees s s') : b.Agrees s' s := ⟨h.met.symm, fun name id => (h.resolve name id).symm⟩

protected theorem trans (h₁ : b.Agrees s s') (h₂ : b.Agrees s' s'') : b.Agrees s s'' :=
  ⟨h₂.met.trans h₁.met, fun name id => (h₂.resolve name id).trans (h₁.resolve name id)⟩

/-- Types depend on what was met alone. -/
theorem typeOf? (h : b.Agrees s s') (id : ElementId) : b.typeOf? s' id = b.typeOf? s id := by
  rw [FactBase.typeOf?, FactBase.typeOf?, h.met]

end Agrees

/-! ## Resolution -/

theorem firstValue_steady (id : ElementId) (type : ElementType) {rs : List (AttributeSource ω)}
    (h : ∀ r ∈ rs, ∃ answer, (r.load id).Steady answer) :
    ∀ w w', (firstValue id type rs w).1 = (firstValue id type rs w').1 := by
  induction rs with
  | nil => intro w w'; rfl
  | cons r rs ih =>
    intro w w'
    have ih := ih fun r hr => h r (List.mem_cons_of_mem _ hr)
    obtain ⟨answer, hanswer⟩ := h r List.mem_cons_self
    rw [firstValue_cons, firstValue_cons, hanswer w, hanswer w']
    split
    · cases answer with
      | error failure => rfl
      | ok answer =>
        dsimp only
        split
        · rfl
        · exact ih _ _
    · exact ih _ _

namespace Steady

variable (hb : b.Steady)
include hb

/-- Resolving an attribute depends on the types that were met and on what was resolved for it, not on the world. -/
theorem resolve?_congr {name : String} {id : ElementId} {s s' : State ω} (hmet : s'.met = s.met)
    (hresolved : s'.resolved.lookup (name, id) = s.resolved.lookup (name, id)) :
    (b.resolve? name id s').1 = (b.resolve? name id s).1 := by
  rw [resolve?_fst, resolve?_fst, typeOf?, typeOf?, hmet, hresolved]
  have hsources : ∀ r ∈ b.attributes.filter fun r => r.name = name, ∃ answer, (r.load id).Steady answer :=
    fun r hr => hb.attributes r (List.mem_filter.1 hr).1 id
  split
  · rfl
  · split
    · rfl
    · exact firstValue_steady id _ hsources _ _

/-- Resolving an attribute changes no answer. -/
theorem resolve?_again (name : String) (id : ElementId) (s : State ω) : b.Agrees s (b.resolve? name id s).2 where
  met := resolve?_met name id s
  resolve name' id' := by
    have hmet := b.resolve?_met name id s
    rcases b.resolve?_lookup name id s (name', id') with h | ⟨hkey, value, hlookup, hvalue⟩
    · exact hb.resolve?_congr hmet h
    · cases hkey
      -- the answer is known of an element with a type only, and is read back
      rw [hvalue, resolve?_fst, hlookup, typeOf?, hmet]
      rw [resolve?_fst, typeOf?] at hvalue
      split at hvalue
      · cases hvalue
      · rfl

/-! ## Exploration -/

/-- Exploring links changes no answer. -/
theorem targets_again (link : LinkType) (id : ElementId) (s : State ω) : b.Agrees s (b.targets link id s).2 := by
  have hmet := targets_met hb.closed link id s
  exact ⟨hmet, fun name id => hb.resolve?_congr hmet (by rw [targets_resolved])⟩

/-- Queries keep a state in agreement with an earlier one. -/
theorem keeps (s : State ω) : b.Keeps (b.Agrees s) where
  resolve name id s' hs := hs.trans (hb.resolve?_again name id s')
  targets link id s' hs := hs.trans (hb.targets_again link id s')

theorem agrees_world (s : State ω) (w : ω) : b.Agrees s { s with world := w } :=
  ⟨rfl, fun _ _ => hb.resolve?_congr rfl rfl⟩

omit hb in
theorem ask_steady (source : ElementId) (type : ElementType) {rs : List (LinkSource ω)}
    (h : ∀ r ∈ rs, ∃ answer, (r.load source).Steady answer) :
    ∀ found s s', (b.ask source type rs found s).1 = (b.ask source type rs found s').1 := by
  induction rs with
  | nil => intro found s s'; rfl
  | cons r rs ih =>
    intro found s s'
    have ih := ih fun r hr => h r (List.mem_cons_of_mem _ hr)
    obtain ⟨answer, hanswer⟩ := h r List.mem_cons_self
    rw [ask_cons, ask_cons, hanswer s.world, hanswer s'.world]
    split
    · cases answer with
      | error failure => rfl
      | ok answer => exact ih _ _ _
    · exact ih _ _ _

omit hb in
/-- What exploring links finds depends on the type of the element alone, if the sources are steady. -/
theorem targets_congr (h : ∀ r ∈ b.links, ∀ id, ∃ answer, (r.load id).Steady answer) {s s' : State ω} {id : ElementId}
    (htype : b.typeOf? s' id = b.typeOf? s id) (link : LinkType) :
    (b.targets link id s').1 = (b.targets link id s).1 := by
  have hsources : ∀ r ∈ b.links.filter fun r => r.linkType = link, ∃ answer, (r.load id).Steady answer :=
    fun r hr => h r (List.mem_filter.1 hr).1 id
  rw [targets, targets, htype]
  split
  · rfl
  · exact ask_steady id _ hsources _ _ _

/-- Agreeing states have the same targets. -/
theorem targets_eq {s s' : State ω} (h : b.Agrees s s') (link : LinkType) (id : ElementId) :
    (b.targets link id s').1 = (b.targets link id s).1 :=
  targets_congr hb.links (h.typeOf? id) link

/-- States that agree with an earlier one give the same answers about all elements. -/
theorem consistent (s : State ω) : b.Consistent fun _ => b.Agrees s where
  keeps _ := hb.keeps s
  world _ s' w h := h.trans (hb.agrees_world s' w)
  typeOf? h h' := (h'.typeOf? _).trans (h.typeOf? _).symm
  resolve h h' name := (h'.resolve name _).trans (h.resolve name _).symm
  targets h h' link := (hb.targets_eq h' link _).trans (hb.targets_eq h link _).symm
  found h _ _ _ := (hb.keeps s).targets _ _ _ h

end Steady

end FactBase

end ArchFlow
