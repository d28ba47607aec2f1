import ArchFlow.Proofs.FactBase.Merging
import ArchFlow.Proofs.FactBase.Steady

/-!
# Types of elements that are met

An element that is not registered gets its type where it is met as the target of a link. If it is offered as something
else later on, it becomes that as well, and may then fit what it did not fit before. Where no source ever offers such an
element under two types, it is from the first time on what it is told to be, and so are the values that are resolved for
it: all that a state knows is true of every other state.

* `FactBase.Unambiguous`: the sources are steady and offer no element under two types that is not registered.
* `FactBase.Unambiguous.keeps`: queries learn nothing but what is told.
* `FactBase.Unambiguous.consistent`: what is told settles all answers about elements that are known.
-/

namespace ArchFlow

namespace FactBase

variable {ω : Type} {b : FactBase ω}

/-! ## Remembering -/

/-- The type of an element that is registered or is among those that were met. -/
def typeGiven? (b : FactBase ω) (met : List (ElementId × ElementType)) (id : ElementId) : Option ElementType :=
  (b.types.lookup id).or (met.lookup id)

theorem typeGiven?_remember (met : List (ElementId × ElementType)) (e : Element) (id : ElementId) :
    b.typeGiven? (b.remember met e) id =
      if e.id = id ∧ b.types.lookup id = none then TypeSet.joined? ((met.lookup id).toList ++ [e.type])
      else b.typeGiven? met id := by
  unfold typeGiven? remember
  by_cases he : e.id = id
  · subst he
    cases hregistered : b.types.lookup e.id with
    | some type => simp
    | none => simp [lookup_classifyAs]
  · have hother : ¬ (e.id = id ∧ b.types.lookup id = none) := fun h => he h.1
    rw [if_neg hother]
    split
    · rfl
    · rw [lookup_classifyAs, if_neg he]

/-- The elements that are known after others are remembered. -/
theorem known_foldl_remember {id : ElementId} (es : List Element) :
    ∀ met, (b.typeGiven? (es.foldl b.remember met) id).isSome = true ↔
      (b.typeGiven? met id).isSome = true ∨ id ∈ es.map (·.id) := by
  induction es with
  | nil => intro met; simp
  | cons e es ih =>
    intro met
    rw [List.foldl_cons, ih, typeGiven?_remember, List.map_cons, List.mem_cons, ← or_assoc]
    refine or_congr_left ?_
    split
    · next h =>
      exact iff_of_true (TypeSet.isSome_joined?_iff.2 ⟨e.type, List.mem_append_right _ List.mem_cons_self⟩) (.inr h.1.symm)
    · next h =>
      refine ⟨.inl, ?_⟩
      rintro (hknown | rfl)
      · exact hknown
      · -- an element that stays as it was is registered
        have hregistered : b.types.lookup e.id ≠ none := fun hnone => h ⟨rfl, hnone⟩
        rw [typeGiven?, Option.isSome_or, Option.isSome_iff_ne_none.2 hregistered, Bool.true_or]

/-! ## Exploration -/

/-- What is known stays known while sources are asked. -/
theorem ask_known {id : ElementId} (source : ElementId) (type : ElementType) (rs : List (LinkSource ω)) (found)
    (s : State ω) (h : b.contains s id = true) : b.contains (b.ask source type rs found s).2 id = true :=
  ask_keeps_met (P := fun met => (b.typeGiven? met id).isSome = true) source type
    (fun _ _ _ _ _ e _ _ met hmet => (known_foldl_remember [e] met).2 (.inl hmet)) found s h

/-- What is found is known from then on. -/
theorem ask_found (source : ElementId) (type : ElementType) {rs : List (LinkSource ω)} {es : List Element} :
    ∀ found s, (∀ e ∈ found, b.contains s e.id = true) → (b.ask source type rs found s).1 = .ok es →
      ∀ e ∈ es, b.contains (b.ask source type rs found s).2 e.id = true := by
  induction rs with
  | nil =>
    intro found s hfound hes
    cases hes
    exact hfound
  | cons r rs ih =>
    intro found s hfound
    rw [ask_cons]
    split
    · split
      · intro hes; cases hes
      · next answer _ =>
        refine ih _ _ fun e he => (known_foldl_remember _ s.met).2 ?_
        exact (List.mem_append.1 he).imp (hfound e) List.mem_map_of_mem
    · exact ih found s hfound

/-- The targets of an exploration are known from then on. -/
theorem targets_found {link : LinkType} {id : ElementId} {s : State ω} {es : List Element}
    (hes : (b.targets link id s).1 = .ok es) : ∀ e ∈ es, b.contains (b.targets link id s).2 e.id = true := by
  rw [targets] at hes ⊢
  split at hes
  · cases hes
  · exact ask_found id _ [] s (fun e he => by cases he) hes

/-! ## What is told of elements -/

/-- Some source answers with the element under the type, which fits the targets that the source is registered for. -/
def Offers (b : FactBase ω) (id : ElementId) (type : ElementType) : Prop :=
  ∃ r ∈ b.links, ∃ source w es, (r.load source w).1 = .ok es ∧ ⟨id, type⟩ ∈ es ∧ type.fits r.targetType = true

/-- The type of an element that is registered, or else one that it is offered under. -/
def Told (b : FactBase ω) (id : ElementId) (type : ElementType) : Prop :=
  b.types.lookup id = some type ∨ b.types.lookup id = none ∧ b.Offers id type

/-- The sources answer the same whenever they are asked, and offer no element under two types that is not
registered. -/
structure Unambiguous (b : FactBase ω) : Prop where
  attributes : ∀ r ∈ b.attributes, ∀ id, ∃ answer, (r.load id).Steady answer
  links : ∀ r ∈ b.links, ∀ id, ∃ answer, (r.load id).Steady answer
  single : ∀ id, b.types.lookup id = none → ∀ t u, b.Offers id t → b.Offers id u → t = u

/-- A state that knows nothing but what is told: types, and the values that elements of these types have. -/
structure Faithful (b : FactBase ω) (s : State ω) : Prop where
  told : ∀ id type, b.typeOf? s id = some type → b.Told id type
  resolved : ∀ name id value, s.resolved.lookup (name, id) = some value →
    ∃ type, b.Told id type ∧ ∃ w, (firstValue id type (b.sourcesOf name) w).1 = .ok value

theorem Faithful.fresh (b : FactBase ω) (w : ω) : b.Faithful (.fresh w) where
  told id type htype := by
    rw [typeOf?, State.fresh, List.lookup_nil, Option.or_none] at htype
    exact .inl htype
  resolved name id value h := by cases h

namespace Unambiguous

variable (hb : b.Unambiguous)
include hb

theorem told_unique {id : ElementId} {t u : ElementType} (ht : b.Told id t) (hu : b.Told id u) : t = u := by
  rcases ht with ht | ⟨hnone, ht⟩ <;> rcases hu with hu | ⟨hnone', hu⟩
  · exact Option.some.inj (ht.symm.trans hu)
  · cases ht.symm.trans hnone'
  · cases hnone.symm.trans hu
  · exact hb.single id hnone t u ht hu

/-- Remembering an element that is offered brings nothing but what is told. -/
theorem told_remember {e : Element} (he : b.Offers e.id e.type) {met : List (ElementId × ElementType)}
    (h : ∀ id type, b.typeGiven? met id = some type → b.Told id type) :
    ∀ id type, b.typeGiven? (b.remember met e) id = some type → b.Told id type := by
  intro id type htype
  rw [typeGiven?_remember] at htype
  split at htype
  · next hnew =>
    obtain ⟨rfl, hnone⟩ := hnew
    have hoffered : b.Told e.id e.type := .inr ⟨hnone, he⟩
    cases hmet : met.lookup e.id with
    | none =>
      rw [hmet] at htype
      cases htype
      exact hoffered
    | some known =>
      have hknown : b.Told e.id known := h e.id known (by rw [typeGiven?, hnone, hmet, Option.none_or])
      -- joining the one type it has ever been offered under changes nothing
      cases hb.told_unique hknown hoffered
      have htype : some (e.type.union e.type) = some type := by rwa [hmet] at htype
      rw [TypeSet.union_self] at htype
      cases htype
      exact hoffered
  · exact h id type htype

/-- In a state that knows what is told, attributes have the values that elements of the types have. -/
theorem resolve?_eq {s : State ω} (hs : b.Faithful s) {id : ElementId} {type : ElementType}
    (htype : b.typeOf? s id = some type) (name : String) (w : ω) :
    (b.resolve? name id s).1 = (firstValue id type (b.sourcesOf name) w).1 := by
  have hsources : ∀ r ∈ b.sourcesOf name, ∃ answer, (r.load id).Steady answer :=
    fun r hr => hb.attributes r (List.mem_filter.1 hr).1 id
  rw [resolve?_fst, htype]
  dsimp only
  split
  · next value hvalue =>
    obtain ⟨told, htold, w', hfirst⟩ := hs.resolved name id value hvalue
    cases hb.told_unique htold (hs.told id type htype)
    rw [firstValue_steady id _ hsources w w', hfirst]
  · exact firstValue_steady id type hsources s.world w

/-- Queries learn nothing but what is told. -/
theorem keeps : b.Keeps b.Faithful where
  resolve name id s hs := by
    have hmet := b.resolve?_met name id s
    refine ⟨fun i type htype => hs.told i type ?_, fun name' id' value hlookup => ?_⟩
    · rwa [typeOf?, hmet] at htype
    · rcases b.resolve?_lookup name id s (name', id') with h | ⟨hkey, answer, h, hanswer⟩
      · exact hs.resolved name' id' value (h ▸ hlookup)
      · cases hkey
        cases h.symm.trans hlookup
        cases htype : b.typeOf? s id with
        | none =>
          rw [resolve?_fst, htype] at hanswer
          cases hanswer
        | some type =>
          refine ⟨type, hs.told id type htype, s.world, ?_⟩
          rw [← hb.resolve?_eq hs htype name, hanswer]
  targets link id s hs := by
    rw [targets]
    split
    · exact hs
    · next type _ =>
      refine ⟨?_, by rw [ask_resolved]; exact hs.resolved⟩
      refine ask_keeps_met (P := fun met => ∀ id type, b.typeGiven? met id = some type → b.Told id type) id type
        (fun r hr w es hes e he hfits met hmet => ?_) [] s hs.told
      exact hb.told_remember ⟨r, (List.mem_filter.1 hr).1, id, w, es, hes, he, hfits⟩ hmet

omit hb in
/-- Queries forget no element. -/
theorem keeps_contains (id : ElementId) : b.Keeps fun s => b.contains s id = true where
  resolve name id' s hs := by
    rw [contains, typeOf?, resolve?_met]
    exact hs
  targets link id' s hs := by
    rw [targets]
    split
    · exact hs
    · exact ask_known id' _ _ [] s hs

/-- What is told settles the answers about all elements that are known. -/
theorem consistent : b.Consistent fun id s => b.Faithful s ∧ b.contains s id = true := by
  have htypeOf? : ∀ {id s s'}, b.Faithful s ∧ b.contains s id = true → b.Faithful s' ∧ b.contains s' id = true →
      ∃ type, b.typeOf? s id = some type ∧ b.typeOf? s' id = some type := by
    rintro id s s' ⟨hs, hid⟩ ⟨hs', hid'⟩
    obtain ⟨type, htype⟩ := Option.isSome_iff_exists.1 hid
    obtain ⟨type', htype'⟩ := Option.isSome_iff_exists.1 hid'
    cases hb.told_unique (hs.told id type htype) (hs'.told id type' htype')
    exact ⟨type, htype, htype'⟩
  exact {
    keeps := fun id => {
      resolve := fun name i s hs => ⟨hb.keeps.resolve name i s hs.1, (keeps_contains id).resolve name i s hs.2⟩
      targets := fun link i s hs => ⟨hb.keeps.targets link i s hs.1, (keeps_contains id).targets link i s hs.2⟩ }
    world := fun id s w hs => ⟨⟨hs.1.told, hs.1.resolved⟩, hs.2⟩
    typeOf? := fun h h' => by
      obtain ⟨type, htype, htype'⟩ := htypeOf? h h'
      rw [htype, htype']
    resolve := fun {id s s'} h h' name => by
      obtain ⟨type, htype, htype'⟩ := htypeOf? h h'
      rw [hb.resolve?_eq h.1 htype name s.world, hb.resolve?_eq h'.1 htype' name s.world]
    targets := fun h h' link => by
      obtain ⟨type, htype, htype'⟩ := htypeOf? h h'
      exact Steady.targets_congr hb.links (htype'.trans htype.symm) link
    found := fun {link id s es} h hes e he => ⟨hb.keeps.targets link id s h.1, targets_found hes e he⟩ }

end Unambiguous

end FactBase

end ArchFlow
