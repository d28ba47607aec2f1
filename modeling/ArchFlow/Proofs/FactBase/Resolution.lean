import ArchFlow.FactBase.Resolution

/-!
# Ways of a resolution

What resolving an attribute can do, said once. Of an unknown element nothing is asked. What is remembered is read back.
Else the sources of the attribute are asked in turn, and what they come to is remembered, unless it is a failure.

* `FactBase.Resolution`: the ways in which an attribute is resolved.
* `FactBase.resolve?_lookup`: what is remembered afterwards.
* `FactBase.resolve?_of_new`, `FactBase.resolve?_of_remembered`: when sources are asked, and when they are not.
-/

namespace ArchFlow

namespace FactBase

variable {ω : Type} {b : FactBase ω}

/-- The sources of an attribute. -/
abbrev sourcesOf (b : FactBase ω) (name : String) : List (AttributeSource ω) :=
  b.attributes.filter fun r => r.name = name

/-! ## Asking in turn -/

theorem firstValue_cons (id : ElementId) (type : ElementType) (r : AttributeSource ω)
    (rs : List (AttributeSource ω)) (w : ω) :
    firstValue id type (r :: rs) w =
      if type.fits r.elementType then
        match (r.load id w).1 with
        | .error failure => (.error failure, (r.load id w).2)
        | .ok answer =>
          match answer.filter (· ≠ "") with
          | some value => (.ok (some value), (r.load id w).2)
          | none => firstValue id type rs (r.load id w).2
      else firstValue id type rs w := by
  rw [firstValue]
  rcases r.load id w with ⟨_ | _, w⟩ <;> rfl

/-- The value that is found is not empty. -/
theorem firstValue_ne_empty {id : ElementId} {type : ElementType} {text : String} {rs : List (AttributeSource ω)} :
    ∀ {w : ω}, (firstValue id type rs w).1 = .ok (some text) → text ≠ "" := by
  induction rs with
  | nil => intro w h; cases h
  | cons r rs ih =>
    intro w h
    rw [firstValue_cons] at h
    split at h
    · split at h
      · cases h
      · split at h
        · next hvalue =>
          cases h
          exact of_decide_eq_true (Option.filter_eq_some_iff.1 hvalue).2
        · exact ih h
    · exact ih h

/-! ## Resolving an attribute -/

/-- The ways in which an attribute is resolved. -/
inductive Resolution (b : FactBase ω) (name : String) (id : ElementId) (s : State ω) :
    Except Failure (Option String) × State ω → Prop
  | unknown (htype : b.typeOf? s id = none) : Resolution b name id s (.error (.unknownElement id), s)
  | remembered {type : ElementType} {value : Option String} (htype : b.typeOf? s id = some type)
      (hvalue : s.resolved.lookup (name, id) = some value) : Resolution b name id s (.ok value, s)
  | failed {type : ElementType} {failure : Failure} {w : ω} (htype : b.typeOf? s id = some type)
      (hnew : s.resolved.lookup (name, id) = none)
      (hasked : firstValue id type (b.sourcesOf name) s.world = (.error failure, w)) :
      Resolution b name id s (.error failure, { s with world := w })
  | found {type : ElementType} {value : Option String} {w : ω} (htype : b.typeOf? s id = some type)
      (hnew : s.resolved.lookup (name, id) = none)
      (hasked : firstValue id type (b.sourcesOf name) s.world = (.ok value, w)) :
      Resolution b name id s (.ok value, { s with resolved := ((name, id), value) :: s.resolved, world := w })

/-- An attribute is resolved in one of four ways. -/
theorem resolution (b : FactBase ω) (name : String) (id : ElementId) (s : State ω) :
    b.Resolution name id s (b.resolve? name id s) := by
  rw [resolve?]
  cases htype : b.typeOf? s id with
  | none => exact .unknown htype
  | some type =>
    dsimp only
    cases hvalue : s.resolved.lookup (name, id) with
    | some value => exact .remembered htype hvalue
    | none =>
      dsimp only
      split
      · next hasked => exact .failed htype hvalue hasked
      · next hasked => exact .found htype hvalue hasked

theorem resolve?_fst (name : String) (id : ElementId) (s : State ω) :
    (b.resolve? name id s).1 =
      match b.typeOf? s id with
      | none => .error (.unknownElement id)
      | some type =>
        match s.resolved.lookup (name, id) with
        | some value => .ok value
        | none => (firstValue id type (b.attributes.filter fun r => r.name = name) s.world).1 := by
  have hway := b.resolution name id s
  generalize b.resolve? name id s = r at hway ⊢
  cases hway with
  | unknown htype => rw [htype]
  | remembered htype hvalue => rw [htype, hvalue]
  | failed htype hnew hasked =>
    rw [htype, hnew]
    exact (congrArg Prod.fst hasked).symm
  | found htype hnew hasked =>
    rw [htype, hnew]
    exact (congrArg Prod.fst hasked).symm

/-- No element is met when an attribute is resolved. -/
theorem resolve?_met (name : String) (id : ElementId) (s : State ω) : (b.resolve? name id s).2.met = s.met := by
  have hway := b.resolution name id s
  generalize b.resolve? name id s = r at hway ⊢
  cases hway <;> rfl

/-- Resolving an attribute adds nothing to what is resolved but its answer. -/
theorem resolve?_lookup (name : String) (id : ElementId) (s : State ω) (key : String × ElementId) :
    (b.resolve? name id s).2.resolved.lookup key = s.resolved.lookup key ∨
      key = (name, id) ∧ ∃ value, (b.resolve? name id s).2.resolved.lookup key = some value ∧
        (b.resolve? name id s).1 = .ok value := by
  have hway := b.resolution name id s
  generalize b.resolve? name id s = r at hway ⊢
  cases hway with
  | unknown => exact .inl rfl
  | remembered => exact .inl rfl
  | failed => exact .inl rfl
  | @found type value w =>
    by_cases hkey : key = (name, id)
    · exact .inr ⟨hkey, value, by simp [hkey], rfl⟩
    · exact .inl (by simp [List.lookup_cons, beq_eq_false_iff_ne.2 hkey])

variable {name : String} {id : ElementId} {s : State ω}

/-- A failure leaves nothing behind but the world. -/
theorem state_of_error {s' : State ω} {failure : Failure} (h : b.resolve? name id s = (.error failure, s')) :
    s' = { s with world := s'.world } := by
  have hway := b.resolution name id s
  rw [h] at hway
  cases hway <;> rfl

/-- What is not remembered the sources are asked for. -/
theorem resolve?_of_new {type : ElementType} (htype : b.typeOf? s id = some type)
    (hnew : s.resolved.lookup (name, id) = none) :
    (b.resolve? name id s).1 = (firstValue id type (b.sourcesOf name) s.world).1 ∧
      (b.resolve? name id s).2.world = (firstValue id type (b.sourcesOf name) s.world).2 := by
  have hway := b.resolution name id s
  generalize b.resolve? name id s = r at hway ⊢
  cases hway with
  | unknown htype' => cases htype.symm.trans htype'
  | remembered htype' hvalue => cases hnew.symm.trans hvalue
  | failed htype' hnew' hasked =>
    cases htype.symm.trans htype'
    rw [hasked]
    exact ⟨rfl, rfl⟩
  | found htype' hnew' hasked =>
    cases htype.symm.trans htype'
    rw [hasked]
    exact ⟨rfl, rfl⟩

/-- What is remembered of a known element is its answer. -/
theorem resolve?_of_remembered {value : Option String} (hknown : b.contains s id = true)
    (hvalue : s.resolved.lookup (name, id) = some value) : b.resolve? name id s = (.ok value, s) := by
  obtain ⟨type, htype⟩ := Option.isSome_iff_exists.1 hknown
  rw [resolve?, htype]
  dsimp only
  rw [hvalue]

/-- An answer is remembered. -/
theorem remembered_of_ok {value : Option String} (h : (b.resolve? name id s).1 = .ok value) :
    b.contains (b.resolve? name id s).2 id = true ∧ (b.resolve? name id s).2.resolved.lookup (name, id) = some value := by
  have hway := b.resolution name id s
  generalize b.resolve? name id s = r at hway h ⊢
  cases hway with
  | unknown => cases h
  | failed => cases h
  | remembered htype hvalue =>
    cases h
    exact ⟨Option.isSome_iff_exists.2 ⟨_, htype⟩, hvalue⟩
  | found htype =>
    cases h
    exact ⟨Option.isSome_iff_exists.2 ⟨_, htype⟩, List.lookup_cons_self⟩

end FactBase

end ArchFlow
