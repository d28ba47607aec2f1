import ArchFlow.Proofs.FactBase.Slots

/-!
# Conflicts

A registration conflicts if an element does not fit the type it is registered for, or if what one slot is told of an id
does not narrow down: at some point the types that the id was declared under so far have no least one. That two of them
do not compare is not enough. If a type within both came first, it is kept, and neither of the two is compared with the
other; so whether a conflict is found depends on the order of the declarations.

* `Registry.conflicts_iff`: when registrations conflict, and what does not depend on their order.
* `Registry.conflict_hidden_by_order`: two declarations that do not compare, in an order that passes and in one that
  does not.
-/

namespace ArchFlow

variable {ω : Type}

/-- An element does not fit the type that it is registered for. -/
def Misfit (rows : List Row) : Prop := ∃ row ∈ rows, ∃ e ∈ row.2, e.type.refines row.1 = false

/-- Some slot is told of an id under two types neither of which is within the other. -/
def Clash (rows : List Row) : Prop :=
  ∃ slot id, ∃ t ∈ typesIn (rowsOf rows slot) id, ∃ u ∈ typesIn (rowsOf rows slot) id,
    t.refines u = false ∧ u.refines t = false

/-- Some slot is told of an id under a type that does not compare with the least of those that it was told before. -/
def ClashWithLeast (rows : List Row) : Prop :=
  ∃ slot id before t k, before ++ [t] <+: typesIn (rowsOf rows slot) id ∧ TypeSet.IsLeastOf k before ∧
    k.refines t = false ∧ t.refines k = false

section Rows

variable {rows : List Row}

theorem misfit_iff : Misfit rows ↔ ∃ slot, ∃ e ∈ rowsOf rows slot, e.type.refines slot = false := by
  simp only [Misfit, mem_rowsOf]
  constructor
  · rintro ⟨row, hrow, e, he, hno⟩
    exact ⟨row.1, e, ⟨row, hrow, rfl, he⟩, hno⟩
  · rintro ⟨_, e, ⟨row, hrow, rfl, he⟩, hno⟩
    exact ⟨row, hrow, e, he, hno⟩

theorem ClashWithLeast.clash (h : ClashWithLeast rows) : Clash rows := by
  obtain ⟨slot, id, before, t, k, hbefore, hk, hkt, htk⟩ := h
  have hmem : ∀ u ∈ before ++ [t], u ∈ typesIn (rowsOf rows slot) id := fun u hu => hbefore.subset hu
  exact ⟨slot, id, k, hmem k (List.mem_append_left _ hk.1), t, hmem t (by simp), hkt, htk⟩

/-- Rows can be placed unless an element is a misfit, or a type clashes with the least of those before it. -/
theorem not_allPlaceable_iff : ¬ AllPlaceable rows ↔ Misfit rows ∨ ClashWithLeast rows := by
  have hnarrow : ClashWithLeast rows ↔ ∃ slot id, ¬ TypeSet.Narrowing (typesIn (rowsOf rows slot) id) := by
    simp only [ClashWithLeast, TypeSet.not_narrowing_iff]
  rw [misfit_iff, hnarrow]
  constructor
  · intro h
    by_contra hno
    rw [not_or, not_exists, not_exists] at hno
    refine h fun slot => ⟨fun e he => ?_, fun id => ?_⟩
    · by_contra hfits
      exact hno.1 slot ⟨e, he, by simpa using hfits⟩
    · by_contra hnarrow
      exact hno.2 slot ⟨id, hnarrow⟩
  · rintro (⟨slot, e, he, hfits⟩ | ⟨slot, id, hnarrow⟩) hall
    · rw [(hall slot).fits e he] at hfits
      cases hfits
    · exact hnarrow ((hall slot).narrowing id)

end Rows

namespace Registry

/-- The build of a fact base fails since registrations conflict. -/
def Conflicts (r : Registry ω) (w : ω) : Prop :=
  ∃ id conflict, (r.build w).1 = .error (.conflictingRegistration id conflict)

/-- **When registrations conflict.** If all sources answer, a fact base is built unless registrations conflict. They do
exactly if an element does not fit the type that it is registered for, or some slot is told of an id under a type that
does not compare with the least of those it was told before. So there is a conflict only if an element is a misfit or
two types of an id clash, in whatever order; and there is one, in whatever order, if an element is a misfit or the types
of some id in a slot have no least one. -/
theorem conflicts_iff {r : Registry ω} {w : ω} {rows : List Row} (h : Answer r.roots w rows) :
    (r.Conflicts w ↔ Misfit rows ∨ ClashWithLeast rows) ∧
      ((∃ b, (r.build w).1 = .ok b) ↔ ¬ r.Conflicts w) ∧
      (r.Conflicts w → Misfit rows ∨ Clash rows) ∧
      (Misfit rows ∨ (∃ slot id, typesIn (rowsOf rows slot) id ≠ [] ∧
          ¬ ∃ t, TypeSet.IsLeastOf t (typesIn (rowsOf rows slot) id)) → r.Conflicts w) := by
  have hconflicts : r.Conflicts w ↔ ¬ AllPlaceable rows := by
    rcases build_settles h with ⟨hall, b, hb, -⟩ | ⟨hno, hc⟩
    · simp [Conflicts, hb, hall]
    · exact ⟨fun _ => hno, fun _ => hc⟩
  have hbuilt : (∃ b, (r.build w).1 = .ok b) ↔ AllPlaceable rows := by
    rcases build_settles h with ⟨hall, b, hb, -⟩ | ⟨hno, id, conflict, hc⟩
    · exact ⟨fun _ => hall, fun _ => ⟨b, hb⟩⟩
    · simp [hc, hno]
  refine ⟨?_, ?_, fun hc => ?_, ?_⟩
  · rw [hconflicts, not_allPlaceable_iff]
  · rw [hbuilt, hconflicts, not_not]
  · exact (not_allPlaceable_iff.1 (hconflicts.1 hc)).imp_right ClashWithLeast.clash
  · rintro (hmisfit | ⟨slot, id, hne, hleast⟩)
    · exact hconflicts.2 (not_allPlaceable_iff.2 (.inl hmisfit))
    · exact hconflicts.2 fun hall => hleast (((hall slot).narrowing id).exists_least hne)

/-! ### Two orders of three declarations -/

/-- The type of the services with some values. -/
def serviceWith (values : List Predicate) : ElementType := .ofPredicates (⟨"Kind", "a"⟩ :: values)

/-- The type of services, whatever else is known of them. -/
def anyService : ElementType := serviceWith []

/-- A service with the value `X`. -/
def serviceX : ElementType := serviceWith [⟨"X", "1"⟩]

/-- A service with the value `Y`. -/
def serviceY : ElementType := serviceWith [⟨"Y", "1"⟩]

/-- A service with both values. -/
def serviceXY : ElementType := serviceWith [⟨"X", "1"⟩, ⟨"Y", "1"⟩]

/-- One service that is registered under some types in turn. -/
def declaring (types : List ElementType) : Registry Unit where
  roots := [⟨anyService, .constant (types.map (⟨"e", ·⟩))⟩]

/-- The rows of the service. -/
def declaredRows (types : List ElementType) : List Row := [(anyService, types.map (⟨"e", ·⟩))]

theorem answer_declaring (types : List ElementType) : Answer (declaring types).roots () (declaredRows types) :=
  .cons rfl (.nil ())

/-- The types of a service with one value each clash, but nothing conflicts if the type with both values comes first. In
another order the same declarations conflict. -/
theorem conflict_hidden_by_order :
    Clash (declaredRows [serviceXY, serviceX, serviceY]) ∧
      (∃ b, (declaring [serviceXY, serviceX, serviceY]).build () = (.ok b, ())) ∧
      (declaring [serviceX, serviceY, serviceXY]).build () =
        (.error (.conflictingRegistration "e" (.clash serviceX serviceY anyService)), ()) := by
  refine ⟨?_, ⟨⟨[⟨anyService, [⟨"e", serviceXY⟩]⟩], [("e", serviceXY)], [], []⟩, ?_⟩, ?_⟩
  · exact ⟨anyService, "e", serviceX, by decide +kernel, serviceY, by decide +kernel, by decide +kernel,
      by decide +kernel⟩
  · cbv
  · cbv

/-- Of the two orders, the one with the types that clash at its beginning conflicts. -/
theorem conflicts_iff_declaring :
    Answer (declaring [serviceX, serviceY, serviceXY]).roots () (declaredRows [serviceX, serviceY, serviceXY]) ∧
      (declaring [serviceX, serviceY, serviceXY]).Conflicts () := by
  have hanswer := answer_declaring [serviceX, serviceY, serviceXY]
  refine ⟨hanswer, (conflicts_iff hanswer).1.2 (.inr ?_)⟩
  have htypes : typesIn (rowsOf (declaredRows [serviceX, serviceY, serviceXY]) anyService) "e" =
      [serviceX, serviceY, serviceXY] := by decide +kernel
  refine ⟨anyService, "e", [serviceX], serviceY, serviceX, ?_, TypeSet.isLeastOf_singleton _, by decide +kernel,
    by decide +kernel⟩
  rw [htypes]
  exact ⟨[serviceXY], rfl⟩

end Registry

end ArchFlow
