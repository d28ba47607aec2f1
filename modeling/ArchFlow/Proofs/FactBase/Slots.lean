import ArchFlow.Proofs.FactBase.Enumeration

/-!
# Slots of elements that have the type of the slot

If root sources answer elements of exactly the type that they are registered for, there is nothing to choose between and
nothing to conflict with. Enumeration succeeds, and what it keeps is all there is, in the order in which it first
occurs.

* `Slot.Holds.elements_eq`: a slot holds the elements that were put into it.
* `enumerate_constant`: the slots of sources with fixed answers.
-/

namespace ArchFlow

variable {ω : Type}

/-- The rows hold elements of their own types only. -/
def Uniform (rows : List Row) : Prop := ∀ row ∈ rows, ∀ e ∈ row.2, e.type = row.1

section Uniform

variable {rows : List Row} {e : Element} {type : ElementType}

theorem mem_rowsOf : e ∈ rowsOf rows type ↔ ∃ row ∈ rows, row.1 = type ∧ e ∈ row.2 := by
  simp [rowsOf, and_assoc]

theorem Uniform.type_eq (h : Uniform rows) (he : e ∈ rowsOf rows type) : e.type = type := by
  obtain ⟨row, hrow, rfl, hmem⟩ := mem_rowsOf.1 he
  exact h row hrow e hmem

/-- Elements of the type of their slot conflict with nothing. -/
theorem Uniform.allPlaceable (h : Uniform rows) : AllPlaceable rows := by
  intro type
  constructor
  · intro e he
    rw [h.type_eq he]
    exact type.refines_refl
  · intro id
    refine TypeSet.Comparable.narrowing fun t ht u hu => .inl ?_
    obtain ⟨e, he, -, rfl⟩ := mem_typesIn.1 ht
    obtain ⟨f, hf, -, rfl⟩ := mem_typesIn.1 hu
    rw [h.type_eq he, h.type_eq hf]
    exact type.refines_refl

end Uniform

theorem map_id_of_type {es : List Element} {type : ElementType} (h : ∀ e ∈ es, e.type = type) :
    (es.map (·.id)).map (fun id => (⟨id, type⟩ : Element)) = es := by
  rw [List.map_map]
  refine (List.map_congr_left fun e he => ?_).trans (List.map_id' es)
  cases e
  simp [← h _ he]

/-- A slot holds the elements that were put into it, each once, if they have its type. -/
theorem Slot.Holds.elements_eq {s : Slot} {es : List Element} (h : s.Holds es) (hes : ∀ e ∈ es, e.type = s.type) :
    s.elements = appendAllNew [] es := by
  have hkept : ∀ k ∈ s.elements, k.type = s.type := fun k hk => by
    obtain ⟨e, he, -, htype⟩ := mem_typesIn.1 (h.least k hk).1
    exact htype ▸ hes e he
  have hinjective : Function.Injective fun id => (⟨id, s.type⟩ : Element) := fun _ _ he => congrArg Element.id he
  calc s.elements = (s.elements.map (·.id)).map (⟨·, s.type⟩) := (map_id_of_type hkept).symm
    _ = (appendAllNew [] (es.map (·.id))).map (⟨·, s.type⟩) := by rw [h.ids]
    _ = appendAllNew [] ((es.map (·.id)).map (⟨·, s.type⟩)) := map_appendAllNew hinjective [] _
    _ = appendAllNew [] es := by rw [map_id_of_type hes]

/-! ## Sources with fixed answers -/

/-- Root sources that answer fixed elements, given by the types that they are registered for and the elements. -/
def constantSources (rows : List Row) : List (RootSource ω) := rows.map fun row => ⟨row.1, .constant row.2⟩

/-- The slots of some types, with the elements that each type has. -/
def shelve (types : List ElementType) (g : ElementType → List Element) : List Slot := types.map fun t => ⟨t, g t⟩

/-- The slots of rows: their types and the elements of these, in the order in which they first occur. -/
def slotsOf (rows : List Row) : List Slot :=
  shelve (appendAllNew [] (rows.map (·.1))) fun t => appendAllNew [] (rowsOf rows t)

theorem mem_slotsOf {rows : List Row} {e : Element} :
    (∃ slot ∈ slotsOf rows, e ∈ slot.elements) ↔ ∃ row ∈ rows, e ∈ row.2 := by
  constructor
  · rintro ⟨slot, hslot, he⟩
    obtain ⟨t, -, rfl⟩ := List.mem_map.1 hslot
    obtain ⟨row, hrow, -, he⟩ := mem_rowsOf.1 ((mem_appendAllNew.1 he).resolve_left List.not_mem_nil)
    exact ⟨row, hrow, he⟩
  · rintro ⟨row, hrow, he⟩
    refine ⟨_, List.mem_map_of_mem (mem_appendAllNew.2 (.inr (List.mem_map_of_mem hrow))), ?_⟩
    exact mem_appendAllNew.2 (.inr (mem_rowsOf.2 ⟨row, hrow, rfl, he⟩))

theorem Shelved.eq_slotsOf {slots : List Slot} {rows : List Row} (h : Shelved slots rows) (hrows : Uniform rows) :
    slots = slotsOf rows := by
  have hslots : ∀ s ∈ slots, (⟨s.type, appendAllNew [] (rowsOf rows s.type)⟩ : Slot) = s := fun s hs => by
    rw [← (h.holds s hs).elements_eq fun e he => hrows.type_eq he]
  rw [slotsOf, ← h.types, shelve, List.map_map]
  exact ((List.map_congr_left hslots).trans (List.map_id' slots)).symm

theorem answer_constant (rows : List Row) (w : ω) : Answer (constantSources rows) w rows := by
  induction rows with
  | nil => exact .nil w
  | cons row rows ih => exact .cons rfl ih

theorem enumerate_constant_world (rows : List Row) (w : ω) :
    ∀ slots, (enumerate (constantSources rows) slots w).2 = w := by
  induction rows with
  | nil => intro slots; rfl
  | cons row rows ih =>
    intro slots
    rw [constantSources, List.map_cons, enumerate]
    dsimp only [Loader.constant]
    split
    · rfl
    · exact ih _

/-- Sources that answer elements of their own types only are enumerated into the slots of what they answer. -/
theorem enumerate_constant {rows : List Row} (h : Uniform rows) (w : ω) :
    enumerate (constantSources rows) [] w = (.ok (slotsOf rows), w) := by
  refine Prod.ext ?_ (enumerate_constant_world rows w [])
  rcases enumerate_settles (answer_constant rows w) shelved_nil allPlaceable_nil with ⟨-, slots, hslots, hs⟩ | ⟨hno, -⟩
  · rw [hslots, hs.eq_slotsOf h]
    rfl
  · exact absurd h.allPlaceable hno

end ArchFlow
