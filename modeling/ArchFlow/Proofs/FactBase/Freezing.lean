import ArchFlow.Proofs.FactBase.Conflicts
import Mathlib.Data.Finset.Card
import Mathlib.Data.List.Permutation

/-!
# What a build freezes

A fact base that was built holds what its sources told. For each type that elements were registered for there is a slot;
a slot has each id that was told for its type, under the least of the types that it was told with, and the type of an
element is the union of what it is in the slots. Least types and unions do not depend on the order in which things are
told, so neither does what a fact base knows: the order of the registrations only shows in the order of the slots and of
their elements.

* `FactBase.Freezes`: what a fact base keeps of the rows of its sources.
* `Shelved.mem_elements_iff`: the elements of a slot, without regard to order.
* `Registry.build_freezes`: what is frozen, and that its order does not matter.
-/

namespace ArchFlow

variable {ω : Type}

/-! ## Sources that answered -/

/-- Enumeration succeeds only if all sources answer. -/
theorem exists_answer_of_enumerate {rs : List (RootSource ω)} {frozen : List Slot} :
    ∀ {slots w}, (enumerate rs slots w).1 = .ok frozen → ∃ rows, Answer rs w rows := by
  induction rs with
  | nil => exact fun _ => ⟨[], .nil _⟩
  | cons r rs ih =>
    intro slots w h
    rw [enumerate] at h
    split at h
    · cases h
    · next es w' hload =>
      split at h
      · cases h
      · obtain ⟨rows, hrows⟩ := ih h
        exact ⟨(r.slotType, es) :: rows, .cons hload hrows⟩

theorem Answer.unique {rs : List (RootSource ω)} {w : ω} {rows rows' : List Row} (h : Answer rs w rows)
    (h' : Answer rs w rows') : rows = rows' := by
  induction h generalizing rows' with
  | nil => cases h'; rfl
  | cons hload _ ih =>
    cases h' with
    | cons hload' hrest' =>
      cases hload.symm.trans hload'
      rw [ih hrest']

/-- What a source tells, if it answers in a world. -/
def rowIn (w : ω) (r : RootSource ω) : Row := (r.slotType, (r.load w).1.toOption.getD [])

theorem Answer.eq_map {rs : List (RootSource ω)} {w : ω} {rows : List Row} (h : Answer rs w rows)
    (hsteady : ∀ r ∈ rs, ∃ answer, r.load.Steady answer) (w₀ : ω) : rows = rs.map (rowIn w₀) := by
  induction h with
  | nil => rfl
  | @cons r rs w w' es rows hload _ ih =>
    obtain ⟨answer, hanswer⟩ := hsteady r List.mem_cons_self
    have hes : (r.load w₀).1 = .ok es := by rw [hanswer w₀, ← hanswer w, hload]
    rw [List.map_cons, ← ih fun r hr => hsteady r (List.mem_cons_of_mem _ hr), rowIn, hes]
    rfl

/-- Steady sources tell the same in another order. -/
theorem Answer.perm {rs rs' : List (RootSource ω)} {w w' : ω} {rows rows' : List Row} (h : Answer rs w rows)
    (h' : Answer rs' w' rows') (hsteady : ∀ r ∈ rs, ∃ answer, r.load.Steady answer) (hperm : rs'.Perm rs) :
    rows'.Perm rows := by
  rw [h.eq_map hsteady w, h'.eq_map (fun r hr => hsteady r (hperm.mem_iff.1 hr)) w]
  exact hperm.map _

/-- What a fact base was built from, and that it holds this. -/
theorem Registry.exists_rows_of_build {r : Registry ω} {w w' : ω} {b : FactBase ω} (h : r.build w = (.ok b, w')) :
    ∃ rows, Answer r.roots w rows ∧ Shelved b.slots rows ∧ b.types = typeTable b.slots := by
  have henumerate : ∃ slots, (enumerate r.roots [] w).1 = .ok slots := by
    rw [build] at h
    split at h
    · cases h
    · next slots _ he => exact ⟨slots, by rw [he]⟩
  obtain ⟨slots, hslots⟩ := henumerate
  obtain ⟨rows, hrows⟩ := exists_answer_of_enumerate hslots
  refine ⟨rows, hrows, ?_⟩
  rcases build_settles hrows with ⟨-, b', hb', hshelved, htypes, -, -⟩ | ⟨-, id, conflict, hc⟩
  · rw [h] at hb'
    cases hb'
    exact ⟨hshelved, htypes⟩
  · rw [h] at hc
    cases hc

/-! ## The table of types -/

theorem map_fst_classifyAs (id : ElementId) (type : ElementType) (table : List (ElementId × ElementType)) :
    (classifyAs id type table).map (·.1) = appendNew (table.map (·.1)) id := by
  induction table with
  | nil => rfl
  | cons e table ih =>
    obtain ⟨k, known⟩ := e
    rw [classifyAs]
    by_cases hk : k = id
    · simp [hk, appendNew]
    · rw [if_neg hk, List.map_cons, ih]
      by_cases hid : id ∈ table.map (·.1) <;> simp [appendNew, hid, Ne.symm hk]

theorem map_fst_foldl_classifyAs (es : List Element) :
    ∀ table : List (ElementId × ElementType),
      (es.foldl (fun table e => classifyAs e.id e.type table) table).map (·.1) =
        appendAllNew (table.map (·.1)) (es.map (·.id)) := by
  induction es with
  | nil => intro table; rfl
  | cons e es ih =>
    intro table
    rw [List.foldl_cons, ih, map_fst_classifyAs]
    rfl

/-- There is an entry for each id that is in a slot, and one only. -/
theorem map_fst_typeTable (slots : List Slot) :
    (typeTable slots).map (·.1) = appendAllNew [] ((slots.flatMap (·.elements)).map (·.id)) :=
  map_fst_foldl_classifyAs _ []

/-! ## Without regard to order -/

namespace TypeSet

variable {a : TypeSet} {ts us : List TypeSet}

theorem IsLeastOf.congr (h : ∀ t, t ∈ ts ↔ t ∈ us) : a.IsLeastOf ts ↔ a.IsLeastOf us := by
  simp only [IsLeastOf, h]

/-- The union of some types does not depend on their order. -/
theorem joined?_congr (h : ∀ t, t ∈ ts ↔ t ∈ us) : joined? ts = joined? us := by
  have hnil : ts = [] ↔ us = [] := by simp only [List.eq_nil_iff_forall_not_mem, h]
  by_cases hts : ts = []
  · rw [hts, hnil.1 hts]
  · -- the union is made of the conjuncts of the types, which are the same
    have hconjuncts : ∀ c, c ∈ ts.flatMap (·.disjuncts.toList) ↔ c ∈ us.flatMap (·.disjuncts.toList) := fun c => by
      simp only [List.mem_flatMap, h]
    rw [joined?_eq hts, joined?_eq fun hus => hts (hnil.2 hus)]
    exact congrArg some (ofConjuncts_congr (coveredBy_of_subset fun c => (hconjuncts c).1)
      (coveredBy_of_subset fun c => (hconjuncts c).2))

end TypeSet

/-- A slot has the elements whose types are least among those that they were told with. -/
theorem Slot.Holds.mem_iff {s : Slot} {es : List Element} (h : s.Holds es) {e : Element} :
    e ∈ s.elements ↔ e.type.IsLeastOf (typesIn es e.id) := by
  constructor
  · exact h.least e
  · intro hleast
    obtain ⟨f, hf, hid, -⟩ := mem_typesIn.1 hleast.1
    obtain ⟨k, hk, hke⟩ := List.mem_map.1 (h.mem_ids.2 (List.mem_map.2 ⟨f, hf, hid⟩))
    have htype : k.type = e.type := (hke ▸ h.least k hk).unique hleast
    have hkeq : k = e := by
      cases k
      cases e
      exact Element.mk.injEq .. ▸ ⟨hke, htype⟩
    exact hkeq ▸ hk

namespace Shelved

variable {slots slots' : List Slot} {rows rows' : List Row}

theorem mem_types_iff (h : Shelved slots rows) {type : ElementType} :
    type ∈ slots.map (·.type) ↔ ∃ row ∈ rows, row.1 = type := by
  simp [h.types, mem_appendAllNew]

/-- The elements in the slot of a type. -/
theorem mem_elements_iff (h : Shelved slots rows) {type : ElementType} {e : Element} :
    (∃ s ∈ slots, s.type = type ∧ e ∈ s.elements) ↔ e.type.IsLeastOf (typesIn (rowsOf rows type) e.id) := by
  constructor
  · rintro ⟨s, hs, rfl, he⟩
    exact (h.holds s hs).mem_iff.1 he
  · intro hleast
    obtain ⟨f, hf, -, -⟩ := mem_typesIn.1 hleast.1
    obtain ⟨row, hrow, htype, -⟩ := mem_rowsOf.1 hf
    obtain ⟨s, hs, rfl⟩ := List.mem_map.1 (h.mem_types_iff.2 ⟨row, hrow, htype⟩)
    exact ⟨s, hs, rfl, (h.holds s hs).mem_iff.2 hleast⟩

theorem mem_ids_iff (h : Shelved slots rows) {id : ElementId} :
    id ∈ (slots.flatMap (·.elements)).map (·.id) ↔ id ∈ (rows.flatMap (·.2)).map (·.id) := by
  constructor
  · intro hid
    obtain ⟨e, he, rfl⟩ := List.mem_map.1 hid
    obtain ⟨s, hs, he⟩ := List.mem_flatMap.1 he
    obtain ⟨f, hf, hfe⟩ := List.mem_map.1 ((h.holds s hs).mem_ids.1 (List.mem_map_of_mem he))
    obtain ⟨row, hrow, -, hf⟩ := mem_rowsOf.1 hf
    exact List.mem_map.2 ⟨f, List.mem_flatMap.2 ⟨row, hrow, hf⟩, hfe⟩
  · intro hid
    obtain ⟨f, hf, rfl⟩ := List.mem_map.1 hid
    obtain ⟨row, hrow, hf⟩ := List.mem_flatMap.1 hf
    obtain ⟨s, hs, hst⟩ := List.mem_map.1 (h.mem_types_iff.2 ⟨row, hrow, rfl⟩)
    obtain ⟨e, he, hef⟩ := List.mem_map.1 <|
      (h.holds s hs).mem_ids.2 (List.mem_map_of_mem (mem_rowsOf.2 ⟨row, hrow, hst.symm, hf⟩))
    exact List.mem_map.2 ⟨e, List.mem_flatMap.2 ⟨s, hs, he⟩, hef⟩

/-- What is told decides which elements are in which slots, whatever its order. -/
theorem elements_congr (h : Shelved slots rows) (h' : Shelved slots' rows') (hperm : rows'.Perm rows)
    {type : ElementType} {e : Element} :
    (∃ s ∈ slots', s.type = type ∧ e ∈ s.elements) ↔ ∃ s ∈ slots, s.type = type ∧ e ∈ s.elements := by
  have htold : ∀ t, t ∈ typesIn (rowsOf rows' type) e.id ↔ t ∈ typesIn (rowsOf rows type) e.id := fun t => by
    simp only [mem_typesIn, mem_rowsOf, hperm.mem_iff]
  rw [h'.mem_elements_iff, h.mem_elements_iff, TypeSet.IsLeastOf.congr htold]

end Shelved

/-! ## Fact bases -/

namespace FactBase

/-- The types that an id has in the slots. -/
def keptTypes (b : FactBase ω) (id : ElementId) : List ElementType := typesIn (b.slots.flatMap (·.elements)) id

/-- A fact base keeps the rows of its sources: a slot for each type, in the order in which types first occur; in a slot
each id of the rows for its type once, in the order in which ids first occur, under the least type that it was told
with; for each id the union of its types in the slots, which is its type as long as there are any; and it counts the
ids. -/
structure Freezes (b : FactBase ω) (rows : List Row) : Prop where
  slotTypes : b.slotTypes = (rows.map (·.1)).eraseDups
  ids : ∀ s ∈ b.slots, s.elements.map (·.id) = ((rowsOf rows s.type).map (·.id)).eraseDups
  least : ∀ s ∈ b.slots, ∀ e ∈ s.elements, e.type.IsLeastOf (typesIn (rowsOf rows s.type) e.id)
  typeOf? : ∀ s id, b.typeOf? s id = (TypeSet.joined? (b.keptTypes id)).or (s.met.lookup id)
  size : b.size = ((rows.flatMap (·.2)).map (·.id)).toFinset.card

/-- Fact bases know the same: their slots are for the same types and have the same elements, and all ids have the same
types. -/
structure Alike (b b' : FactBase ω) : Prop where
  slotTypes : ∀ type, type ∈ b'.slotTypes ↔ type ∈ b.slotTypes
  elements : ∀ type e, (∃ s ∈ b'.slots, s.type = type ∧ e ∈ s.elements) ↔ ∃ s ∈ b.slots, s.type = type ∧ e ∈ s.elements
  typeOf? : ∀ s id, b'.typeOf? s id = b.typeOf? s id

variable {b b' : FactBase ω} {rows rows' : List Row}

theorem typeOf?_eq (htypes : b.types = typeTable b.slots) (s : State ω) (id : ElementId) :
    b.typeOf? s id = (TypeSet.joined? (b.keptTypes id)).or (s.met.lookup id) := by
  rw [typeOf?, htypes, lookup_typeTable, keptTypes]

theorem freezes (h : Shelved b.slots rows) (htypes : b.types = typeTable b.slots) : b.Freezes rows where
  slotTypes := by rw [slotTypes, h.types, appendAllNew_nil]
  ids s hs := by rw [(h.holds s hs).ids, appendAllNew_nil]
  least s hs := (h.holds s hs).least
  typeOf? := typeOf?_eq htypes
  size := by
    have hids : (b.types.map (·.1)).toFinset = ((rows.flatMap (·.2)).map (·.id)).toFinset := by
      ext id
      rw [List.mem_toFinset, List.mem_toFinset, htypes, map_fst_typeTable, mem_appendAllNew, h.mem_ids_iff]
      simp
    have hnodup : (b.types.map (·.1)).Nodup := by
      rw [htypes, map_fst_typeTable]
      exact nodup_appendAllNew List.nodup_nil
    rw [← hids, List.toFinset_card_of_nodup hnodup, List.length_map, size]

theorem mem_keptTypes {id : ElementId} {t : ElementType} :
    t ∈ b.keptTypes id ↔ ∃ type, ∃ s ∈ b.slots, s.type = type ∧ ⟨id, t⟩ ∈ s.elements := by
  simp only [keptTypes, mem_typesIn, List.mem_flatMap]
  constructor
  · rintro ⟨e, ⟨s, hs, he⟩, rfl, rfl⟩
    exact ⟨s.type, s, hs, rfl, he⟩
  · rintro ⟨_, s, hs, -, he⟩
    exact ⟨⟨id, t⟩, ⟨s, hs, he⟩, rfl, rfl⟩

theorem alike (h : Shelved b.slots rows) (htypes : b.types = typeTable b.slots) (h' : Shelved b'.slots rows')
    (htypes' : b'.types = typeTable b'.slots) (hperm : rows'.Perm rows) : Alike b b' where
  slotTypes type := by
    rw [slotTypes, slotTypes, h'.mem_types_iff, h.mem_types_iff]
    simp only [hperm.mem_iff]
  elements _ _ := h.elements_congr h' hperm
  typeOf? s id := by
    have hkept : ∀ t, t ∈ b'.keptTypes id ↔ t ∈ b.keptTypes id := fun t => by
      simp only [mem_keptTypes, h.elements_congr h' hperm]
    rw [typeOf?_eq htypes', typeOf?_eq htypes, TypeSet.joined?_congr hkept]

end FactBase

namespace Registry

/-- **What a build freezes.** If a fact base is built, all its sources answered, and it keeps their rows: slots for the
types of the rows, ids under the least types that they were told with, and the unions of these. Whatever is built from
the same rows in another order knows the same; so does what is built from the same sources in another order, if they
tell the same whenever they are asked. -/
theorem build_freezes {r : Registry ω} {w w' : ω} {b : FactBase ω} (h : r.build w = (.ok b, w')) :
    ∃ rows, Answer r.roots w rows ∧ b.Freezes rows ∧
      (∀ (r' : Registry ω) (v v' : ω) (b' : FactBase ω) (rows' : List Row), Answer r'.roots v rows' →
        rows'.Perm rows → r'.build v = (.ok b', v') → b.Alike b') ∧
      ∀ (r' : Registry ω) (v v' : ω) (b' : FactBase ω), (∀ s ∈ r.roots, ∃ answer, s.load.Steady answer) →
        r'.roots.Perm r.roots → r'.build v = (.ok b', v') → b.Alike b' := by
  obtain ⟨rows, hrows, hshelved, htypes⟩ := exists_rows_of_build h
  have halike : ∀ {r' : Registry ω} {v v' : ω} {b' : FactBase ω} {rows' : List Row}, Answer r'.roots v rows' →
      rows'.Perm rows → r'.build v = (.ok b', v') → b.Alike b' := by
    intro r' v v' b' rows' hrows' hperm h'
    obtain ⟨told, htold, hshelved', htypes'⟩ := exists_rows_of_build h'
    cases htold.unique hrows'
    exact FactBase.alike hshelved htypes hshelved' htypes' hperm
  refine ⟨rows, hrows, FactBase.freezes hshelved htypes, ?rows, ?sources⟩
  case rows => exact fun _ _ _ _ _ hrows' hperm h' => halike hrows' hperm h'
  case sources =>
    intro r' v v' b' hsteady hperm h'
    obtain ⟨rows', hrows', -⟩ := exists_rows_of_build h'
    exact halike hrows' (hrows.perm hrows' hsteady hperm) h'

/-! ### One service in two slots -/

/-- What is told of two services: of one of them in two slots, and of both twice in one of these. -/
def toldOfServices : List Row :=
  [(anyService, [⟨"e", anyService⟩, ⟨"f", anyService⟩]), (serviceX, [⟨"e", serviceX⟩]),
    (anyService, [⟨"f", serviceX⟩, ⟨"e", serviceXY⟩])]

/-- The same, with what was told first at the end. -/
def retoldOfServices : List Row :=
  [(serviceX, [⟨"e", serviceX⟩]), (anyService, [⟨"f", serviceX⟩, ⟨"e", serviceXY⟩]),
    (anyService, [⟨"e", anyService⟩, ⟨"f", anyService⟩])]

/-- Providers that tell some rows. -/
def telling (rows : List Row) : Registry Unit where
  roots := constantSources rows

/-- In either order a service is kept under the least of its types in each slot, and has the union of these types. -/
theorem build_freezes_twoOrders :
    ∃ b b', (telling toldOfServices).build () = (.ok b, ()) ∧ (telling retoldOfServices).build () = (.ok b', ()) ∧
      b.slots.map (fun s => (s.type, s.elements.map fun e => (e.id, e.type))) =
        [(anyService, [("e", serviceXY), ("f", serviceX)]), (serviceX, [("e", serviceX)])] ∧
      b'.slots.map (fun s => (s.type, s.elements.map fun e => (e.id, e.type))) =
        [(serviceX, [("e", serviceX)]), (anyService, [("f", serviceX), ("e", serviceXY)])] ∧
      b.Freezes toldOfServices ∧ b.Alike b' ∧ b'.typeOf? (.fresh ()) "e" = some serviceX := by
  have hbuild : (telling toldOfServices).build () =
      (.ok ⟨[⟨anyService, [⟨"e", serviceXY⟩, ⟨"f", serviceX⟩]⟩, ⟨serviceX, [⟨"e", serviceX⟩]⟩],
        [("e", serviceX), ("f", serviceX)], [], []⟩, ()) := by cbv
  have hbuild' : (telling retoldOfServices).build () =
      (.ok ⟨[⟨serviceX, [⟨"e", serviceX⟩]⟩, ⟨anyService, [⟨"f", serviceX⟩, ⟨"e", serviceXY⟩]⟩],
        [("e", serviceX), ("f", serviceX)], [], []⟩, ()) := by cbv
  obtain ⟨rows, hrows, hfreezes, -, hsources⟩ := build_freezes hbuild
  have hsteady : ∀ s ∈ (telling toldOfServices).roots, ∃ answer, s.load.Steady answer := fun s hs => by
    obtain ⟨row, -, rfl⟩ := List.mem_map.1 hs
    exact ⟨.ok row.2, fun _ => rfl⟩
  have hretold : retoldOfServices.Perm toldOfServices := List.perm_append_singleton _ [_, _]
  have hperm : (telling retoldOfServices).roots.Perm (telling toldOfServices).roots := by
    show (constantSources retoldOfServices).Perm (constantSources toldOfServices)
    exact hretold.map _
  cases hrows.unique (answer_constant toldOfServices ())
  exact ⟨_, _, hbuild, hbuild', rfl, rfl, hfreezes, hsources _ () () _ hsteady hperm hbuild', rfl⟩

end Registry

end ArchFlow
