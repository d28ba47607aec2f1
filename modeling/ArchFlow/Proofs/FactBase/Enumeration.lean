import ArchFlow.Proofs.FactBase.Merging
import ArchFlow.Proofs.List.AppendNew
import ArchFlow.Proofs.TypeSet.Order
import Mathlib.Data.List.Nodup

/-!
# What enumeration comes to

Elements are put into a slot one by one, and what is kept of an id is compared with each declaration that follows. So
the outcome is told by the types that the id is declared under, in their order: it is kept under the least of them, as
long as every beginning of that list has a least type, and it is a conflict as soon as one has not.

* `Slot.fill_settles`: what putting elements into a slot comes to.
* `enroll_settles`: what the elements of one more source come to.
* `Registry.build_settles`: what sources that answer come to.
-/

namespace ArchFlow

variable {ω : Type}

/-! ## Outcomes -/

/-- A result is there, with a property, exactly if something holds; otherwise a registration conflicts. -/
def Settles {α : Type} (result : Except Failure α) (possible : Prop) (P : α → Prop) : Prop :=
  (possible ∧ ∃ a, result = .ok a ∧ P a) ∨
    (¬ possible ∧ ∃ id conflict, result = .error (.conflictingRegistration id conflict))

theorem Settles.map {α β : Type} {result : Except Failure α} {possible possible' : Prop} {P : α → Prop} {Q : β → Prop}
    {f : α → β} (h : Settles result possible P) (hiff : possible ↔ possible') (hPQ : ∀ a, P a → Q (f a)) :
    Settles (result.map f) possible' Q := by
  rcases h with ⟨hp, a, rfl, ha⟩ | ⟨hp, id, conflict, rfl⟩
  · exact .inl ⟨hiff.1 hp, f a, rfl, hPQ a ha⟩
  · exact .inr ⟨fun hp' => hp (hiff.2 hp'), id, conflict, rfl⟩

/-! ## One element in a list -/

section Place

variable {slot : ElementType} {e k : Element} {ks : List Element}

theorem placeIn_of_new (h : e.id ∉ ks.map (·.id)) : placeIn slot e ks = .ok (ks ++ [e]) := by
  induction ks with
  | nil => rfl
  | cons k ks ih =>
    rw [List.map_cons, List.mem_cons, not_or] at h
    rw [placeIn, if_neg (Ne.symm h.1), ih h.2]
    rfl

/-- The element takes the place of the one with its id. -/
def replaceById (e : Element) (ks : List Element) : List Element := ks.map fun k => if k.id = e.id then e else k

theorem replaceById_of_new (h : e.id ∉ ks.map (·.id)) : replaceById e ks = ks := by
  have hsame : ∀ k ∈ ks, (if k.id = e.id then e else k) = k := fun k hk =>
    if_neg fun hid => h (List.mem_map.2 ⟨k, hk, hid⟩)
  rw [replaceById, List.map_congr_left hsame, List.map_id']

theorem map_id_replaceById (e : Element) (ks : List Element) : (replaceById e ks).map (·.id) = ks.map (·.id) := by
  rw [replaceById, List.map_map]
  refine List.map_congr_left fun k _ => ?_
  by_cases h : k.id = e.id <;> simp [h]

theorem placeIn_of_known (hnodup : (ks.map (·.id)).Nodup) (hk : k ∈ ks) (hid : k.id = e.id) :
    placeIn slot e ks =
      if k.type.refines e.type then .ok ks
      else if e.type.refines k.type then .ok (replaceById e ks)
      else .error (.clash k.type e.type slot) := by
  induction ks with
  | nil => cases hk
  | cons j ks ih =>
    obtain ⟨hj, hnodup⟩ := List.nodup_cons.1 hnodup
    rw [placeIn]
    rcases List.mem_cons.1 hk with rfl | hk
    · have htail : replaceById e ks = ks := replaceById_of_new (hid ▸ hj)
      rw [if_pos hid, replaceById, List.map_cons, if_pos hid, ← replaceById, htail]
    · have hje : j.id ≠ e.id := fun h => hj (List.mem_map.2 ⟨k, hk, hid.trans h.symm⟩)
      have hcons : replaceById e (j :: ks) = j :: replaceById e ks := by rw [replaceById, List.map_cons, if_neg hje]; rfl
      rw [if_neg hje, ih hnodup hk, hcons]
      split
      · rfl
      · split <;> rfl

end Place

/-! ## Declarations of an id -/

section TypesIn

variable {es fs : List Element} {e : Element} {id : ElementId}

theorem typesIn_append (es fs : List Element) (id : ElementId) :
    typesIn (es ++ fs) id = typesIn es id ++ typesIn fs id := by
  simp [typesIn]

theorem typesIn_concat_self (es : List Element) (e : Element) :
    typesIn (es ++ [e]) e.id = typesIn es e.id ++ [e.type] := by
  simp [typesIn]

theorem typesIn_concat_of_ne (h : id ≠ e.id) : typesIn (es ++ [e]) id = typesIn es id := by
  simp [typesIn, Ne.symm h]

theorem typesIn_eq_nil (h : id ∉ es.map (·.id)) : typesIn es id = [] :=
  List.eq_nil_iff_forall_not_mem.2 fun _ ht => by
    obtain ⟨e, he, rfl, -⟩ := mem_typesIn.1 ht
    exact h (List.mem_map_of_mem he)

end TypesIn

/-- Elements that a slot of a type takes in turn: they fit it, and the types of each id narrow down. -/
structure Placeable (slot : ElementType) (es : List Element) : Prop where
  fits : ∀ e ∈ es, e.type.refines slot = true
  narrowing : ∀ id, TypeSet.Narrowing (typesIn es id)

theorem placeable_nil (slot : ElementType) : Placeable slot [] := ⟨by simp, fun _ => TypeSet.narrowing_nil⟩

theorem Placeable.of_append {slot : ElementType} {es fs : List Element} (h : Placeable slot (es ++ fs)) :
    Placeable slot es where
  fits e he := h.fits e (List.mem_append_left _ he)
  narrowing id := (typesIn_append es fs id ▸ h.narrowing id).of_append

/-- Elements are taken after others if they fit and the types of their ids still have a least one. -/
theorem Placeable.concat_iff {slot : ElementType} {es : List Element} (h : Placeable slot es) (e : Element) :
    Placeable slot (es ++ [e]) ↔
      e.type.refines slot = true ∧ ∃ t, TypeSet.IsLeastOf t (typesIn es e.id ++ [e.type]) := by
  constructor
  · intro he
    have hleast := (he.narrowing e.id).exists_least (by simp [typesIn_concat_self])
    exact ⟨he.fits e (by simp), typesIn_concat_self es e ▸ hleast⟩
  · rintro ⟨hfits, hleast⟩
    constructor
    · intro f hf
      rcases List.mem_append.1 hf with hf | hf
      · exact h.fits f hf
      · rw [List.mem_singleton.1 hf]
        exact hfits
    · intro id
      by_cases hid : id = e.id
      · rw [hid, typesIn_concat_self]
        exact (h.narrowing e.id).append_iff.2 hleast
      · rw [typesIn_concat_of_ne hid]
        exact h.narrowing id

/-! ## Slots -/

/-- The slot has each id of the elements that were put into it once, in the order in which ids first occur, under the
least of the types that it was declared with. -/
structure Slot.Holds (s : Slot) (es : List Element) : Prop where
  ids : s.elements.map (·.id) = appendAllNew [] (es.map (·.id))
  least : ∀ k ∈ s.elements, k.type.IsLeastOf (typesIn es k.id)

namespace Slot

theorem holds_nil (type : ElementType) : Slot.Holds ⟨type, []⟩ [] := ⟨rfl, by simp⟩

variable {s : Slot} {es : List Element} {e k : Element}

theorem Holds.nodup (h : s.Holds es) : (s.elements.map (·.id)).Nodup := h.ids ▸ nodup_appendAllNew List.nodup_nil

theorem Holds.mem_ids (h : s.Holds es) {id : ElementId} : id ∈ s.elements.map (·.id) ↔ id ∈ es.map (·.id) := by
  simp [h.ids, mem_appendAllNew]

theorem Holds.ids_concat (h : s.Holds es) (e : Element) :
    appendAllNew [] ((es ++ [e]).map (·.id)) = appendNew (s.elements.map (·.id)) e.id := by
  rw [List.map_append, appendAllNew_append, ← h.ids]
  rfl

/-- A new id is kept under the type it comes with. -/
theorem Holds.add (h : s.Holds es) (hnew : e.id ∉ s.elements.map (·.id)) :
    Slot.Holds ⟨s.type, s.elements ++ [e]⟩ (es ++ [e]) := by
  have hnone : typesIn es e.id = [] := typesIn_eq_nil fun hid => hnew (h.mem_ids.2 hid)
  constructor
  · rw [h.ids_concat, appendNew, if_neg hnew, List.map_append]
    rfl
  · intro k hk
    rcases List.mem_append.1 hk with hk | hk
    · have hke : k.id ≠ e.id := fun hid => hnew (hid ▸ List.mem_map_of_mem hk)
      rw [typesIn_concat_of_ne hke]
      exact h.least k hk
    · rw [List.mem_singleton.1 hk, typesIn_concat_self, hnone]
      exact TypeSet.isLeastOf_singleton e.type

/-- A known id keeps its type if that is within the new one. -/
theorem Holds.keep (h : s.Holds es) (hk : k ∈ s.elements) (hid : k.id = e.id) (hle : k.type.refines e.type = true) :
    s.Holds (es ++ [e]) := by
  constructor
  · rw [h.ids_concat, appendNew, if_pos (hid ▸ List.mem_map_of_mem hk)]
  · intro j hj
    by_cases hje : j.id = e.id
    · have hjk : j = k := List.inj_on_of_nodup_map h.nodup hj hk (hje.trans hid.symm)
      rw [hje, typesIn_concat_self, hjk, ← hid]
      exact (h.least k hk).append_of_refines hle
    · rw [typesIn_concat_of_ne hje]
      exact h.least j hj

/-- A known id takes the new type if that is within the one it has. -/
theorem Holds.replace (h : s.Holds es) (hk : k ∈ s.elements) (hid : k.id = e.id) (hle : e.type.refines k.type = true) :
    Slot.Holds ⟨s.type, replaceById e s.elements⟩ (es ++ [e]) := by
  constructor
  · rw [map_id_replaceById, h.ids_concat, appendNew, if_pos (hid ▸ List.mem_map_of_mem hk)]
  · intro j hj
    obtain ⟨i, hi, rfl⟩ := List.mem_map.1 hj
    by_cases hie : i.id = e.id
    · rw [if_pos hie, typesIn_concat_self, ← hid]
      exact (h.least k hk).append_of_le hle
    · rw [if_neg hie, typesIn_concat_of_ne hie]
      exact h.least i hi

/-- What putting one more element into a slot comes to. -/
theorem place_settles (h : s.Holds es) (hes : Placeable s.type es) (e : Element) :
    Settles (s.place e) (Placeable s.type (es ++ [e])) fun s' => s'.type = s.type ∧ s'.Holds (es ++ [e]) := by
  rw [place, Settles, hes.concat_iff]
  by_cases hfits : e.type.refines s.type = true
  · rw [if_pos hfits]
    by_cases hknown : e.id ∈ s.elements.map (·.id)
    · obtain ⟨k, hk, hid⟩ := List.mem_map.1 hknown
      rw [placeIn_of_known h.nodup hk hid, TypeSet.exists_least_append_iff (hid ▸ h.least k hk)]
      by_cases hle : k.type.refines e.type = true
      · rw [if_pos hle]
        exact .inl ⟨⟨hfits, .inl hle⟩, _, rfl, rfl, h.keep hk hid hle⟩
      · rw [if_neg hle]
        by_cases hle' : e.type.refines k.type = true
        · rw [if_pos hle']
          exact .inl ⟨⟨hfits, .inr hle'⟩, _, rfl, rfl, h.replace hk hid hle'⟩
        · rw [if_neg hle']
          exact .inr ⟨fun hboth => hboth.2.elim hle hle', _, _, rfl⟩
    · have hnone : typesIn es e.id = [] := typesIn_eq_nil fun hid => hknown (h.mem_ids.2 hid)
      rw [placeIn_of_new hknown, hnone]
      exact .inl ⟨⟨hfits, _, TypeSet.isLeastOf_singleton e.type⟩, _, rfl, rfl, h.add hknown⟩
  · rw [if_neg hfits]
    exact .inr ⟨fun hboth => hfits hboth.1, _, _, rfl⟩

/-- What putting elements into a slot comes to. -/
theorem fill_settles (fs : List Element) :
    ∀ {s : Slot} {es : List Element}, s.Holds es → Placeable s.type es →
      Settles (s.fill fs) (Placeable s.type (es ++ fs)) fun s' => s'.type = s.type ∧ s'.Holds (es ++ fs) := by
  induction fs with
  | nil =>
    intro s es h hes
    rw [List.append_nil]
    exact .inl ⟨hes, s, rfl, rfl, h⟩
  | cons f fs ih =>
    intro s es h hes
    rw [List.append_cons, fill]
    rcases place_settles h hes f with ⟨hplace, s', hs', htype, hholds⟩ | ⟨hno, id, conflict, hc⟩
    · rw [hs', ← htype]
      exact ih hholds (htype ▸ hplace)
    · rw [hc]
      exact .inr ⟨fun hall => hno hall.of_append, id, conflict, rfl⟩

end Slot

/-! ## Sources -/

/-- The type that a source is registered for and the elements that it answers. -/
abbrev Row := ElementType × List Element

/-- The elements of the rows for a type. -/
def rowsOf (rows : List Row) (type : ElementType) : List Element := (rows.filter (·.1 = type)).flatMap (·.2)

theorem rowsOf_append (rows rows' : List Row) (type : ElementType) :
    rowsOf (rows ++ rows') type = rowsOf rows type ++ rowsOf rows' type := by
  simp [rowsOf]

theorem rowsOf_concat_self (rows : List Row) (row : Row) :
    rowsOf (rows ++ [row]) row.1 = rowsOf rows row.1 ++ row.2 := by
  simp [rowsOf]

theorem rowsOf_concat_of_ne {rows : List Row} {row : Row} {type : ElementType} (h : type ≠ row.1) :
    rowsOf (rows ++ [row]) type = rowsOf rows type := by
  simp [rowsOf, Ne.symm h]

theorem rowsOf_eq_nil {rows : List Row} {type : ElementType} (h : type ∉ rows.map (·.1)) : rowsOf rows type = [] := by
  have hnone : rows.filter (·.1 = type) = [] := List.filter_eq_nil_iff.2 fun row hrow htype =>
    h (List.mem_map.2 ⟨row, hrow, of_decide_eq_true htype⟩)
  rw [rowsOf, hnone]
  rfl

/-- Asked in turn from a world on, all sources answer, with the rows. -/
inductive Answer : List (RootSource ω) → ω → List Row → Prop
  | nil (w : ω) : Answer [] w []
  | cons {r : RootSource ω} {rs : List (RootSource ω)} {w w' : ω} {es : List Element} {rows : List Row}
      (hload : r.load w = (.ok es, w')) (hrest : Answer rs w' rows) : Answer (r :: rs) w ((r.slotType, es) :: rows)

/-- The slots of all types take the rows. -/
def AllPlaceable (rows : List Row) : Prop := ∀ type, Placeable type (rowsOf rows type)

theorem AllPlaceable.of_append {rows rows' : List Row} (h : AllPlaceable (rows ++ rows')) : AllPlaceable rows :=
  fun type => (rowsOf_append rows rows' type ▸ h type).of_append

theorem AllPlaceable.concat_iff {rows : List Row} (h : AllPlaceable rows) (row : Row) :
    AllPlaceable (rows ++ [row]) ↔ Placeable row.1 (rowsOf rows row.1 ++ row.2) := by
  constructor
  · intro hall
    rw [← rowsOf_concat_self]
    exact hall row.1
  · intro hrow type
    by_cases htype : type = row.1
    · rw [htype, rowsOf_concat_self]
      exact hrow
    · rw [rowsOf_concat_of_ne htype]
      exact h type

/-- There is a slot for each type of the rows, in the order in which types first occur, with the elements of its
rows. -/
structure Shelved (slots : List Slot) (rows : List Row) : Prop where
  types : slots.map (·.type) = appendAllNew [] (rows.map (·.1))
  holds : ∀ s ∈ slots, s.Holds (rowsOf rows s.type)

section Enroll

variable {slots before after : List Slot} {s : Slot} {rows : List Row} {row : Row} {type : ElementType}
  {es : List Element}

theorem enroll_append (h : type ∉ before.map (·.type)) :
    enroll type es (before ++ slots) = (enroll type es slots).map (before ++ ·) := by
  induction before with
  | nil =>
    rw [List.nil_append]
    cases enroll type es slots <;> rfl
  | cons b before ih =>
    rw [List.map_cons, List.mem_cons, not_or] at h
    rw [List.cons_append, enroll, if_neg (Ne.symm h.1), ih h.2]
    cases enroll type es slots <;> rfl

theorem Shelved.nodup (h : Shelved slots rows) : (slots.map (·.type)).Nodup :=
  h.types ▸ nodup_appendAllNew List.nodup_nil

theorem Shelved.types_concat (h : Shelved slots rows) (row : Row) :
    appendAllNew [] ((rows ++ [row]).map (·.1)) = appendNew (slots.map (·.type)) row.1 := by
  rw [List.map_append, appendAllNew_append, ← h.types]
  rfl

/-- The slots for other types are as before. -/
theorem Shelved.holds_of_ne (h : Shelved slots rows) (hs : s ∈ slots) (hne : s.type ≠ row.1) :
    s.Holds (rowsOf (rows ++ [row]) s.type) := by
  rw [rowsOf_concat_of_ne hne]
  exact h.holds s hs

/-- A type that is new gets a slot of its own. -/
theorem Shelved.add (h : Shelved slots rows) (hnew : row.1 ∉ slots.map (·.type)) (htype : s.type = row.1)
    (hs : s.Holds (rowsOf rows row.1 ++ row.2)) : Shelved (slots ++ [s]) (rows ++ [row]) := by
  constructor
  · rw [h.types_concat, appendNew, if_neg hnew, List.map_append, List.map_singleton, htype]
  · intro t ht
    rcases List.mem_append.1 ht with ht | ht
    · exact h.holds_of_ne ht fun hne => hnew (List.mem_map.2 ⟨t, ht, hne⟩)
    · rw [List.mem_singleton.1 ht, htype, rowsOf_concat_self]
      exact hs

/-- The slot of a type that is known gets the elements. -/
theorem Shelved.extend {s' : Slot} (h : Shelved (before ++ s :: after) rows) (hs : s.type = row.1)
    (htype : s'.type = s.type) (hs' : s'.Holds (rowsOf rows row.1 ++ row.2)) :
    Shelved (before ++ s' :: after) (rows ++ [row]) := by
  have hnodup := h.nodup
  rw [List.map_append, List.map_cons, List.nodup_append, List.nodup_cons] at hnodup
  obtain ⟨-, ⟨hafter, -⟩, hbefore⟩ := hnodup
  constructor
  · rw [h.types_concat, appendNew, if_pos (List.mem_map.2 ⟨s, by simp, hs⟩)]
    simp [htype]
  · intro t ht
    rcases List.mem_append.1 ht with ht | ht
    · refine h.holds_of_ne (List.mem_append_left _ ht) fun hne => ?_
      exact hbefore t.type (List.mem_map_of_mem ht) s.type List.mem_cons_self (hne.trans hs.symm)
    · rcases List.mem_cons.1 ht with rfl | ht
      · rw [htype, hs, rowsOf_concat_self]
        exact hs'
      · refine h.holds_of_ne (List.mem_append_right _ (List.mem_cons_of_mem _ ht)) fun hne => hafter ?_
        exact List.mem_map.2 ⟨t, ht, hne.trans hs.symm⟩

/-- What the elements of one more source come to. -/
theorem enroll_settles (h : Shelved slots rows) (hrows : AllPlaceable rows) (row : Row) :
    Settles (enroll row.1 row.2 slots) (AllPlaceable (rows ++ [row])) fun slots' => Shelved slots' (rows ++ [row]) := by
  by_cases hknown : row.1 ∈ slots.map (·.type)
  · obtain ⟨s, hs, hst⟩ := List.mem_map.1 hknown
    obtain ⟨before, after, rfl⟩ := List.append_of_mem hs
    have hbefore : row.1 ∉ before.map (·.type) := fun hmem => by
      have hnodup := h.nodup
      rw [List.map_append, List.nodup_append] at hnodup
      exact hnodup.2.2 row.1 hmem s.type (by simp) hst.symm
    have hfill := Slot.fill_settles row.2 (h.holds s hs) (hrows s.type)
    rw [enroll_append hbefore, enroll, if_pos hst]
    refine (hfill.map (Q := fun slots' => Shelved (before ++ slots') (rows ++ [row])) ?_ ?_).map Iff.rfl fun _ hs' => hs'
    · rw [hrows.concat_iff, hst]
    · rintro s' ⟨htype, hs'⟩
      exact h.extend hst htype (hst ▸ hs')
  · have hnone : rowsOf rows row.1 = [] := rowsOf_eq_nil fun hmem => hknown (by simp [h.types, mem_appendAllNew, hmem])
    have hfill := Slot.fill_settles row.2 (Slot.holds_nil row.1) (placeable_nil row.1)
    have hsplit : enroll row.1 row.2 slots = (((⟨row.1, []⟩ : Slot).fill row.2).map ([·])).map (slots ++ ·) := by
      have happend : enroll row.1 row.2 (slots ++ []) = (enroll row.1 row.2 []).map (slots ++ ·) := enroll_append hknown
      rwa [List.append_nil] at happend
    rw [hsplit]
    refine (hfill.map (Q := fun slots' => Shelved (slots ++ slots') (rows ++ [row])) ?_ ?_).map Iff.rfl fun _ hs' => hs'
    · rw [hrows.concat_iff, hnone]
    · rintro s' ⟨htype, hs'⟩
      exact h.add hknown htype (hnone ▸ hs')

end Enroll

/-! ## Enumeration -/

/-- What sources that answer come to, after others. -/
theorem enumerate_settles {rs : List (RootSource ω)} {w : ω} {rows : List Row} (hanswer : Answer rs w rows) :
    ∀ {slots : List Slot} {before : List Row}, Shelved slots before → AllPlaceable before →
      Settles (enumerate rs slots w).1 (AllPlaceable (before ++ rows)) fun slots' => Shelved slots' (before ++ rows) := by
  induction hanswer with
  | nil w =>
    intro slots before h hbefore
    rw [List.append_nil]
    exact .inl ⟨hbefore, slots, rfl, h⟩
  | @cons r rs w w' es rows hload hrest ih =>
    intro slots before h hbefore
    rw [List.append_cons, enumerate, hload]
    rcases enroll_settles h hbefore (r.slotType, es) with ⟨hall, slots', henroll, h'⟩ | ⟨hno, id, conflict, henroll⟩
    · dsimp only at henroll ⊢
      rw [henroll]
      exact ih h' hall
    · dsimp only at henroll ⊢
      rw [henroll]
      exact .inr ⟨fun hall => hno hall.of_append, id, conflict, rfl⟩

theorem shelved_nil : Shelved [] [] := ⟨rfl, by simp⟩

theorem allPlaceable_nil : AllPlaceable [] := fun type => placeable_nil type

/-- What sources that answer come to: slots for their rows if these can be placed, and a conflict if not. -/
theorem Registry.build_settles {r : Registry ω} {w : ω} {rows : List Row} (h : Answer r.roots w rows) :
    Settles (r.build w).1 (AllPlaceable rows) fun b =>
      Shelved b.slots rows ∧ b.types = typeTable b.slots ∧ b.attributes = r.attributes ∧ b.links = r.links := by
  have henumerate := enumerate_settles h shelved_nil allPlaceable_nil
  rw [List.nil_append] at henumerate
  rw [build]
  rcases he : enumerate r.roots [] w with ⟨result, w'⟩
  rw [he] at henumerate
  rcases henumerate with ⟨hall, slots, hslots, hshelved⟩ | ⟨hno, id, conflict, hc⟩
  · dsimp only at hslots
    subst hslots
    exact .inl ⟨hall, _, rfl, hshelved, rfl, rfl, rfl⟩
  · dsimp only at hc
    subst hc
    exact .inr ⟨hno, id, conflict, rfl⟩

end ArchFlow
