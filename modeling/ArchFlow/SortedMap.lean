/-!
# Finite maps in order

A `SortedMap κ β` lists its entries by strictly increasing key, so that maps with the same entries are equal and are
printed in key order.

* `SortedMap.ext_toList`: maps with the same entries are equal.
* `SortedMap.ext_get?`: maps that answer the same are equal.
* `SortedMap.get?_eq_some_iff`: a map answers its entries.
* `SortedMap.get?_insert`, `SortedMap.get?_erase`: what a map answers after a change.
* `SortedMap.ofList_toList`: a map is made of its entries.
-/

namespace ArchFlow

/-! ## Lists of entries -/

section Entries

variable {κ β : Type} [Ord κ]

/-- Writes an entry into a list sorted by key, over an entry that is there. -/
def insertEntry (k : κ) (v : β) : List (κ × β) → List (κ × β)
  | [] => [(k, v)]
  | e :: es =>
    match compare k e.1 with
    | .lt => (k, v) :: e :: es
    | .eq => (k, v) :: es
    | .gt => e :: insertEntry k v es

/-- Every key of the list is below all that follow it. -/
abbrev IncreasingKeys (es : List (κ × β)) : Prop :=
  es.Pairwise fun a b => compare a.1 b.1 = .lt

/-- Writing an entry adds its key and loses none. -/
theorem mem_keys_insertEntry [Std.LawfulEqOrd κ] {k a : κ} {v : β} {es : List (κ × β)} :
    a ∈ (insertEntry k v es).map (·.1) ↔ a = k ∨ a ∈ es.map (·.1) := by
  induction es with
  | nil => simp [insertEntry]
  | cons e es ih =>
    unfold insertEntry
    split
    · simp
    · next h => simp [Std.LawfulEqCmp.eq_of_compare h]
    · rw [List.map_cons, List.mem_cons, ih, List.map_cons, List.mem_cons, or_left_comm]

/-- Writing an entry keeps the order. -/
theorem IncreasingKeys.insertEntry [Std.TransOrd κ] [Std.LawfulEqOrd κ] {es : List (κ × β)} (k : κ) (v : β)
    (h : IncreasingKeys es) : IncreasingKeys (insertEntry k v es) := by
  induction es with
  | nil => simp [ArchFlow.insertEntry]
  | cons e es ih =>
    obtain ⟨he, hes⟩ := List.pairwise_cons.1 h
    unfold ArchFlow.insertEntry
    split
    · next hk =>
      refine List.pairwise_cons.2 ⟨fun b hb => ?_, h⟩
      rcases List.mem_cons.1 hb with rfl | hb
      · exact hk
      · exact Std.TransCmp.lt_trans hk (he b hb)
    · next hk =>
      refine List.pairwise_cons.2 ⟨fun b hb => ?_, hes⟩
      have hke := Std.LawfulEqCmp.eq_of_compare hk
      simpa [hke] using he b hb
    · next hk =>
      refine List.pairwise_cons.2 ⟨fun b hb => ?_, ih hes⟩
      have hb' : b.1 ∈ (ArchFlow.insertEntry k v es).map (·.1) := List.mem_map_of_mem hb
      rcases mem_keys_insertEntry.1 hb' with hbk | hbk
      · exact hbk ▸ Std.OrientedCmp.lt_of_gt hk
      · obtain ⟨c, hc, hcb⟩ := List.mem_map.1 hbk
        exact hcb ▸ he c hc

end Entries

/-! ## Maps -/

/-- A finite map, kept as its entries in the order of their keys. -/
structure SortedMap (κ β : Type) [Ord κ] where
  /-- The entries, by increasing key. -/
  toList : List (κ × β)
  increasing : IncreasingKeys toList

namespace SortedMap

variable {κ β : Type} [Ord κ]

/-- Maps with the same entries are equal. -/
theorem ext_toList {m n : SortedMap κ β} (h : m.toList = n.toList) : m = n := by
  cases m; cases n; cases h; rfl

instance [DecidableEq κ] [DecidableEq β] : DecidableEq (SortedMap κ β) := fun m n =>
  if h : m.toList = n.toList then isTrue (ext_toList h) else isFalse fun e => h (e ▸ rfl)

/-- The map without entries. -/
def empty : SortedMap κ β := ⟨[], List.Pairwise.nil⟩

instance : EmptyCollection (SortedMap κ β) := ⟨empty⟩

instance : Inhabited (SortedMap κ β) := ⟨empty⟩

/-- The value under a key. -/
def get? [DecidableEq κ] (m : SortedMap κ β) (k : κ) : Option β :=
  (m.toList.find? (·.1 = k)).map (·.2)

/-- A map answers its entries, of which no two have the same key. -/
theorem get?_eq_some_iff [DecidableEq κ] [Std.TransOrd κ] {m : SortedMap κ β} {k : κ} {v : β} :
    m.get? k = some v ↔ (k, v) ∈ m.toList := by
  obtain ⟨es, h⟩ := m
  simp only [get?]
  induction es with
  | nil => simp
  | cons e es ih =>
    obtain ⟨hlt, hes⟩ := List.pairwise_cons.1 h
    by_cases hek : e.1 = k
    · subst hek
      have hnew : (e.1, v) ∉ es := fun hmem => by
        have := hlt _ hmem
        simp at this
      simp [hnew, Prod.ext_iff, eq_comm]
    · have hne : (k, v) ≠ e := fun he => hek (congrArg Prod.fst he).symm
      simpa [List.find?_cons, hek, hne] using ih hes

/-- Nothing is found under a key that is below all keys of a list of entries. -/
theorem find?_eq_none_of_lt [DecidableEq κ] [Std.TransOrd κ] {k : κ} {es : List (κ × β)}
    (h : ∀ e ∈ es, compare k e.1 = .lt) : es.find? (·.1 = k) = none := by
  refine List.find?_eq_none.2 fun e he hek => ?_
  have hlt := h e he
  rw [of_decide_eq_true hek] at hlt
  simp at hlt

/-- A key that lists of entries in order agree on is not below the first key of either. -/
theorem not_lt_of_find?_eq [DecidableEq κ] [Std.TransOrd κ] {e f : κ × β} {es fs : List (κ × β)}
    (hf : IncreasingKeys (f :: fs))
    (h : ((e :: es).find? (·.1 = e.1)).map (·.2) = ((f :: fs).find? (·.1 = e.1)).map (·.2)) :
    compare e.1 f.1 ≠ .lt := by
  intro hlt
  have hnone : (f :: fs).find? (·.1 = e.1) = none := by
    refine find?_eq_none_of_lt fun b hb => ?_
    rcases List.mem_cons.1 hb with rfl | hb
    · exact hlt
    · exact Std.TransCmp.lt_trans hlt ((List.pairwise_cons.1 hf).1 b hb)
  rw [hnone] at h
  simp at h

/-- Maps that answer the same under all keys are equal. -/
theorem ext_get? [DecidableEq κ] [Std.TransOrd κ] [Std.LawfulEqOrd κ] {m n : SortedMap κ β}
    (h : ∀ k, m.get? k = n.get? k) : m = n := by
  obtain ⟨es, hes⟩ := m
  obtain ⟨fs, hfs⟩ := n
  refine ext_toList ?_
  dsimp only [get?] at h ⊢
  induction es generalizing fs with
  | nil =>
    cases fs with
    | nil => rfl
    | cons f fs => simpa using h f.1
  | cons e es ih =>
    cases fs with
    | nil => simpa using h e.1
    | cons f fs =>
      have hkey : e.1 = f.1 := by
        cases hcompare : compare e.1 f.1 with
        | lt => exact absurd hcompare (not_lt_of_find?_eq hfs (h e.1))
        | eq => exact Std.LawfulEqCmp.eq_of_compare hcompare
        | gt => exact absurd (Std.OrientedCmp.lt_of_gt hcompare) (not_lt_of_find?_eq hes (h f.1).symm)
      have hentry : e = f := Prod.ext hkey (by simpa [hkey] using h e.1)
      subst hentry
      obtain ⟨he, hrest⟩ := List.pairwise_cons.1 hes
      obtain ⟨hf, hrest'⟩ := List.pairwise_cons.1 hfs
      refine congrArg (e :: ·) (ih hrest fs hrest' fun k => ?_)
      by_cases hk : e.1 = k
      · subst hk
        rw [find?_eq_none_of_lt he, find?_eq_none_of_lt hf]
      · simpa [List.find?_cons, hk] using h k

/-- The map without the entry under a key. -/
def erase [DecidableEq κ] (m : SortedMap κ β) (k : κ) : SortedMap κ β :=
  ⟨m.toList.filter (·.1 ≠ k), m.increasing.filter _⟩

/-- Erasing a key changes nothing under the others. -/
theorem get?_erase [DecidableEq κ] (m : SortedMap κ β) (k a : κ) :
    (m.erase k).get? a = if k = a then none else m.get? a := by
  obtain ⟨es, h⟩ := m
  simp only [get?, erase]
  clear h
  induction es with
  | nil => simp
  | cons e es ih =>
    rw [List.filter_cons]
    by_cases hek : e.1 = k
    · by_cases hka : k = a
      · simp [hek, hka] at ih ⊢
      · have hea : e.1 ≠ a := hek ▸ hka
        simpa [hek, hka, hea, List.find?_cons] using ih
    · by_cases hea : e.1 = a
      · have hka : k ≠ a := fun e' => hek (hea.trans e'.symm)
        rw [if_pos (by simpa using hek)]
        simp [hea, hka]
      · rw [if_pos (by simpa using hek)]
        simpa [List.find?_cons, hea] using ih

variable [Std.TransOrd κ] [Std.LawfulEqOrd κ]

/-- Writes an entry, over one with the same key. -/
def insert (m : SortedMap κ β) (k : κ) (v : β) : SortedMap κ β :=
  ⟨insertEntry k v m.toList, m.increasing.insertEntry k v⟩

/-- The map of a list of entries; of several with one key the last one counts. -/
def ofList (es : List (κ × β)) : SortedMap κ β :=
  es.foldl (fun m e => m.insert e.1 e.2) empty

/-- An entry is found after it is written, and the others are as before. -/
theorem get?_insert [DecidableEq κ] (m : SortedMap κ β) (k a : κ) (v : β) :
    (m.insert k v).get? a = if k = a then some v else m.get? a := by
  obtain ⟨es, h⟩ := m
  simp only [get?, insert]
  clear h
  induction es with
  | nil => by_cases hka : k = a <;> simp [insertEntry, List.find?, hka]
  | cons e es ih =>
    unfold insertEntry
    split
    · by_cases hka : k = a <;> simp [List.find?, hka]
    · next hk =>
      have hke := Std.LawfulEqCmp.eq_of_compare hk
      by_cases hka : k = a
      · simp [List.find?, hka]
      · have hea : e.1 ≠ a := hke ▸ hka
        simp [List.find?, hka, hea]
    · next hk =>
      by_cases hea : e.1 = a
      · have hka : k ≠ a := by
          rintro rfl
          rw [hea] at hk
          simp at hk
        simp [List.find?, hea, hka]
      · simpa [List.find?, hea] using ih

theorem get?_foldl_insert [DecidableEq κ] {es : List (κ × β)} (h : IncreasingKeys es) (k : κ) :
    ∀ m : SortedMap κ β, (es.foldl (fun m e => m.insert e.1 e.2) m).get? k =
      ((es.find? (·.1 = k)).map (·.2)).or (m.get? k) := by
  induction es with
  | nil => intro m; rfl
  | cons e es ih =>
    intro m
    obtain ⟨he, hes⟩ := List.pairwise_cons.1 h
    rw [List.foldl_cons, ih hes, get?_insert, List.find?_cons]
    by_cases hek : e.1 = k
    · have hnone : es.find? (·.1 = k) = none := hek ▸ find?_eq_none_of_lt he
      simp [hek, hnone]
    · simp [hek]

/-- The map of its own entries is the map. -/
theorem ofList_toList [DecidableEq κ] (m : SortedMap κ β) : ofList m.toList = m := by
  refine ext_get? fun k => ?_
  rw [ofList, get?_foldl_insert m.increasing]
  exact Option.or_none ..

end SortedMap

end ArchFlow
