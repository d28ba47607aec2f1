import ArchFlow.FactBase.Resolution
import ArchFlow.Proofs.TypeSet.NormalForm

/-!
# The type of an element in several slots

The type of a registered element joins the types it has in the slots. Joining brings conjuncts into normal form, which
drops a conjunct that contains another one; so of what the slots declare, what counts are the conjuncts that contain no
other declared one.

* `lookup_typeTable`: the type of an id is the union of its types in the slots.
* `FactBase.fits_merged_type_iff`: which types a registered element fits, and when these are the types that one of its
  declarations fits.
* `FactBase.narrower_declaration_lost`: a declaration can be lost to a more general one of another provider.
-/

namespace ArchFlow

/-! ## Unions of many types -/

/-- The union of the types of a list, if there are any. -/
def TypeSet.joined? : List TypeSet → Option TypeSet
  | [] => none
  | t :: ts => some (ts.foldl TypeSet.union t)

/-- The conjuncts of all types of a list. -/
def TypeSet.conjuncts (ts : List TypeSet) : List Conjunct := ts.flatMap (·.disjuncts.toList)

theorem TypeSet.foldl_union (ts : List TypeSet) :
    ∀ cs, ts.foldl TypeSet.union (ofConjuncts cs) = ofConjuncts (cs ++ conjuncts ts) := by
  induction ts with
  | nil => intro cs; simp [conjuncts]
  | cons t ts ih =>
    intro cs
    rw [List.foldl_cons, ofConjuncts_union, ih, conjuncts, conjuncts, List.flatMap_cons, List.append_assoc]

theorem TypeSet.joined?_eq {ts : List TypeSet} (h : ts ≠ []) : joined? ts = some (ofConjuncts (conjuncts ts)) := by
  cases ts with
  | nil => exact absurd rfl h
  | cons t ts =>
    have := foldl_union ts t.disjuncts.toList
    rw [ofConjuncts_toList] at this
    rw [joined?, this, conjuncts, conjuncts, List.flatMap_cons]

/-- What types are joined to may itself be a union. -/
theorem TypeSet.joined?_append (ts us : List TypeSet) : joined? ((joined? ts).toList ++ us) = joined? (ts ++ us) := by
  cases ts with
  | nil => rfl
  | cons t ts => exact congrArg some (List.foldl_append ..).symm

theorem TypeSet.isSome_joined?_iff {ts : List TypeSet} : (joined? ts).isSome = true ↔ ∃ t, t ∈ ts := by
  cases ts with
  | nil => simp [joined?]
  | cons t ts => exact iff_of_true rfl ⟨t, List.mem_cons_self⟩

/-! ## Types of ids -/

/-- The types that elements of an id have in a list. -/
def typesIn (es : List Element) (id : ElementId) : List ElementType := (es.filter (·.id = id)).map (·.type)

theorem mem_typesIn {es : List Element} {id : ElementId} {type : ElementType} :
    type ∈ typesIn es id ↔ ∃ e ∈ es, e.id = id ∧ e.type = type := by
  simp [typesIn, and_assoc]

/-- Classifying an id joins its type, and changes no other. -/
theorem lookup_classifyAs (id k : ElementId) (type : ElementType) (table : List (ElementId × ElementType)) :
    (classifyAs id type table).lookup k =
      if id = k then TypeSet.joined? ((table.lookup k).toList ++ [type]) else table.lookup k := by
  induction table with
  | nil =>
    by_cases h : id = k
    · simp [classifyAs, h, TypeSet.joined?]
    · have hk : (k == id) = false := beq_eq_false_iff_ne.2 fun e => h e.symm
      simp [classifyAs, List.lookup_cons, h, hk]
  | cons e table ih =>
    obtain ⟨i, known⟩ := e
    rw [classifyAs]
    by_cases hi : i = id
    · subst hi
      by_cases h : i = k
      · subst h
        simp [TypeSet.joined?]
      · have hk : (k == i) = false := beq_eq_false_iff_ne.2 fun e => h e.symm
        simp [List.lookup_cons, h, hk]
    · rw [if_neg hi]
      by_cases hk : k = i
      · subst hk
        have : ¬ id = k := fun e => hi e.symm
        simp [this]
      · simp only [List.lookup_cons, beq_eq_false_iff_ne.2 hk]
        exact ih

theorem lookup_foldl_classifyAs (es : List Element) (id : ElementId) :
    ∀ table : List (ElementId × ElementType),
      (es.foldl (fun table e => classifyAs e.id e.type table) table).lookup id =
        TypeSet.joined? ((table.lookup id).toList ++ typesIn es id) := by
  induction es with
  | nil =>
    intro table
    cases h : table.lookup id <;> simp [typesIn, h, TypeSet.joined?]
  | cons e es ih =>
    intro table
    rw [List.foldl_cons, ih, lookup_classifyAs]
    by_cases h : e.id = id
    · cases table.lookup id <;> simp [typesIn, h, TypeSet.joined?]
    · simp [typesIn, h]

/-- The type of an id is the union of its types in the slots. -/
theorem lookup_typeTable (slots : List Slot) (id : ElementId) :
    (typeTable slots).lookup id = TypeSet.joined? (typesIn (slots.flatMap (·.elements)) id) := by
  rw [typeTable, lookup_foldl_classifyAs]
  rfl

/-! ## What a fact base declares -/

namespace FactBase

variable {ω : Type} {b : FactBase ω} {id : ElementId}

/-- Some slot has the id under the type. -/
def Declares (b : FactBase ω) (id : ElementId) (type : ElementType) : Prop :=
  ∃ slot ∈ b.slots, ∃ e ∈ slot.elements, e.id = id ∧ e.type = type

/-- The conjunct is in a type that the id is declared under. -/
def Stated (b : FactBase ω) (id : ElementId) (c : Conjunct) : Prop := ∃ type, b.Declares id type ∧ c ∈ type.disjuncts

/-- The conjunct is stated of the id and contains no other conjunct that is. -/
def Kept (b : FactBase ω) (id : ElementId) (c : Conjunct) : Prop :=
  b.Stated id c ∧ ∀ d, b.Stated id d → d.subset c = true → d = c

theorem declares_iff {type : ElementType} :
    b.Declares id type ↔ type ∈ typesIn (b.slots.flatMap (·.elements)) id := by
  simp only [Declares, mem_typesIn, List.mem_flatMap]
  constructor
  · rintro ⟨slot, hslot, e, he, h⟩
    exact ⟨e, ⟨slot, hslot, he⟩, h⟩
  · rintro ⟨e, ⟨slot, hslot, he⟩, h⟩
    exact ⟨slot, hslot, e, he, h⟩

theorem stated_iff {c : Conjunct} :
    b.Stated id c ↔ c ∈ TypeSet.conjuncts (typesIn (b.slots.flatMap (·.elements)) id) := by
  simp [Stated, TypeSet.conjuncts, declares_iff, SortedSet.mem_def]

theorem Stated.satisfiable {c : Conjunct} : b.Stated id c → c.Satisfiable
  | ⟨type, _, hc⟩ => type.satisfiable c hc

theorem kept_iff {c : Conjunct} :
    b.Kept id c ↔
      c ∈ (TypeSet.ofConjuncts (TypeSet.conjuncts (typesIn (b.slots.flatMap (·.elements)) id))).disjuncts := by
  simp only [TypeSet.mem_ofConjuncts, ← stated_iff]
  constructor
  · rintro ⟨hc, hmin⟩
    exact ⟨hc, hc.satisfiable, fun d hd _ h => hmin d hd h⟩
  · rintro ⟨hc, -, hmin⟩
    exact ⟨hc, fun d hd h => hmin d hd hd.satisfiable h⟩

theorem exists_declared_fits_iff {q : ElementType} :
    (∃ type, b.Declares id type ∧ type.fits q = true) ↔ ∃ c, b.Stated id c ∧ q.covers c = true := by
  simp only [Stated, TypeSet.fits_iff]
  constructor
  · rintro ⟨type, ht, c, hc, hq⟩
    exact ⟨c, ⟨type, ht, hc⟩, hq⟩
  · rintro ⟨c, ⟨type, ht, hc⟩, hq⟩
    exact ⟨type, ht, c, hc, hq⟩

theorem types_of_build {r : Registry ω} {w w' : ω} (h : r.build w = (.ok b, w')) :
    b.types = typeTable b.slots := by
  rw [Registry.build] at h
  split at h
  · cases h
  · cases h; rfl

theorem typeOf?_of_lookup {type : ElementType} (h : b.types.lookup id = some type) (s : State ω) :
    b.typeOf? s id = some type := by
  rw [typeOf?, h, Option.some_or]

/-- The registered ids are those that some slot has. -/
theorem registered_iff (ht : b.types = typeTable b.slots) :
    (b.types.lookup id).isSome = true ↔ ∃ type, b.Declares id type := by
  rw [ht, lookup_typeTable, TypeSet.isSome_joined?_iff]
  simp only [declares_iff]

/-- The type of a registered id is made of the conjuncts that are kept. -/
theorem exists_merged_type (ht : b.types = typeTable b.slots) (hid : (b.types.lookup id).isSome = true) :
    ∃ type, b.types.lookup id = some type ∧ ∀ c, c ∈ type.disjuncts ↔ b.Kept id c := by
  rw [ht, lookup_typeTable] at hid ⊢
  have hne : typesIn (b.slots.flatMap (·.elements)) id ≠ [] := fun h => by
    rw [h] at hid
    cases hid
  exact ⟨_, TypeSet.joined?_eq hne, fun c => kept_iff.symm⟩

/-! ## Which types an element fits -/

/-- **A registered element fits a type iff the type covers a conjunct that is kept.** So every type it fits is one that
some declared type of it fits; and the converse holds exactly where the type, if it covers a conjunct that is stated
at all, covers one that contains no other stated conjunct. -/
theorem fits_merged_type_iff {r : Registry ω} {w w' : ω} (hb : r.build w = (.ok b, w'))
    (hid : (b.types.lookup id).isSome = true) (s : State ω) (q : ElementType) :
    ∃ type, b.typeOf? s id = some type ∧
      (type.fits q = true ↔ ∃ c, b.Kept id c ∧ q.covers c = true) ∧
      (type.fits q = true → ∃ t, b.Declares id t ∧ t.fits q = true) ∧
      ((type.fits q = true ↔ ∃ t, b.Declares id t ∧ t.fits q = true) ↔
        ((∃ c, b.Stated id c ∧ q.covers c = true) → ∃ c, b.Kept id c ∧ q.covers c = true)) := by
  obtain ⟨type, hlookup, hkept⟩ := exists_merged_type (types_of_build hb) hid
  have hfits : type.fits q = true ↔ ∃ c, b.Kept id c ∧ q.covers c = true := by
    simp only [TypeSet.fits_iff, hkept]
  have hkeptStated : (∃ c, b.Kept id c ∧ q.covers c = true) → ∃ c, b.Stated id c ∧ q.covers c = true := by
    rintro ⟨c, hc, hq⟩
    exact ⟨c, hc.1, hq⟩
  refine ⟨type, typeOf?_of_lookup hlookup s, hfits, ?_, ?_⟩
  · rw [hfits, exists_declared_fits_iff]
    exact hkeptStated
  · rw [hfits, exists_declared_fits_iff]
    exact ⟨fun h => h.2, fun h => ⟨hkeptStated, h⟩⟩

/-! ### A declaration that is lost -/

/-- A kind and one more attribute. -/
def narrowType : ElementType := .ofPredicates [⟨"Kind", "a"⟩, ⟨"X", "1"⟩]

/-- One provider knows of an element its kind and an attribute, another one only its kind; and there is a source of
values for elements with the attribute. -/
def twoProviders : Registry Unit where
  roots := [⟨narrowType, .constant [⟨"e", narrowType⟩]⟩, ⟨.ofPredicate "Kind" "a", .constant [⟨"e", .ofPredicate "Kind" "a"⟩]⟩]
  attributes := [⟨.ofPredicate "X" "1", "n", fun _ => .constant (some "v")⟩]

/-- What the two providers come to. -/
def twoProvidersBase : FactBase Unit where
  slots := [⟨narrowType, [⟨"e", narrowType⟩]⟩, ⟨.ofPredicate "Kind" "a", [⟨"e", .ofPredicate "Kind" "a"⟩]⟩]
  types := [("e", .ofPredicate "Kind" "a")]
  attributes := twoProviders.attributes
  links := []

theorem build_twoProviders : twoProviders.build () = (.ok twoProvidersBase, ()) := by
  cbv

/-- The slot of the narrower type still has the element under it, but the element no longer fits the attribute that only
this type requires, and its value is not found. -/
theorem narrower_declaration_lost :
    twoProviders.build () = (.ok twoProvidersBase, ()) ∧
      twoProvidersBase.Declares "e" narrowType ∧ narrowType.fits (.ofPredicate "X" "1") = true ∧
      twoProvidersBase.typeOf? (.fresh ()) "e" = some (.ofPredicate "Kind" "a") ∧
      TypeSet.fits (.ofPredicate "Kind" "a") (.ofPredicate "X" "1") = false ∧
      (twoProvidersBase.resolve? "n" "e" (.fresh ())).1 = .ok none := by
  have htype : twoProvidersBase.typeOf? (.fresh ()) "e" = some (.ofPredicate "Kind" "a") := by decide +kernel
  have hfits : TypeSet.fits (.ofPredicate "Kind" "a") (.ofPredicate "X" "1") = false := by decide +kernel
  have hvalue : firstValue "e" (.ofPredicate "Kind" "a")
      (twoProvidersBase.attributes.filter fun r => r.name = "n") () = (.ok none, ()) := by
    have hsources : (twoProvidersBase.attributes.filter fun r => r.name = "n") = twoProviders.attributes := rfl
    rw [hsources, twoProviders, firstValue, hfits, if_neg Bool.false_ne_true]
    rfl
  refine ⟨build_twoProviders, ?_, by decide +kernel, htype, hfits, ?_⟩
  · exact ⟨_, List.mem_cons_self, _, List.mem_cons_self, rfl, rfl⟩
  · rw [resolve?, htype]
    simp only [State.fresh, List.lookup_nil, hvalue]

/-- The element of the two providers fits what covers its kind, and nothing else. -/
theorem fits_merged_type_iff_twoProviders :
    twoProviders.build () = (.ok twoProvidersBase, ()) ∧ (twoProvidersBase.types.lookup "e").isSome = true ∧
      ∃ type, twoProvidersBase.typeOf? (.fresh ()) "e" = some type ∧
        (type.fits (.ofPredicate "X" "1") = true ↔
          ∃ c, twoProvidersBase.Kept "e" c ∧ TypeSet.covers (.ofPredicate "X" "1") c = true) := by
  have hid : (twoProvidersBase.types.lookup "e").isSome = true := rfl
  obtain ⟨type, ht, hfits, -⟩ := fits_merged_type_iff build_twoProviders hid (.fresh ()) (.ofPredicate "X" "1")
  exact ⟨build_twoProviders, hid, type, ht, hfits⟩

end FactBase

end ArchFlow
