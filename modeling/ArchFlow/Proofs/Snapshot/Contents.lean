import ArchFlow.Proofs.FactBase.Freezing
import ArchFlow.Proofs.Snapshot.Loading
import ArchFlow.Settings.Basic

/-!
# What snapshots come to

The facts of a snapshot are grouped by kind, and the groups of several snapshots for one kind are put together in its
slot. That comes to the same as grouping all facts in a row: slots are in the order in which kinds first occur, and the
elements of a slot in the order in which their ids first occur under its kind.

* `slots_snapshotBase`: the slots of snapshots, read off their facts in a row.
* `lookup_snapshotBase`: the type of an id is the union of the kinds that facts give it.
* `ids_rootsOf_snapshotBase`: the elements that flows start from, in order.
-/

namespace ArchFlow

variable {ω : Type} {snapshots : List Snapshot}

/-! ## Facts in a row -/

/-- The facts about elements that snapshots state, one snapshot after the other. -/
def factsOf (snapshots : List Snapshot) : List ElementFact := snapshots.flatMap (·.elements)

/-- The ids of the facts of a kind. -/
def idsOfKind (facts : List ElementFact) (kind : String) : List ElementId :=
  (facts.filter (·.kind = kind)).map (·.elementId)

/-- The kinds of the facts about an id. -/
def kindsOfId (facts : List ElementFact) (id : ElementId) : List String :=
  (facts.filter (·.elementId = id)).map (·.kind)

/-- The kinds of facts, in the order in which they first occur. -/
def kindsOf (facts : List ElementFact) : List String := (facts.map (·.kind)).eraseDups

section Facts

variable {facts : List ElementFact} {id : ElementId} {kind : String}

theorem mem_idsOfKind : id ∈ idsOfKind facts kind ↔ ∃ f ∈ facts, f.elementId = id ∧ f.kind = kind := by
  simp only [idsOfKind, List.mem_map, List.mem_filter, decide_eq_true_eq]
  exact exists_congr fun f => ⟨fun h => ⟨h.1.1, h.2, h.1.2⟩, fun h => ⟨⟨h.1, h.2.2⟩, h.2.1⟩⟩

theorem mem_kindsOfId : kind ∈ kindsOfId facts id ↔ ∃ f ∈ facts, f.elementId = id ∧ f.kind = kind := by
  simp [kindsOfId, and_assoc]

theorem mem_kindsOf : kind ∈ kindsOf facts ↔ ∃ f ∈ facts, f.kind = kind := by
  simp [kindsOf]

theorem hasKind_iff : HasKind snapshots id kind ↔ ∃ f ∈ factsOf snapshots, f.elementId = id ∧ f.kind = kind := by
  simp only [HasKind, factsOf, List.mem_flatMap]
  constructor
  · rintro ⟨s, hs, f, hf, h⟩
    exact ⟨f, ⟨s, hs, hf⟩, h⟩
  · rintro ⟨f, ⟨s, hs, hf⟩, h⟩
    exact ⟨s, hs, f, hf, h⟩

theorem exists_hasKind_iff : (∃ kind, HasKind snapshots id kind) ↔ ∃ f ∈ factsOf snapshots, f.elementId = id := by
  simp only [hasKind_iff]
  constructor
  · rintro ⟨_, f, hf, hid, -⟩
    exact ⟨f, hf, hid⟩
  · rintro ⟨f, hf, hid⟩
    exact ⟨f.kind, f, hf, hid, rfl⟩

end Facts

/-! ## Slots -/

theorem elementsOfKind_identified (s : Snapshot) (kind : String) :
    elementsOfKind s.identified kind = (idsOfKind s.elements kind).map (⟨·, .ofKind kind⟩) := by
  rw [elementsOfKind, Snapshot.identified, List.filter_map, List.map_map, idsOfKind, List.map_map]
  refine List.map_congr_left fun f hf => ?_
  have hkind : f.kind = kind := of_decide_eq_true (List.mem_filter.1 hf).2
  rw [← hkind]
  rfl

/-- A snapshot has one row for a kind of its elements, and none for another kind. -/
theorem rowsOf_rows (s : Snapshot) (kind : String) :
    rowsOf s.rows (.ofKind kind) = (idsOfKind s.elements kind).map (⟨·, .ofKind kind⟩) := by
  let kinds := (s.identified.map (·.fact.kind)).eraseDups
  have hrows : s.rows.filter (·.1 = .ofKind kind) =
      (kinds.filter (· = kind)).map fun k => (.ofKind k, elementsOfKind s.identified k) := by
    rw [Snapshot.rows, List.filter_map]
    refine congrArg _ (List.filter_congr fun k _ => decide_eq_decide.2 ?_)
    exact ⟨TypeSet.ofKind_injective, congrArg TypeSet.ofKind⟩
  rw [rowsOf, hrows, List.flatMap_map, List.filter_eq, (nodup_eraseDups _).count, ← elementsOfKind_identified]
  split
  · exact List.flatMap_singleton _ _
  · next hkind =>
    symm
    refine List.eq_nil_iff_forall_not_mem.2 fun e he => hkind ?_
    obtain ⟨f, hf, hfkind, -⟩ := mem_elementsOfKind.1 he
    exact List.mem_eraseDups.2 (List.mem_map.2 ⟨f, hf, hfkind⟩)

/-- The rows of all snapshots for a kind have the ids of all facts of the kind. -/
theorem rowsOf_snapshots (snapshots : List Snapshot) (kind : String) :
    rowsOf (snapshots.flatMap Snapshot.rows) (.ofKind kind) =
      (idsOfKind (factsOf snapshots) kind).map (⟨·, .ofKind kind⟩) := by
  have hids : idsOfKind (factsOf snapshots) kind = snapshots.flatMap fun s => idsOfKind s.elements kind := by
    rw [idsOfKind, factsOf, List.filter_flatMap, List.map_flatMap]
    rfl
  have hrows : rowsOf (snapshots.flatMap Snapshot.rows) (.ofKind kind) =
      snapshots.flatMap fun s => rowsOf s.rows (.ofKind kind) := by
    rw [rowsOf, List.filter_flatMap, List.flatMap_assoc]
    rfl
  rw [hrows, hids, List.map_flatMap]
  exact List.flatMap_congr fun s _ => rowsOf_rows s kind

/-- The kinds of facts may be gathered snapshot by snapshot. -/
theorem kindsOf_factsOf (snapshots : List Snapshot) :
    kindsOf (factsOf snapshots) = appendAllNew [] (snapshots.flatMap fun s => (s.elements.map (·.kind)).eraseDups) := by
  rw [kindsOf, factsOf, List.map_flatMap, ← appendAllNew_nil, appendAllNew_flatMap_eraseDups]

theorem appendAllNew_types_rows (snapshots : List Snapshot) :
    appendAllNew [] ((snapshots.flatMap Snapshot.rows).map (·.1)) = (kindsOf (factsOf snapshots)).map .ofKind := by
  have htypes : (snapshots.flatMap Snapshot.rows).map (·.1) =
      (snapshots.flatMap fun s => (s.elements.map (·.kind)).eraseDups).map .ofKind := by
    rw [List.map_flatMap, List.map_flatMap]
    refine List.flatMap_congr fun s _ => ?_
    rw [Snapshot.rows, List.map_map, Snapshot.identified, List.map_map]
    rfl
  rw [htypes, kindsOf_factsOf]
  exact (map_appendAllNew (fun _ _ => TypeSet.ofKind_injective) [] _).symm

/-- The slots of snapshots: kinds in the order in which they first occur, with the ids that occur under them. -/
theorem slots_snapshotBase :
    (snapshotBase snapshots : FactBase ω).slots = (kindsOf (factsOf snapshots)).map fun kind =>
      ⟨.ofKind kind, (idsOfKind (factsOf snapshots) kind).eraseDups.map (⟨·, .ofKind kind⟩)⟩ := by
  show slotsOf (snapshots.flatMap Snapshot.rows) = _
  rw [slotsOf, appendAllNew_types_rows, shelve, List.map_map]
  refine List.map_congr_left fun kind _ => congrArg (Slot.mk _) ?_
  have hinjective : ∀ ⦃i j : ElementId⦄, (⟨i, .ofKind kind⟩ : Element) = ⟨j, .ofKind kind⟩ → i = j := fun _ _ h =>
    congrArg Element.id h
  rw [rowsOf_snapshots, ← appendAllNew_nil, map_appendAllNew hinjective]
  rfl

/-! ## Types -/

/-- The type of an id is the union of the kinds that facts give it. -/
theorem lookup_snapshotBase (id : ElementId) :
    (snapshotBase snapshots : FactBase ω).types.lookup id =
      TypeSet.joined? ((kindsOfId (factsOf snapshots) id).map .ofKind) := by
  refine (lookup_typeTable _ id).trans (TypeSet.joined?_congr fun type => ?_)
  have hdeclares : (snapshotBase snapshots : FactBase ω).Declares id type ↔
      ∃ kind, HasKind snapshots id kind ∧ type = .ofKind kind := declares_snapshotBase
  rw [FactBase.declares_iff] at hdeclares
  rw [List.mem_map]
  refine hdeclares.trans (exists_congr fun kind => ?_)
  rw [mem_kindsOfId, hasKind_iff, eq_comm (a := type)]

/-- An element fits the kinds that facts give it and no others, where nothing else was met. -/
theorem any_fits_iff {s : State ω} {id : ElementId}
    (h : (snapshotBase snapshots).typeOf? s id = (snapshotBase snapshots : FactBase ω).types.lookup id) (kind : String) :
    ((snapshotBase snapshots).typeOf? s id).any (·.fits (.ofKind kind)) = true ↔ HasKind snapshots id kind := by
  by_cases hid : ∃ k, HasKind snapshots id k
  · obtain ⟨k, hk⟩ := hid
    obtain ⟨type, htype, hfits⟩ := exists_type_of_hasKind hk s
    rw [htype]
    exact hfits kind
  · have hnone : (snapshotBase snapshots : FactBase ω).types.lookup id = none :=
      Option.not_isSome_iff_eq_none.1 fun hsome => hid (registered_snapshotBase.1 hsome)
    rw [h, hnone]
    exact iff_of_false Bool.false_ne_true fun hkind => hid ⟨kind, hkind⟩

/-! ## Roots -/

/-- The elements of a kind are among those that flows start from if the kind is. -/
theorem ofKind_refines_rootType {settings : Settings} {kind : String} :
    (TypeSet.ofKind kind).refines settings.rootType = true ↔ kind ∈ settings.rootKinds := by
  have hcovers : settings.rootType.covers (kindConjunct kind) = true ↔
      ∃ k ∈ settings.rootKinds, (⟨Attribute.kind, k⟩ : Predicate) ∈ kindConjunct kind := TypeSet.covers_ofKinds_iff
  simp only [TypeSet.refines_iff, TypeSet.mem_ofKind, forall_eq, hcovers]
  simp [kindConjunct]

theorem flatMap_ite {α β : Type} (p : α → Prop) [DecidablePred p] (g : α → List β) (as : List α) :
    (as.flatMap fun a => if p a then g a else []) = (as.filter (p ·)).flatMap g := by
  induction as with
  | nil => rfl
  | cons a as ih =>
    rw [List.flatMap_cons, ih]
    by_cases ha : p a <;> simp [ha]

/-- Flows start from the ids of the root kinds: kinds come in the order in which they first occur, and then ids in the
order in which they first occur under a kind. -/
theorem ids_rootsOf_snapshotBase (settings : Settings) :
    ((snapshotBase snapshots : FactBase ω).rootsOf settings.rootType).map (·.id) =
      (((kindsOf (factsOf snapshots)).filter (· ∈ settings.rootKinds)).flatMap
        (idsOfKind (factsOf snapshots))).eraseDups := by
  have hslot : ∀ kind : String,
      (((idsOfKind (factsOf snapshots) kind).eraseDups.map fun id => (⟨id, .ofKind kind⟩ : Element)).filter
          fun e => e.type.refines settings.rootType).map (·.id) =
        if kind ∈ settings.rootKinds then (idsOfKind (factsOf snapshots) kind).eraseDups else [] := by
    intro kind
    have hall : ∀ e ∈ (idsOfKind (factsOf snapshots) kind).eraseDups.map fun id => (⟨id, .ofKind kind⟩ : Element),
        e.type = .ofKind kind := by
      simp
    split
    · next hkind =>
      rw [List.filter_eq_self.2 fun e he => hall e he ▸ ofKind_refines_rootType.2 hkind, List.map_map]
      exact List.map_id _
    · next hkind =>
      rw [List.filter_eq_nil_iff.2 fun e he h => hkind (ofKind_refines_rootType.1 (hall e he ▸ h)), List.map_nil]
  rw [FactBase.rootsOf, map_id_firstById, slots_snapshotBase, List.flatMap_map, List.filter_flatMap, List.map_flatMap,
    List.flatMap_congr fun kind _ => hslot kind, flatMap_ite, ← appendAllNew_nil, appendAllNew_flatMap_eraseDups,
    appendAllNew_nil]

end ArchFlow
