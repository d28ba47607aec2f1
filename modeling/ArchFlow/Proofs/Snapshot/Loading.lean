import ArchFlow.Proofs.FactBase.Merging
import ArchFlow.Proofs.FactBase.Slots
import ArchFlow.Proofs.FactBase.Steady
import ArchFlow.Proofs.Snapshot.References
import ArchFlow.Proofs.TypeSet.Kinds
import ArchFlow.Snapshot.Registry

/-!
# The fact base of snapshots

Snapshots are loaded without failing, whatever they state. Every element is known that a fact is about, its type is made
of the kinds that facts give it, and the sources of the snapshots answer the same all the time.

* `build_snapshots`: the fact base that snapshots come to.
* `exists_type_of_hasKind`: the type of an element.
* `snapshotBase_steady`: the sources are steady.
-/

namespace ArchFlow

variable {ω : Type} {snapshots : List Snapshot}

/-! ## Registries of several providers -/

namespace Registry

theorem foldl_append (rs : List (Registry ω)) :
    ∀ r, rs.foldl append r =
      ⟨r.roots ++ rs.flatMap (·.roots), r.attributes ++ rs.flatMap (·.attributes), r.links ++ rs.flatMap (·.links)⟩ := by
  induction rs with
  | nil => intro r; simp
  | cons s rs ih => intro r; rw [List.foldl_cons, ih]; simp [append]

theorem join_eq (rs : List (Registry ω)) :
    join rs = ⟨rs.flatMap (·.roots), rs.flatMap (·.attributes), rs.flatMap (·.links)⟩ :=
  foldl_append rs {}

end Registry

/-! ## Loading -/

/-- The kinds of a snapshot with their elements. -/
def Snapshot.rows (s : Snapshot) : List (ElementType × List Element) :=
  (s.identified.map (·.fact.kind)).eraseDups.map fun kind => (.ofKind kind, elementsOfKind s.identified kind)

theorem Snapshot.registry_roots (s : Snapshot) : (s.registry : Registry ω).roots = constantSources s.rows := by
  simp [registry, rootSources, constantSources, rows]

/-- The fact base that snapshots come to. -/
def snapshotBase (snapshots : List Snapshot) : FactBase ω where
  slots := slotsOf (snapshots.flatMap Snapshot.rows)
  types := typeTable (slotsOf (snapshots.flatMap Snapshot.rows))
  attributes := snapshots.flatMap fun s => attributeSources s.identified
  links := snapshots.flatMap fun s => linkSources s.resolvedLinks

theorem mem_elementsOfKind {facts : List IdentifiedFact} {kind : String} {e : Element} :
    e ∈ elementsOfKind facts kind ↔ ∃ f ∈ facts, f.fact.kind = kind ∧ e = f.element := by
  simp [elementsOfKind, and_assoc, eq_comm]

theorem uniform_rows (snapshots : List Snapshot) : Uniform (snapshots.flatMap Snapshot.rows) := by
  intro row hrow e he
  obtain ⟨s, -, hrow⟩ := List.mem_flatMap.1 hrow
  obtain ⟨kind, -, rfl⟩ := List.mem_map.1 hrow
  obtain ⟨f, -, rfl, rfl⟩ := mem_elementsOfKind.1 he
  rfl

/-- Loading snapshots never fails. -/
theorem build_snapshots (snapshots : List Snapshot) (w : ω) :
    (Registry.join (snapshots.map Snapshot.registry)).build w = (.ok (snapshotBase snapshots), w) := by
  have hroots : (Registry.join (snapshots.map Snapshot.registry) : Registry ω).roots =
      constantSources (snapshots.flatMap Snapshot.rows) := by
    rw [Registry.join_eq, List.flatMap_map, constantSources, List.map_flatMap]
    simp only [Snapshot.registry_roots]
    rfl
  have henumerate : enumerate (constantSources (snapshots.flatMap Snapshot.rows)) [] w =
      (.ok (slotsOf (snapshots.flatMap Snapshot.rows)), w) :=
    enumerate_constant (uniform_rows snapshots) w
  rw [Registry.build, hroots, henumerate, Registry.join_eq]
  simp only [List.flatMap_map]
  rfl

/-! ## Kinds of elements -/

/-- Some fact of the snapshots is about the id as an element of the kind. -/
def HasKind (snapshots : List Snapshot) (id : ElementId) (kind : String) : Prop :=
  ∃ s ∈ snapshots, ∃ f ∈ s.elements, f.elementId = id ∧ f.kind = kind

theorem hasKind_of_identified {s : Snapshot} (hs : s ∈ snapshots) {f : IdentifiedFact} (hf : f ∈ s.identified) :
    HasKind snapshots f.id f.fact.kind :=
  ⟨s, hs, f.fact, (Snapshot.mem_identified.1 hf).1, (Snapshot.mem_identified.1 hf).2.symm, rfl⟩

theorem mem_rows {s : Snapshot} {e : Element} : (∃ row ∈ s.rows, e ∈ row.2) ↔ ∃ f ∈ s.identified, e = f.element := by
  constructor
  · rintro ⟨row, hrow, he⟩
    obtain ⟨kind, -, rfl⟩ := List.mem_map.1 hrow
    obtain ⟨f, hf, -, rfl⟩ := mem_elementsOfKind.1 he
    exact ⟨f, hf, rfl⟩
  · rintro ⟨f, hf, rfl⟩
    refine ⟨_, List.mem_map_of_mem (List.mem_eraseDups.2 (List.mem_map_of_mem hf)), ?_⟩
    exact mem_elementsOfKind.2 ⟨f, hf, rfl, rfl⟩

/-- An id is declared under the kinds that facts give it. -/
theorem declares_snapshotBase {id : ElementId} {type : ElementType} :
    (snapshotBase snapshots : FactBase ω).Declares id type ↔ ∃ kind, HasKind snapshots id kind ∧ type = .ofKind kind := by
  constructor
  · rintro ⟨slot, hslot, e, he, rfl, rfl⟩
    obtain ⟨row, hrow, he⟩ := mem_slotsOf.1 ⟨slot, hslot, he⟩
    obtain ⟨s, hs, hrow⟩ := List.mem_flatMap.1 hrow
    obtain ⟨f, hf, rfl⟩ := mem_rows.1 ⟨row, hrow, he⟩
    exact ⟨f.fact.kind, hasKind_of_identified hs hf, rfl⟩
  · rintro ⟨kind, ⟨s, hs, f, hf, rfl, rfl⟩, rfl⟩
    have hidentified : (⟨f.elementId, f⟩ : IdentifiedFact) ∈ s.identified := Snapshot.mem_identified.2 ⟨hf, rfl⟩
    obtain ⟨row, hrow, he⟩ := mem_rows.2 ⟨_, hidentified, rfl⟩
    obtain ⟨slot, hslot, he⟩ := mem_slotsOf.2 ⟨row, List.mem_flatMap.2 ⟨s, hs, hrow⟩, he⟩
    exact ⟨slot, hslot, _, he, rfl, rfl⟩

/-- The registered ids are those that facts are about. -/
theorem registered_snapshotBase {id : ElementId} :
    ((snapshotBase snapshots : FactBase ω).types.lookup id).isSome = true ↔ ∃ kind, HasKind snapshots id kind := by
  rw [FactBase.registered_iff rfl]
  simp only [declares_snapshotBase]
  constructor
  · rintro ⟨_, kind, hkind, -⟩
    exact ⟨kind, hkind⟩
  · rintro ⟨kind, hkind⟩
    exact ⟨_, kind, hkind, rfl⟩

theorem stated_snapshotBase {id : ElementId} {c : Conjunct} :
    (snapshotBase snapshots : FactBase ω).Stated id c ↔ ∃ kind, HasKind snapshots id kind ∧ c = kindConjunct kind := by
  simp only [FactBase.Stated, declares_snapshotBase]
  constructor
  · rintro ⟨_, ⟨kind, hkind, rfl⟩, hc⟩
    exact ⟨kind, hkind, TypeSet.mem_ofKind.1 hc⟩
  · rintro ⟨kind, hkind, rfl⟩
    exact ⟨_, ⟨kind, hkind, rfl⟩, TypeSet.mem_ofKind.2 rfl⟩

/-- Kinds do not absorb each other. -/
theorem kept_snapshotBase {id : ElementId} {c : Conjunct} :
    (snapshotBase snapshots : FactBase ω).Kept id c ↔ ∃ kind, HasKind snapshots id kind ∧ c = kindConjunct kind := by
  rw [FactBase.Kept, stated_snapshotBase]
  constructor
  · exact fun h => h.1
  · rintro ⟨kind, hkind, rfl⟩
    refine ⟨⟨kind, hkind, rfl⟩, fun d hd hsub => ?_⟩
    obtain ⟨j, -, rfl⟩ := stated_snapshotBase.1 hd
    rw [kindConjunct_subset_iff.1 hsub]

/-- An element fits the kinds that facts give it, and no others. -/
theorem exists_type_of_hasKind {id : ElementId} {kind : String} (h : HasKind snapshots id kind) (s : State ω) :
    ∃ type, (snapshotBase snapshots).typeOf? s id = some type ∧
      ∀ k, type.fits (.ofKind k) = true ↔ HasKind snapshots id k := by
  have hid : ((snapshotBase snapshots : FactBase ω).types.lookup id).isSome = true :=
    registered_snapshotBase.2 ⟨kind, h⟩
  obtain ⟨type, hlookup, hkept⟩ := FactBase.exists_merged_type rfl hid
  simp only [kept_snapshotBase] at hkept
  refine ⟨type, FactBase.typeOf?_of_lookup hlookup s, fun k => ?_⟩
  rw [TypeSet.fits_ofKind_iff fun c hc => ((hkept c).1 hc).imp fun _ hj => hj.2, hkept]
  constructor
  · rintro ⟨j, hj, hjk⟩
    rwa [kindConjunct_injective hjk]
  · exact fun hk => ⟨k, hk, rfl⟩

/-! ## Steady sources -/

/-- The sources of snapshots answer the same all the time, and their links lead to elements that facts are about. -/
theorem snapshotBase_steady (snapshots : List Snapshot) : (snapshotBase snapshots : FactBase ω).Steady where
  attributes r hr id := by
    obtain ⟨s, -, hr⟩ := List.mem_flatMap.1 hr
    obtain ⟨kind, -, hr⟩ := List.mem_flatMap.1 hr
    obtain ⟨name, -, rfl⟩ := List.mem_map.1 hr
    exact ⟨_, fun _ => rfl⟩
  links r hr id := by
    obtain ⟨s, -, hr⟩ := List.mem_flatMap.1 hr
    obtain ⟨group, -, rfl⟩ := List.mem_map.1 hr
    exact ⟨_, fun _ => rfl⟩
  closed r hr id w es hes e he := by
    obtain ⟨s, hs, hr⟩ := List.mem_flatMap.1 hr
    obtain ⟨group, -, rfl⟩ := List.mem_map.1 hr
    cases hes
    obtain ⟨l, hl, rfl⟩ := List.mem_map.1 he
    obtain ⟨_, -, -, htarget, -⟩ := Snapshot.mem_resolvedLinks.1 (List.mem_filter.1 hl).1
    exact registered_snapshotBase.2 ⟨_, hasKind_of_identified hs (Snapshot.mem_of_resolve? htarget)⟩

end ArchFlow
