import ArchFlow.Catalog.Types
import ArchFlow.Proofs.TypeSet.NormalForm

/-!
# Types of kinds

The type of a kind has a single conjunct, which requires that kind and nothing else. Types of different kinds have
nothing in common, so a type that is made of kinds fits a kind exactly if the kind is among them.

* `TypeSet.disjuncts_ofKind`: the conjunct of a kind.
* `TypeSet.fits_ofKind_iff`: the kinds that a type made of kinds fits.
* `TypeSet.covers_ofKinds_iff`: what is within one of several kinds.
-/

namespace ArchFlow

/-- The conjunct that requires a kind. -/
def kindConjunct (kind : String) : Conjunct := .singleton ⟨Attribute.kind, kind⟩

theorem kindConjunct_subset_iff {j k : String} : (kindConjunct j).subset (kindConjunct k) = true ↔ j = k := by
  simp [SortedSet.subset_iff, kindConjunct]

theorem kindConjunct_injective {j k : String} (h : kindConjunct j = kindConjunct k) : j = k :=
  kindConjunct_subset_iff.1 (h ▸ SortedSet.subset_refl _)

namespace TypeSet

/-- The type of a kind has a single conjunct. -/
theorem disjuncts_ofKind (kind : String) : (ofKind kind).disjuncts = .singleton (kindConjunct kind) := by
  have hlist : SortedSet.ofList [(⟨Attribute.kind, kind⟩ : Predicate)] = kindConjunct kind :=
    SortedSet.ext_mem fun p => by simp [kindConjunct]
  have hsatisfiable : (kindConjunct kind).Satisfiable := List.pairwise_singleton ..
  refine SortedSet.ext_mem fun c => ?_
  rw [ofKind, ofPredicate, ofPredicates, hlist, mem_ofConjuncts, SortedSet.mem_singleton]
  constructor
  · rintro ⟨hc, -⟩
    exact List.mem_singleton.1 hc
  · rintro rfl
    exact ⟨List.mem_singleton_self _, hsatisfiable, fun d hd _ _ => List.mem_singleton.1 hd⟩

theorem mem_ofKind {kind : String} {c : Conjunct} : c ∈ (ofKind kind).disjuncts ↔ c = kindConjunct kind := by
  rw [disjuncts_ofKind, SortedSet.mem_singleton]

theorem ofKind_injective {j k : String} (h : ofKind j = ofKind k) : j = k :=
  kindConjunct_injective (mem_ofKind.1 (h ▸ mem_ofKind.2 rfl))

/-- What a kind requires of the attribute for kinds is the kind. -/
theorem requiredValue?_ofKind (kind : String) : (ofKind kind).requiredValue? Attribute.kind = some kind := by
  have hlist : (ofKind kind).disjuncts.toList = [kindConjunct kind] := by rw [disjuncts_ofKind]; rfl
  simp [requiredValue?, hlist, Conjunct.value?, kindConjunct, SortedSet.singleton]

/-- A kind covers the conjuncts that require it. -/
theorem covers_ofKind_iff {kind : String} {c : Conjunct} :
    (ofKind kind).covers c = true ↔ (⟨Attribute.kind, kind⟩ : Predicate) ∈ c := by
  simp [covers_iff, mem_ofKind, SortedSet.subset_iff, kindConjunct]

/-- A type that is made of kinds fits those and no others. -/
theorem fits_ofKind_iff {a : TypeSet} (h : ∀ c ∈ a.disjuncts, ∃ j, c = kindConjunct j) {kind : String} :
    a.fits (ofKind kind) = true ↔ kindConjunct kind ∈ a.disjuncts := by
  simp only [fits_iff, covers_iff, mem_ofKind]
  constructor
  · rintro ⟨c, hc, d, rfl, hsub⟩
    obtain ⟨j, rfl⟩ := h c hc
    exact kindConjunct_subset_iff.1 hsub ▸ hc
  · intro hc
    exact ⟨_, hc, _, rfl, SortedSet.subset_refl _⟩

/-! ## Several kinds -/

/-- The type of several kinds. -/
def ofKinds (kinds : List String) : TypeSet := kinds.foldl (fun a kind => a.union (ofKind kind)) empty

/-- Joining kinds to a type, one after the other, adds what they cover. -/
theorem covers_foldl_ofKind (kinds : List String) {c : Conjunct} :
    ∀ a : TypeSet, (kinds.foldl (fun a kind => a.union (ofKind kind)) a).covers c = true ↔
      a.covers c = true ∨ ∃ kind ∈ kinds, (⟨Attribute.kind, kind⟩ : Predicate) ∈ c := by
  induction kinds with
  | nil => intro a; simp
  | cons kind kinds ih =>
    intro a
    rw [List.foldl_cons, ih, covers_union, covers_ofKind_iff, List.exists_mem_cons_iff, or_assoc]

/-- Several kinds cover the conjuncts that require one of them. -/
theorem covers_ofKinds_iff {kinds : List String} {c : Conjunct} :
    (ofKinds kinds).covers c = true ↔ ∃ kind ∈ kinds, (⟨Attribute.kind, kind⟩ : Predicate) ∈ c :=
  (covers_foldl_ofKind kinds empty).trans (or_iff_right not_covers_empty)

end TypeSet

end ArchFlow
