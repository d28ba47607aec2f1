import ArchFlow.TypeSet.Basic
import Mathlib.Data.List.Pairwise
import Mathlib.Data.List.Perm.Subperm

/-!
# Normal forms of types

A type keeps, of the conjuncts it is made from, the satisfiable ones that contain no other. What it drops contains
something it keeps, so two lists of conjuncts make the same type as soon as each conjunct of either contains one of the
other.

* `Conjunct.satisfiable_iff_singleValued`: a conjunct is satisfiable iff it gives no key two values.
* `TypeSet.exists_kept`: every satisfiable conjunct contains one that is kept.
* `TypeSet.ofConjuncts_congr`: lists that cover each other make the same type.
* `TypeSet.union_ofConjuncts`: joining types is making one type of all their conjuncts.
-/

namespace ArchFlow

/-! ## Inclusion -/

namespace SortedSet

variable {α : Type} [Ord α]

theorem nodup_toList [Std.TransOrd α] (s : SortedSet α) : s.toList.Nodup :=
  s.increasing.imp fun {a b} h e => by subst e; simp at h

variable [DecidableEq α]

theorem subset_refl (s : SortedSet α) : s.subset s = true := subset_iff.2 fun _ h => h

theorem subset_trans {s t u : SortedSet α} (h₁ : s.subset t = true) (h₂ : t.subset u = true) : s.subset u = true :=
  subset_iff.2 fun a ha => subset_iff.1 h₂ a (subset_iff.1 h₁ a ha)

theorem subset_antisymm [Std.TransOrd α] {s t : SortedSet α} (h₁ : s.subset t = true) (h₂ : t.subset s = true) :
    s = t :=
  ext_mem fun a => ⟨subset_iff.1 h₁ a, subset_iff.1 h₂ a⟩

/-- A proper subset has fewer members. -/
theorem size_lt_of_subset [Std.TransOrd α] {s t : SortedSet α} (h : s.subset t = true) (hne : s ≠ t) :
    s.size < t.size := by
  have hsub : List.Subperm s.toList t.toList :=
    List.subperm_of_subset s.nodup_toList fun a ha => subset_iff.1 h a ha
  refine Nat.lt_of_le_of_ne hsub.length_le fun he => hne (ext_mem fun a => ?_)
  exact (hsub.perm_of_length_le (Nat.le_of_eq he.symm)).mem_iff

/-- Every set of a list contains a minimal one of the list. -/
theorem exists_minimal_subset [Std.TransOrd α] {l : List (SortedSet α)} {s : SortedSet α} (hs : s ∈ l) :
    ∃ t ∈ l, t.subset s = true ∧ ∀ u ∈ l, u.subset t = true → u = t := by
  induction hn : s.size using Nat.strongRecOn generalizing s with
  | _ n ih =>
    by_cases hmin : ∀ u ∈ l, u.subset s = true → u = s
    · exact ⟨s, hs, s.subset_refl, hmin⟩
    · obtain ⟨u, hu, hus, hne⟩ : ∃ u ∈ l, u.subset s = true ∧ u ≠ s := by
        simpa using hmin
      obtain ⟨t, ht, htu, htmin⟩ := ih u.size (hn ▸ size_lt_of_subset hus hne) hu rfl
      exact ⟨t, ht, subset_trans htu hus, htmin⟩

end SortedSet

/-! ## Contradictions -/

namespace Conjunct

/-- All values of one key are the same. -/
def SingleValued (c : Conjunct) : Prop := ∀ p ∈ c, ∀ q ∈ c, p.key = q.key → p.value = q.value

/-- Predicates are different, so no key has two values iff no two of them have the same key. -/
theorem satisfiable_iff_singleValued {c : Conjunct} : c.Satisfiable ↔ c.SingleValued := by
  constructor
  · intro h p hp q hq hkey
    have : Std.Symm fun p q : Predicate => p.key ≠ q.key := ⟨fun _ _ => Ne.symm⟩
    by_cases hpq : p = q
    · rw [hpq]
    · exact absurd hkey (h.forall hp hq hpq)
  · intro h
    refine c.increasing.imp_of_mem fun {p q} hp hq hlt hkey => ?_
    obtain rfl : p = q := by
      cases p
      cases q
      exact Predicate.mk.injEq .. ▸ ⟨hkey, h _ hp _ hq hkey⟩
    simp at hlt

end Conjunct

namespace TypeSet

variable {cs ds : List Conjunct} {c : Conjunct}

/-! ## What is kept -/

/-- Every satisfiable conjunct contains one that is kept. -/
theorem exists_kept (hc : c ∈ cs) (hs : c.Satisfiable) : ∃ d ∈ (ofConjuncts cs).disjuncts, d.subset c = true := by
  have hmem : c ∈ cs.filter fun d => decide d.Satisfiable := List.mem_filter.2 ⟨hc, decide_eq_true hs⟩
  obtain ⟨d, hd, hdc, hmin⟩ := SortedSet.exists_minimal_subset hmem
  obtain ⟨hdcs, hds⟩ := List.mem_filter.1 hd
  refine ⟨d, mem_ofConjuncts.2 ⟨hdcs, of_decide_eq_true hds, fun e he hes hed => ?_⟩, hdc⟩
  exact hmin e (List.mem_filter.2 ⟨he, decide_eq_true hes⟩) hed

/-- Each satisfiable conjunct of `cs` contains one of `ds`. -/
def CoveredBy (cs ds : List Conjunct) : Prop :=
  ∀ c ∈ cs, c.Satisfiable → ∃ d ∈ ds, d.Satisfiable ∧ d.subset c = true

theorem mem_ofConjuncts_of_coveredBy (h₁ : CoveredBy cs ds) (h₂ : CoveredBy ds cs)
    (hc : c ∈ (ofConjuncts cs).disjuncts) : c ∈ (ofConjuncts ds).disjuncts := by
  obtain ⟨hmem, hs, hmin⟩ := mem_ofConjuncts.1 hc
  -- what lies below `c` in the other list has something of this list below it, which can only be `c`
  have hbelow : ∀ d ∈ ds, d.Satisfiable → d.subset c = true → d = c := by
    intro d hd hds hdc
    obtain ⟨e, he, hes, hed⟩ := h₂ d hd hds
    cases hmin e he hes (SortedSet.subset_trans hed hdc)
    exact SortedSet.subset_antisymm hdc hed
  obtain ⟨d, hd, hds, hdc⟩ := h₁ c hmem hs
  cases hbelow d hd hds hdc
  exact mem_ofConjuncts.2 ⟨hd, hs, hbelow⟩

/-- Lists of conjuncts that cover each other make the same type. -/
theorem ofConjuncts_congr (h₁ : CoveredBy cs ds) (h₂ : CoveredBy ds cs) : ofConjuncts cs = ofConjuncts ds :=
  ext_disjuncts <| SortedSet.ext_mem fun _ =>
    ⟨mem_ofConjuncts_of_coveredBy h₁ h₂, mem_ofConjuncts_of_coveredBy h₂ h₁⟩

/-! ## Unions -/

theorem coveredBy_of_subset (h : ∀ c ∈ cs, c ∈ ds) : CoveredBy cs ds := fun c hc hs =>
  ⟨c, h c hc, hs, c.subset_refl⟩

theorem ofConjuncts_toList (a : TypeSet) : ofConjuncts a.disjuncts.toList = a :=
  ext_disjuncts <| SortedSet.ext_mem fun c => by
    rw [mem_ofConjuncts]
    exact ⟨And.left, fun hc => ⟨hc, a.satisfiable c hc, fun d hd _ h => a.antichain d hd c hc h⟩⟩

/-- Joining types is making one type of all their conjuncts. -/
theorem union_ofConjuncts (cs ds : List Conjunct) : (ofConjuncts cs).union (ofConjuncts ds) = ofConjuncts (cs ++ ds) := by
  refine ofConjuncts_congr (coveredBy_of_subset fun c hc => ?_) fun c hc hs => ?_
  · exact (List.mem_append.1 hc).elim (fun h => List.mem_append_left _ (mem_ofConjuncts.1 h).1)
      fun h => List.mem_append_right _ (mem_ofConjuncts.1 h).1
  · rcases List.mem_append.1 hc with h | h
    · obtain ⟨d, hd, hdc⟩ := exists_kept h hs
      exact ⟨d, List.mem_append_left _ hd, (ofConjuncts cs).satisfiable d hd, hdc⟩
    · obtain ⟨d, hd, hdc⟩ := exists_kept h hs
      exact ⟨d, List.mem_append_right _ hd, (ofConjuncts ds).satisfiable d hd, hdc⟩

theorem ofConjuncts_union (cs : List Conjunct) (a : TypeSet) :
    (ofConjuncts cs).union a = ofConjuncts (cs ++ a.disjuncts.toList) := by
  rw [← union_ofConjuncts, ofConjuncts_toList]

/-- Joining a type with itself changes nothing. -/
theorem union_self (a : TypeSet) : a.union a = a := by
  refine (ofConjuncts_congr ?_ ?_).trans (ofConjuncts_toList a)
  · exact coveredBy_of_subset fun c hc => (List.mem_append.1 hc).elim id id
  · exact coveredBy_of_subset fun c hc => List.mem_append_left _ hc

/-! ## Fitting -/

theorem covers_iff {a : TypeSet} : a.covers c = true ↔ ∃ d ∈ a.disjuncts, d.subset c = true := by
  simp [covers, SortedSet.mem_def]

theorem not_covers_empty : ¬empty.covers c = true := Bool.false_ne_true

/-- A union covers what either type covers. -/
theorem covers_union {a b : TypeSet} : (a.union b).covers c = true ↔ a.covers c = true ∨ b.covers c = true := by
  simp only [covers_iff]
  constructor
  · rintro ⟨d, hd, hdc⟩
    rcases List.mem_append.1 (mem_ofConjuncts.1 hd).1 with hd | hd
    · exact .inl ⟨d, hd, hdc⟩
    · exact .inr ⟨d, hd, hdc⟩
  · have hkept : ∀ d ∈ a.disjuncts.toList ++ b.disjuncts.toList, d.Satisfiable → d.subset c = true →
        ∃ e ∈ (a.union b).disjuncts, e.subset c = true := fun d hd hs hdc => by
      obtain ⟨e, he, hed⟩ := exists_kept hd hs
      exact ⟨e, he, SortedSet.subset_trans hed hdc⟩
    rintro (⟨d, hd, hdc⟩ | ⟨d, hd, hdc⟩)
    · exact hkept d (List.mem_append_left _ hd) (a.satisfiable d hd) hdc
    · exact hkept d (List.mem_append_right _ hd) (b.satisfiable d hd) hdc

/-- A type fits another one iff the other covers one of its conjuncts. -/
theorem fits_iff {a b : TypeSet} : a.fits b = true ↔ ∃ c ∈ a.disjuncts, b.covers c = true := by
  simp [fits, SortedSet.mem_def]

end TypeSet

end ArchFlow
