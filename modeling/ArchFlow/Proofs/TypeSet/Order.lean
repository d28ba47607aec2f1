import ArchFlow.Proofs.TypeSet.NormalForm
import Mathlib.Data.List.Induction

/-!
# The order of types

A type is within another one if everything that it describes is described there. Since types are in normal form this is
a partial order, so a list of types has at most one least type.

* `TypeSet.refines_trans`, `TypeSet.refines_antisymm`: inclusion is a partial order.
* `TypeSet.exists_least_append_iff`: when a list that has a least type still has one with one more type at its end.
* `TypeSet.not_narrowing_iff`: the lists whose beginnings all have a least type, by what fails if one has not.
-/

namespace ArchFlow

namespace TypeSet

variable {a b c : TypeSet}

/-! ## Inclusion -/

theorem refines_iff : a.refines b = true ↔ ∀ d ∈ a.disjuncts, b.covers d = true := by
  simp [refines, SortedSet.mem_def]

theorem refines_refl (a : TypeSet) : a.refines a = true :=
  refines_iff.2 fun d hd => covers_iff.2 ⟨d, hd, d.subset_refl⟩

theorem refines_trans (h₁ : a.refines b = true) (h₂ : b.refines c = true) : a.refines c = true := by
  refine refines_iff.2 fun d hd => ?_
  obtain ⟨e, he, hed⟩ := covers_iff.1 (refines_iff.1 h₁ d hd)
  obtain ⟨f, hf, hfe⟩ := covers_iff.1 (refines_iff.1 h₂ e he)
  exact covers_iff.2 ⟨f, hf, SortedSet.subset_trans hfe hed⟩

theorem mem_disjuncts_of_refines (h₁ : a.refines b = true) (h₂ : b.refines a = true) {d : Conjunct}
    (hd : d ∈ a.disjuncts) : d ∈ b.disjuncts := by
  obtain ⟨e, he, hed⟩ := covers_iff.1 (refines_iff.1 h₁ d hd)
  obtain ⟨f, hf, hfe⟩ := covers_iff.1 (refines_iff.1 h₂ e he)
  -- of two conjuncts of one type neither contains the other
  have hfd : f = d := a.antichain f hf d hd (SortedSet.subset_trans hfe hed)
  have hde : d = e := SortedSet.subset_antisymm (hfd ▸ hfe) hed
  exact hde ▸ he

/-- Types that are within each other are equal. -/
theorem refines_antisymm (h₁ : a.refines b = true) (h₂ : b.refines a = true) : a = b :=
  ext_disjuncts <| SortedSet.ext_mem fun _ => ⟨mem_disjuncts_of_refines h₁ h₂, mem_disjuncts_of_refines h₂ h₁⟩

/-! ## Least types -/

/-- A type of the list that is within all of them. -/
def IsLeastOf (a : TypeSet) (ts : List TypeSet) : Prop := a ∈ ts ∧ ∀ t ∈ ts, a.refines t = true

variable {ts us : List TypeSet}

theorem isLeastOf_singleton (a : TypeSet) : a.IsLeastOf [a] :=
  ⟨List.mem_singleton_self a, fun t ht => by rw [List.mem_singleton.1 ht]; exact a.refines_refl⟩

theorem IsLeastOf.unique (ha : a.IsLeastOf ts) (hb : b.IsLeastOf ts) : a = b :=
  refines_antisymm (ha.2 b hb.1) (hb.2 a ha.1)

/-- A least type stays least if the types that follow are not below it. -/
theorem IsLeastOf.append_of_refines (ha : a.IsLeastOf ts) (h : a.refines b = true) : a.IsLeastOf (ts ++ [b]) := by
  refine ⟨List.mem_append_left _ ha.1, fun t ht => ?_⟩
  rcases List.mem_append.1 ht with ht | ht
  · exact ha.2 t ht
  · rw [List.mem_singleton.1 ht]
    exact h

/-- What is within the least type of a list is least with it. -/
theorem IsLeastOf.append_of_le (ha : a.IsLeastOf ts) (h : b.refines a = true) : b.IsLeastOf (ts ++ [b]) := by
  refine ⟨List.mem_append_right _ (List.mem_singleton_self b), fun t ht => ?_⟩
  rcases List.mem_append.1 ht with ht | ht
  · exact refines_trans h (ha.2 t ht)
  · rw [List.mem_singleton.1 ht]
    exact b.refines_refl

/-- One more type leaves a least one iff it compares with the one there was. -/
theorem exists_least_append_iff (ha : a.IsLeastOf ts) :
    (∃ t, IsLeastOf t (ts ++ [b])) ↔ a.refines b = true ∨ b.refines a = true := by
  constructor
  · rintro ⟨t, hmem, hleast⟩
    rcases List.mem_append.1 hmem with ht | ht
    · have hta : t = a := refines_antisymm (hleast a (List.mem_append_left _ ha.1)) (ha.2 t ht)
      exact .inl (hta ▸ hleast b (List.mem_append_right _ (List.mem_singleton_self b)))
    · exact .inr (List.mem_singleton.1 ht ▸ hleast a (List.mem_append_left _ ha.1))
  · rintro (h | h)
    · exact ⟨a, ha.append_of_refines h⟩
    · exact ⟨b, ha.append_of_le h⟩

/-! ## Lists that narrow down -/

/-- Every beginning of the list has a least type. -/
def Narrowing (ts : List TypeSet) : Prop := ∀ before, before <+: ts → before ≠ [] → ∃ t, IsLeastOf t before

theorem narrowing_nil : Narrowing [] := fun _ h hne => absurd (List.prefix_nil.1 h) hne

theorem Narrowing.of_append (h : Narrowing (ts ++ us)) : Narrowing ts := fun before hbefore =>
  h before (hbefore.trans (List.prefix_append ts us))

theorem Narrowing.exists_least (h : Narrowing ts) (hne : ts ≠ []) : ∃ t, IsLeastOf t ts := h ts List.prefix_rfl hne

/-- One more type keeps a list narrowing iff there is a least type with it. -/
theorem Narrowing.append_iff (h : Narrowing ts) : Narrowing (ts ++ [b]) ↔ ∃ t, IsLeastOf t (ts ++ [b]) := by
  constructor
  · exact fun hb => hb.exists_least (by simp)
  · intro hleast before hbefore hne
    rcases List.prefix_concat_iff.1 hbefore with rfl | hbefore
    · exact hleast
    · exact h before hbefore hne

/-- A list does not narrow down iff one of its types does not compare with the least of those before it. -/
theorem not_narrowing_iff :
    ¬ Narrowing ts ↔ ∃ before t k, before ++ [t] <+: ts ∧ IsLeastOf k before ∧ k.refines t = false ∧
      t.refines k = false := by
  constructor
  · induction ts using List.reverseRecOn with
    | nil => exact fun h => absurd narrowing_nil h
    | append_singleton ts b ih =>
      intro h
      by_cases hts : Narrowing ts
      · have hne : ts ≠ [] := by
          rintro rfl
          exact h (hts.append_iff.2 ⟨b, isLeastOf_singleton b⟩)
        obtain ⟨k, hk⟩ := hts.exists_least hne
        rw [hts.append_iff, exists_least_append_iff hk, not_or, Bool.not_eq_true, Bool.not_eq_true] at h
        exact ⟨ts, b, k, List.prefix_rfl, hk, h⟩
      · obtain ⟨before, t, k, hbefore, hrest⟩ := ih hts
        exact ⟨before, t, k, hbefore.trans (List.prefix_append ts [b]), hrest⟩
  · rintro ⟨before, t, k, hbefore, hk, hkt, htk⟩ h
    rcases (exists_least_append_iff hk).1 (h _ hbefore (by simp)) with hle | hle
    · simp [hkt] at hle
    · simp [htk] at hle

/-- The types of the list compare with each other. -/
def Comparable (ts : List TypeSet) : Prop := ∀ t ∈ ts, ∀ u ∈ ts, t.refines u = true ∨ u.refines t = true

/-- Types that compare with each other narrow down in any order. -/
theorem Comparable.narrowing (h : Comparable ts) : Narrowing ts := by
  induction ts using List.reverseRecOn with
  | nil => exact narrowing_nil
  | append_singleton ts b ih =>
    have hts : Narrowing ts := ih fun t ht u hu => h t (List.mem_append_left _ ht) u (List.mem_append_left _ hu)
    refine hts.append_iff.2 ?_
    by_cases hne : ts = []
    · subst hne
      exact ⟨b, isLeastOf_singleton b⟩
    · obtain ⟨a, ha⟩ := hts.exists_least hne
      refine (exists_least_append_iff ha).2 (h a (List.mem_append_left _ ha.1) b ?_)
      exact List.mem_append_right _ (List.mem_singleton_self b)

end TypeSet

end ArchFlow
