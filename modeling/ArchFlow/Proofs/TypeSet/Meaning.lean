import ArchFlow.Proofs.TypeSet.Order
import ArchFlow.SortedMap
import Mathlib.Order.BooleanAlgebra.Set

/-!
# What types describe

An assignment gives some keys a value each. A type describes the assignments that have all values of at least one of
its conjuncts. A conjunct that gives a key two values describes nothing, and a conjunct that contains another one
describes nothing new, so that bringing conjuncts into normal form changes nothing about what they describe. And a
satisfiable conjunct is itself an assignment, described by those conjuncts alone that it contains; so the comparison of
conjuncts finds out all there is to find out about what types describe.

* `TypeSet.meaning_ofConjuncts`: the normal form describes what the conjuncts describe.
* `TypeSet.refines_iff_subset`, `TypeSet.meaning_injective`: the comparison of types is exact.
* `TypeSet.meaning_exact`: the operations of the algebra are those of sets of assignments.
* `TypeSet.lattice_laws`: types are a bounded distributive lattice.
-/

namespace ArchFlow

/-- Values of finitely many keys. -/
abbrev Assignment := SortedMap String String

/-! ## Conjuncts -/

namespace Conjunct

variable {c d : Conjunct} {m : Assignment}

/-- The assignment has all values of the conjunct. -/
def HoldsIn (c : Conjunct) (m : Assignment) : Prop := ∀ p ∈ c, m.get? p.key = some p.value

theorem HoldsIn.of_subset (h : c.HoldsIn m) (hd : d.subset c = true) : d.HoldsIn m :=
  fun p hp => h p (SortedSet.subset_iff.1 hd p hp)

theorem holdsIn_union : HoldsIn (c.union d) m ↔ c.HoldsIn m ∧ d.HoldsIn m := by
  simp only [HoldsIn, SortedSet.mem_union]
  exact ⟨fun h => ⟨fun p hp => h p (.inl hp), fun p hp => h p (.inr hp)⟩, fun h p hp => hp.elim (h.1 p) (h.2 p)⟩

/-- What holds somewhere gives no key two values. -/
theorem HoldsIn.satisfiable (h : c.HoldsIn m) : c.Satisfiable :=
  satisfiable_iff_singleValued.2 fun p hp q hq hkey => by
    have hpq := h p hp
    rw [hkey, h q hq] at hpq
    exact (Option.some.inj hpq).symm

theorem compare_key_of_ne {p q : Predicate} (hlt : compare p q = .lt) (hkey : p.key ≠ q.key) :
    compare p.key q.key = .lt := by
  have hthen : (compare p.key q.key).then (compare p.value q.value) = .lt := hlt
  cases hcompare : compare p.key q.key with
  | lt => rfl
  | eq => exact absurd (Std.LawfulEqCmp.eq_of_compare hcompare) hkey
  | gt => rw [hcompare] at hthen; cases hthen

/-- The keys of a satisfiable conjunct increase as its predicates do. -/
theorem Satisfiable.increasing_keys (hc : c.Satisfiable) :
    c.toList.Pairwise fun p q => compare p.key q.key = .lt := by
  refine (List.Pairwise.and c.increasing hc).imp fun {p q} h => ?_
  exact compare_key_of_ne h.1 h.2

/-- The values of a satisfiable conjunct and no others. -/
def assignment (c : Conjunct) (hc : c.Satisfiable) : Assignment where
  toList := c.toList.map fun p => (p.key, p.value)
  increasing := by
    unfold IncreasingKeys
    rw [List.pairwise_map]
    exact hc.increasing_keys

theorem get?_assignment (hc : c.Satisfiable) {p : Predicate} :
    (c.assignment hc).get? p.key = some p.value ↔ p ∈ c := by
  simp only [SortedMap.get?_eq_some_iff, assignment, List.mem_map, Prod.mk.injEq]
  constructor
  · rintro ⟨⟨key, value⟩, hq, rfl, rfl⟩
    exact hq
  · exact fun hp => ⟨p, hp, rfl, rfl⟩

/-- In the values of a conjunct the conjuncts hold that are contained in it. -/
theorem holdsIn_assignment (hc : c.Satisfiable) : d.HoldsIn (c.assignment hc) ↔ d.subset c = true := by
  simp only [HoldsIn, get?_assignment, SortedSet.subset_iff]

end Conjunct

/-! ## Types -/

namespace TypeSet

variable {a b c : TypeSet} {m : Assignment}

/-- The assignments that have all values of a conjunct of the type. -/
def meaning (a : TypeSet) : Set Assignment := {m | ∃ c ∈ a.disjuncts, c.HoldsIn m}

theorem mem_meaning : m ∈ a.meaning ↔ ∃ c ∈ a.disjuncts, c.HoldsIn m := Iff.rfl

/-- The normal form of conjuncts describes what the conjuncts describe. -/
theorem meaning_ofConjuncts (cs : List Conjunct) : (ofConjuncts cs).meaning = {m | ∃ c ∈ cs, c.HoldsIn m} := by
  ext m
  constructor
  · rintro ⟨c, hc, hm⟩
    exact ⟨c, (mem_ofConjuncts.1 hc).1, hm⟩
  · rintro ⟨c, hc, hm⟩
    obtain ⟨d, hd, hdc⟩ := exists_kept hc hm.satisfiable
    exact ⟨d, hd, hm.of_subset hdc⟩

theorem meaning_empty : empty.meaning = ∅ := by
  simp [empty, meaning_ofConjuncts]

/-- A type that is made of lists of predicates describes the assignments that have all values of a list. -/
theorem meaning_ofDisjuncts (pss : List (List Predicate)) :
    (ofDisjuncts pss).meaning = {m | ∃ ps ∈ pss, ∀ p ∈ ps, m.get? p.key = some p.value} := by
  simp [ofDisjuncts, meaning_ofConjuncts, Conjunct.HoldsIn]

/-- No predicates are required by the type of everything. -/
theorem meaning_ofPredicates_nil : (ofPredicates []).meaning = Set.univ := by
  show (ofDisjuncts [[]]).meaning = Set.univ
  simp [meaning_ofDisjuncts]

theorem meaning_union (a b : TypeSet) : (a.union b).meaning = a.meaning ∪ b.meaning := by
  ext m
  simp only [union, meaning_ofConjuncts, Set.mem_ofPred_eq, Set.mem_union, mem_meaning, List.mem_append,
    SortedSet.mem_def, or_and_right, exists_or]

theorem meaning_inter (a b : TypeSet) : (a.inter b).meaning = a.meaning ∩ b.meaning := by
  ext m
  rw [inter, meaning_ofConjuncts]
  constructor
  · rintro ⟨e, he, hm⟩
    obtain ⟨c, hc, he⟩ := List.mem_flatMap.1 he
    obtain ⟨d, hd, rfl⟩ := List.mem_map.1 he
    obtain ⟨hcm, hdm⟩ := Conjunct.holdsIn_union.1 hm
    exact ⟨⟨c, hc, hcm⟩, ⟨d, hd, hdm⟩⟩
  · rintro ⟨⟨c, hc, hcm⟩, ⟨d, hd, hdm⟩⟩
    exact ⟨c.union d, List.mem_flatMap.2 ⟨c, hc, List.mem_map_of_mem hd⟩, Conjunct.holdsIn_union.2 ⟨hcm, hdm⟩⟩

/-- A type is within another one iff the other describes all that it describes. -/
theorem refines_iff_subset : a.refines b = true ↔ a.meaning ⊆ b.meaning := by
  constructor
  · rintro h m ⟨c, hc, hm⟩
    obtain ⟨d, hd, hdc⟩ := covers_iff.1 (refines_iff.1 h c hc)
    exact ⟨d, hd, hm.of_subset hdc⟩
  · intro h
    refine refines_iff.2 fun c hc => covers_iff.2 ?_
    -- the values of a conjunct are the assignment that decides
    have hsat : c.Satisfiable := a.satisfiable c hc
    have hself : c.HoldsIn (c.assignment hsat) := (Conjunct.holdsIn_assignment hsat).2 c.subset_refl
    obtain ⟨d, hd, hdc⟩ := h ⟨c, hc, hself⟩
    exact ⟨d, hd, (Conjunct.holdsIn_assignment hsat).1 hdc⟩

/-- Types that describe the same are equal. -/
theorem meaning_injective : Function.Injective meaning := fun _ _ h =>
  refines_antisymm (refines_iff_subset.2 h.subset) (refines_iff_subset.2 h.superset)

/-- **The algebra of types is that of sets of assignments.** A type is within another one exactly if the other describes
all that it describes; unions and intersections describe the unions and intersections; types are equal exactly if they
describe the same; and a type that is made of lists of predicates, contradictory ones or not, describes the assignments
that have all values of one of the lists. -/
theorem meaning_exact (a b : TypeSet) (pss : List (List Predicate)) :
    (a.refines b = true ↔ a.meaning ⊆ b.meaning) ∧ (a.union b).meaning = a.meaning ∪ b.meaning ∧
      (a.inter b).meaning = a.meaning ∩ b.meaning ∧ (a = b ↔ a.meaning = b.meaning) ∧
      (ofDisjuncts pss).meaning = {m | ∃ ps ∈ pss, ∀ p ∈ ps, m.get? p.key = some p.value} :=
  ⟨refines_iff_subset, meaning_union a b, meaning_inter a b, meaning_injective.eq_iff.symm, meaning_ofDisjuncts pss⟩

/-! ## The lattice of types -/

instance : LE TypeSet := ⟨fun a b => a.refines b = true⟩

instance : LT TypeSet := ⟨fun a b => a ≤ b ∧ ¬ b ≤ a⟩

instance : Max TypeSet := ⟨union⟩

instance : Min TypeSet := ⟨inter⟩

/-- Types are a lattice as the sets of assignments are. -/
instance : DistribLattice TypeSet :=
  meaning_injective.distribLattice meaning refines_iff_subset.symm
    (and_congr refines_iff_subset.symm (not_congr refines_iff_subset.symm)) meaning_union meaning_inter

/-- Nothing is described by the empty type, and everything by the type that requires nothing. -/
instance : BoundedOrder TypeSet where
  bot := empty
  bot_le a := refines_iff_subset.2 (meaning_empty ▸ Set.empty_subset a.meaning)
  top := ofPredicates []
  le_top a := refines_iff_subset.2 (meaning_ofPredicates_nil ▸ Set.subset_univ a.meaning)

/-- **Types are a bounded distributive lattice.** Unions and intersections commute, associate, and repeat without
effect; they absorb each other and distribute over each other; the empty type is neutral for unions and absorbs
intersections, and the type that requires nothing the other way round; and inclusion is the partial order of this
lattice. -/
theorem lattice_laws (a b c : TypeSet) :
    (a.union b = b.union a ∧ (a.union b).union c = a.union (b.union c) ∧ a.union a = a) ∧
      (a.inter b = b.inter a ∧ (a.inter b).inter c = a.inter (b.inter c) ∧ a.inter a = a) ∧
      (a.union (a.inter b) = a ∧ a.inter (a.union b) = a) ∧
      (a.inter (b.union c) = (a.inter b).union (a.inter c) ∧ a.union (b.inter c) = (a.union b).inter (a.union c)) ∧
      (empty.union a = a ∧ empty.inter a = empty) ∧
      ((ofPredicates []).inter a = a ∧ (ofPredicates []).union a = ofPredicates []) ∧
      (a.refines a = true ∧ (a.refines b = true → b.refines c = true → a.refines c = true) ∧
        (a.refines b = true → b.refines a = true → a = b)) ∧
      (a.refines b = true ↔ a.union b = b) ∧ (a.refines b = true ↔ a.inter b = a) := by
  refine ⟨⟨sup_comm a b, sup_assoc a b c, sup_idem a⟩, ⟨inf_comm a b, inf_assoc a b c, inf_idem a⟩, ?absorb,
    ?distribute, ?bot, ?top, ?order, ?join, ?meet⟩
  case absorb => exact ⟨sup_inf_self, inf_sup_self⟩
  case distribute => exact ⟨inf_sup_left a b c, sup_inf_left a b c⟩
  case bot => exact ⟨bot_sup_eq a, bot_inf_eq a⟩
  case top => exact ⟨top_inf_eq a, top_sup_eq a⟩
  case order => exact ⟨a.refines_refl, refines_trans, refines_antisymm⟩
  case join => exact (sup_eq_right : a ⊔ b = b ↔ a ≤ b).symm
  case meet => exact (inf_eq_left : a ⊓ b = a ↔ a ≤ b).symm

end TypeSet

end ArchFlow
