import ArchFlow.Proofs.TypeSet.Meaning

/-!
# Values that types require

A type requires a value of a key if each of its conjuncts gives the key this value. A satisfiable conjunct is itself an
assignment that the type describes, so the conjuncts agree on a value exactly if all assignments do that are described.

* `TypeSet.requiredValue?_eq_some_iff`: a value is required iff something is described, always with this value.
* `TypeSet.requiredValue?_of_refines`: what describes less, but something, requires as much.
-/

namespace ArchFlow

namespace Conjunct

variable {c : Conjunct} {key value : String}

/-- A value that a conjunct gives a key comes from a predicate. -/
theorem mem_of_value? (h : c.value? key = some value) : ⟨key, value⟩ ∈ c := by
  obtain ⟨p, hp, rfl⟩ := Option.map_eq_some_iff.1 h
  have hkey := List.find?_some hp
  rw [decide_eq_true_eq] at hkey
  subst hkey
  exact List.mem_of_find?_eq_some hp

/-- A satisfiable conjunct gives each key the value that it has as an assignment. -/
theorem value?_eq (hc : c.Satisfiable) (key : String) : c.value? key = (c.assignment hc).get? key := by
  rw [value?, SortedMap.get?, assignment, List.find?_map, Option.map_map]
  rfl

end Conjunct

namespace TypeSet

variable {a b : TypeSet} {key value : String}

/-- A value is required if there are conjuncts and all of them give it. -/
theorem requiredValue?_eq_some_iff_conjuncts :
    a.requiredValue? key = some value ↔ a.isEmpty = false ∧ ∀ c ∈ a.disjuncts, c.value? key = some value := by
  simp only [requiredValue?, isEmpty, SortedSet.isEmpty, SortedSet.mem_def]
  cases a.disjuncts.toList with
  | nil => simp
  | cons c cs =>
    simp only [Option.filter_eq_some_iff, List.all_eq_true, decide_eq_true_eq, List.forall_mem_cons,
      List.isEmpty_cons, true_and]

/-- A value is required iff something is described, and whatever is described has the value. -/
theorem requiredValue?_eq_some_iff :
    a.requiredValue? key = some value ↔ a.isEmpty = false ∧ ∀ m ∈ a.meaning, m.get? key = some value := by
  rw [requiredValue?_eq_some_iff_conjuncts]
  refine and_congr_right fun _ => ⟨?_, fun h c hc => ?_⟩
  · rintro h m ⟨c, hc, hm⟩
    exact hm _ (Conjunct.mem_of_value? (h c hc))
  · have hsatisfiable : c.Satisfiable := a.satisfiable c hc
    rw [Conjunct.value?_eq hsatisfiable]
    exact h _ ⟨c, hc, (Conjunct.holdsIn_assignment hsatisfiable).2 c.subset_refl⟩

/-- A type within another one requires what that one does, if it describes anything. -/
theorem requiredValue?_of_refines (h : b.refines a = true) (hb : b.isEmpty = false)
    (ha : a.requiredValue? key = some value) : b.requiredValue? key = some value :=
  requiredValue?_eq_some_iff.2 ⟨hb, fun m hm => (requiredValue?_eq_some_iff.1 ha).2 m (refines_iff_subset.1 h hm)⟩

end TypeSet

end ArchFlow
