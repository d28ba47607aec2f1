import ArchFlow.Proofs.Flow.Coverage
import Mathlib.Algebra.GroupWithZero.Nat
import Mathlib.Logic.ExistsUnique

/-!
# Drawings that are deep enough

Every node with children takes one more element out of those that are not expanded yet. So a drawing needs no more
levels than its root leads to elements: with that many it expands each of them once, more levels change nothing, and the
number of its nodes is the root and all that these elements link to.

* `Survey.expand_congr`: bounds that are not below the number of elements still to expand make no difference.
* `Survey.Grown`: what a drawing expands, and how many nodes that makes.
* `Survey.existsUnique_expanded`, `Survey.expanded_perm`, `Survey.size_tree`: the drawing from a root with enough
  levels.
-/

namespace ArchFlow

namespace Survey

variable {v : Survey} {R : List ElementId} {seen seen' seen'' : List ElementId}

/-! ## Elements still to expand -/

/-- The number of elements that are not expanded yet. -/
def unseen (R seen : List ElementId) : Nat := R.countP (· ∉ seen)

theorem unseen_nil (R : List ElementId) : unseen R [] = R.length := by
  simp [unseen]

theorem unseen_le (h : seen ⊆ seen') : unseen R seen' ≤ unseen R seen :=
  List.countP_mono_left fun id _ hid => by simpa using fun hseen => of_decide_eq_true hid (h hseen)

/-- Each element that is expanded is one less to expand. -/
theorem unseen_cons_lt {id : ElementId} (hR : id ∈ R) (hid : id ∉ seen) : unseen R (id :: seen) < unseen R seen := by
  obtain ⟨before, after, rfl⟩ := List.append_of_mem hR
  have hbefore := unseen_le (R := before) (List.subset_cons_self id seen)
  have hafter := unseen_le (R := after) (List.subset_cons_self id seen)
  have hdropped : (after.cons id).countP (· ∉ id :: seen) = after.countP (· ∉ id :: seen) :=
    List.countP_cons_of_neg (by simp)
  have hkept : (after.cons id).countP (· ∉ seen) = after.countP (· ∉ seen) + 1 :=
    List.countP_cons_of_pos (decide_eq_true hid)
  simp only [unseen, List.countP_append] at hbefore hafter ⊢
  omega

/-! ## What a drawing expands -/

variable (v) in
/-- Some trees grow while the expanded elements go from `seen` to `seen'`: each of the new ones is expanded once, and
apart from the roots the nodes are what the new ones link to. -/
def Grown (roots size : Nat) (seen seen' : List ElementId) : Prop :=
  ∃ new : List ElementId, seen' = new ++ seen ∧ new.Nodup ∧ (∀ id ∈ new, id ∉ seen) ∧
    size = roots + (new.map fun id => (v.next id).length).sum

namespace Grown

variable {roots roots' size size' : Nat}

theorem subset (h : v.Grown roots size seen seen') : seen ⊆ seen' := by
  obtain ⟨new, rfl, -⟩ := h
  exact List.subset_append_right new seen

theorem leaves (n : Nat) : v.Grown n n seen seen := ⟨[], rfl, List.nodup_nil, nofun, rfl⟩

theorem trans (h : v.Grown roots size seen seen') (h' : v.Grown roots' size' seen' seen'') :
    v.Grown (roots + roots') (size + size') seen seen'' := by
  obtain ⟨new, rfl, hnodup, hnew, rfl⟩ := h
  obtain ⟨new', rfl, hnodup', hnew', rfl⟩ := h'
  refine ⟨new' ++ new, (List.append_assoc ..).symm, ?_, fun id hid => ?_, ?_⟩
  · refine List.nodup_append.2 ⟨hnodup', hnodup, fun id hid' i hid => ?_⟩
    rintro rfl
    exact hnew' id hid' (List.mem_append_left _ hid)
  · rcases List.mem_append.1 hid with hid | hid
    · exact fun hseen => hnew' id hid (List.mem_append_right _ hseen)
    · exact hnew id hid
  · rw [List.map_append, List.sum_append]
    omega

/-- A node whose element is expanded comes on top of what the element links to. -/
theorem node {id : ElementId} (hid : id ∉ seen) (h : v.Grown (v.next id).length size (id :: seen) seen') :
    v.Grown 1 (1 + size) seen seen' := by
  obtain ⟨new, rfl, hnodup, hnew, rfl⟩ := h
  refine ⟨new ++ [id], by simp, ?_, fun i hi => ?_, ?_⟩
  · refine List.nodup_append.2 ⟨hnodup, List.pairwise_singleton _ id, fun i hi i' hid' => ?_⟩
    rintro rfl
    cases List.mem_singleton.1 hid'
    exact hnew _ hi List.mem_cons_self
  · rcases List.mem_append.1 hi with hi | hi
    · exact fun hseen => hnew i hi (List.mem_cons_of_mem _ hseen)
    · cases List.mem_singleton.1 hi
      exact hid
  · rw [List.map_append, List.sum_append, List.map_singleton, List.sum_singleton]
    omega

end Grown

theorem drawAll_grown {draw : Draw} (h : ∀ id via seen, v.Grown 1 (draw id via seen).1.size seen (draw id via seen).2)
    (l : List (Option String × ElementId)) :
    ∀ seen, v.Grown l.length (FlowTree.sizes (drawAll draw l seen).1) seen (drawAll draw l seen).2 := by
  induction l with
  | nil => intro seen; exact .leaves 0
  | cons a l ih =>
    intro seen
    have hall := (h a.2 a.1 seen).trans (ih (draw a.2 a.1 seen).2)
    rwa [Nat.add_comm 1] at hall

/-- A drawing expands elements once each, and has a node for each link from one of them. -/
theorem expand_grown (n : Nat) :
    ∀ id via seen, v.Grown 1 (v.expand n id via seen).1.size seen (v.expand n id via seen).2 := by
  induction n with
  | zero => intro id via seen; exact .leaves 1
  | succ n ih =>
    intro id via seen
    rw [expand]
    split
    · exact .leaves 1
    · next hid => exact .node hid (drawAll_grown ih (v.next id) (id :: seen))

/-! ## Levels that change nothing -/

theorem expand_of_mem {id : ElementId} (hid : id ∈ seen) (n : Nat) (via : Option String) :
    v.expand n id via seen = (v.leaf id via, seen) := by
  cases n with
  | zero => rfl
  | succ n => rw [expand, if_pos hid]

/-- Ways to draw that go the same as long as not more than some elements are left go the same for several links. -/
theorem drawAll_congr {n : Nat} {draw draw' : Draw} (hdraw : ∀ id via seen, seen ⊆ (draw id via seen).2)
    {l : List (Option String × ElementId)}
    (h : ∀ a ∈ l, ∀ seen, unseen R seen ≤ n → draw a.2 a.1 seen = draw' a.2 a.1 seen) :
    ∀ seen, unseen R seen ≤ n → drawAll draw l seen = drawAll draw' l seen := by
  induction l with
  | nil => intro seen _; rfl
  | cons a l ih =>
    intro seen hseen
    have ih := ih fun b hb => h b (List.mem_cons_of_mem _ hb)
    rw [drawAll, drawAll, ← h a List.mem_cons_self seen hseen,
      ih _ (Nat.le_trans (unseen_le (hdraw a.2 a.1 seen)) hseen)]

/-- **Enough levels.** Bounds that are not below the number of elements still to expand make no difference. -/
theorem expand_congr (hclosed : ∀ id ∈ R, ∀ a ∈ v.next id, a.2 ∈ R) (n : Nat) :
    ∀ {n' : Nat} {id : ElementId} (via : Option String) {seen : List ElementId}, id ∈ R → unseen R seen ≤ n →
      unseen R seen ≤ n' → v.expand n id via seen = v.expand n' id via seen := by
  induction n with
  | zero =>
    intro n' id via seen hR hn _
    have hid : id ∈ seen := Decidable.byContradiction fun hid => by
      have := unseen_cons_lt hR hid
      omega
    rw [expand_of_mem hid, expand_of_mem hid]
  | succ n ih =>
    intro n' id via seen hR hn hn'
    by_cases hid : id ∈ seen
    · rw [expand_of_mem hid, expand_of_mem hid]
    · -- an element to expand is one less for its links
      have hlt := unseen_cons_lt hR hid
      obtain ⟨k, rfl⟩ : ∃ k, n' = k + 1 := ⟨n' - 1, by omega⟩
      have hlinks : drawAll (v.expand n) (v.next id) (id :: seen) = drawAll (v.expand k) (v.next id) (id :: seen) :=
        drawAll_congr (R := R) (n := min n k) (fun id via seen => (expand_grown n id via seen).subset)
          (fun a ha seen hseen => ih a.1 (hclosed id hR a ha) (by omega) (by omega)) (id :: seen) (by omega)
      rw [expand, expand, if_neg hid, if_neg hid, hlinks]

/-! ## The drawing from a root -/

section Root

variable {root : ElementId} {m m' : Nat} (hR : ∀ id, v.Reaches root id ↔ id ∈ R) (hm : R.length ≤ m)
include hR hm

/-- More levels than the root leads to elements change nothing. -/
theorem expand_root_congr (hm' : R.length ≤ m') : v.expand m root none [] = v.expand m' root none [] := by
  have hclosed : ∀ id ∈ R, ∀ a ∈ v.next id, a.2 ∈ R := fun id hid a ha =>
    (hR a.2).1 (((hR id).2 hid).tail ⟨a.1, ha⟩)
  have hunseen : unseen R [] = R.length := unseen_nil R
  exact expand_congr hclosed m none ((hR root).1 .refl) (by omega) (by omega)

/-- The elements that the root leads to are expanded, and no others. -/
theorem mem_expanded {id : ElementId} : id ∈ (v.expand m root none []).2 ↔ id ∈ R := by
  rw [tree_draws.seen]
  constructor
  · rintro (hid | hid)
    · cases hid
    · obtain ⟨o, ho, -, rfl⟩ := mem_idsAbove.1 hid
      exact (hR o.id).1 (reaches_of_mem ho)
  · intro hid
    obtain ⟨o, ho, rfl⟩ := exists_of_reaches (fun id => (hR id).1) hm ((hR id).2 hid)
    obtain ⟨p, hp, hpid, hlt⟩ := exists_above_bound (fun id => (hR id).1) hm ho
    exact .inr (mem_idsAbove.2 ⟨p, hp, hlt, hpid⟩)

/-- Each element that the root leads to has one occurrence first above the bound, with all that it links to. -/
theorem existsUnique_expanded {id : ElementId} (hid : id ∈ R) :
    ∃! before, ∃ o after, (v.tree m root).occurrences = before ++ o :: after ∧ o.id = id ∧ o.IsFirst m before ∧
      o.node.children.map link = v.next id := by
  obtain ⟨o, ho, rfl⟩ := exists_of_reaches (fun id => (hR id).1) hm ((hR id).2 hid)
  obtain ⟨p, hp, hpid, hlt⟩ := exists_above_bound (fun id => (hR id).1) hm ho
  obtain ⟨before, q, after, hsplit, hqid, hfirst⟩ := exists_first hp hlt
  have hchildren : q.node.children.map link = v.next q.id :=
    (tree_children before q after hsplit).trans (if_pos (isFirst_iff.1 hfirst))
  have hid : q.id = o.id := hqid.trans hpid
  refine ⟨before, ⟨q, after, hsplit, hid, hfirst, hid ▸ hchildren⟩, ?_⟩
  rintro before' ⟨q', after', hsplit', hid', hfirst', -⟩
  exact first_unique (hsplit'.symm.trans hsplit) (hid'.trans hid.symm) hfirst' hfirst

variable (hnodup : R.Nodup)
include hnodup

/-- The elements that the root leads to are expanded once each. -/
theorem expanded_perm : (v.expand m root none []).2.Perm R := by
  obtain ⟨new, hnew, hnodup', -, -⟩ := v.expand_grown m root none []
  rw [List.append_nil] at hnew
  exact (List.perm_ext_iff_of_nodup (hnew ▸ hnodup') hnodup).2 fun id => mem_expanded hR hm

/-- Apart from the root there is a node for each link from an element that the root leads to. -/
theorem size_tree : (v.tree m root).size = 1 + (R.map fun id => (v.next id).length).sum := by
  obtain ⟨new, hnew, -, -, hsize⟩ := v.expand_grown m root none []
  rw [List.append_nil] at hnew
  have hperm : new.Perm R := hnew ▸ expanded_perm hR hm hnodup
  rw [tree, hsize, (hperm.map _).sum_nat]

end Root

end Survey

end ArchFlow
