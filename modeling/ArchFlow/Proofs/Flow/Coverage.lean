import ArchFlow.Proofs.Flow.Exactness
import Mathlib.Logic.Relation

/-!
# What a drawing covers

A drawing shows only elements that its root leads to. It shows all of them if the depth bound is not below their
number: an element at the bound then stands below itself, and so it is also found above the bound, where its first
occurrence has its children. Under a smaller bound an element may be missing, but only below one that is shown at the
bound and nowhere above it.

* `Survey.exists_above_bound`, `Survey.exists_of_reaches`: a drawing that is deep enough shows all.
* `Survey.shown_or_cut_above`: what becomes of an element of a drawing in a deeper one.
* `Survey.shown_of_le_two`, `Survey.shown_of_enough`: drawings that lose nothing.
-/

namespace ArchFlow

namespace Survey

variable {v : Survey} {m : Nat} {root : ElementId}

/-- An element links to another one. -/
def Leads (v : Survey) (id next : ElementId) : Prop := ∃ via, (via, next) ∈ v.next id

/-- An element leads to another one over any number of links. -/
abbrev Reaches (v : Survey) : ElementId → ElementId → Prop := Relation.ReflTransGen v.Leads

/-! ## The nodes of a drawing -/

theorem tree_id : (v.tree m root).id = root := congrArg Prod.snd link_tree

/-- The first occurrence of an element above the bound has the children it links to, and no other one has any. -/
theorem tree_children :
    Along (fun before o => o.node.children.map link =
      if o.depth < m ∧ o.id ∉ idsAbove m before then v.next o.id else []) (v.tree m root).occurrences :=
  tree_draws.children.imp fun before o _ ho => by simpa using ho

/-- A node has the children that its element links to, above the bound, or it is a leaf. -/
theorem children_or_leaf {o : Occurrence} (ho : o ∈ (v.tree m root).occurrences) :
    (o.depth < m ∧ o.node.children.map link = v.next o.id) ∨ o.node.children = [] := by
  obtain ⟨before, after, hsplit⟩ := List.append_of_mem ho
  have hchildren : o.node.children.map link = if o.depth < m ∧ o.id ∉ idsAbove m before then v.next o.id else [] :=
    tree_children before o after hsplit
  split at hchildren
  · next hnew => exact .inl ⟨hnew.1, hchildren⟩
  · exact .inr (List.map_eq_nil_iff.1 hchildren)

theorem child_mem_next {o : Occurrence} {c : FlowTree} (ho : o ∈ (v.tree m root).occurrences)
    (hc : c ∈ o.node.children) : o.depth < m ∧ (c.via, c.id) ∈ v.next o.id := by
  rcases children_or_leaf ho with ⟨hlt, hnext⟩ | hleaf
  · exact ⟨hlt, hnext ▸ List.mem_map_of_mem hc⟩
  · rw [hleaf] at hc
    cases hc

theorem depth_le {o : Occurrence} (ho : o ∈ (v.tree m root).occurrences) : o.depth ≤ m := by
  rcases FlowTree.root_or_child ho with rfl | ⟨p, hp, habove, hc⟩
  · exact Nat.zero_le m
  · have := (child_mem_next hp hc).1
    simp only [Occurrence.depth, habove, List.length_cons] at this ⊢
    omega

/-- An element that occurs above the bound has an occurrence there with all its children. -/
theorem exists_expanded {o : Occurrence} (ho : o ∈ (v.tree m root).occurrences) (hlt : o.depth < m) :
    ∃ p ∈ (v.tree m root).occurrences, p.id = o.id ∧ p.node.children.map link = v.next o.id := by
  obtain ⟨before, p, after, hsplit, hid, hfirst⟩ := exists_first ho hlt
  have hchildren : p.node.children.map link = v.next p.id :=
    (tree_children before p after hsplit).trans (if_pos (isFirst_iff.1 hfirst))
  exact ⟨p, by simp [hsplit], hid, hid ▸ hchildren⟩

/-- What an element above the bound links to is the child of an occurrence of it. -/
theorem exists_child {o : Occurrence} (ho : o ∈ (v.tree m root).occurrences) (hlt : o.depth < m)
    {via : Option String} {id : ElementId} (hnext : (via, id) ∈ v.next o.id) :
    ∃ p ∈ (v.tree m root).occurrences, p.id = o.id ∧ ∃ c ∈ p.node.children, c.via = via ∧ c.id = id := by
  obtain ⟨p, hp, hid, hchildren⟩ := exists_expanded ho hlt
  rw [← hchildren] at hnext
  obtain ⟨c, hc, hlink⟩ := List.mem_map.1 hnext
  cases hlink
  exact ⟨p, hp, hid, c, hc, rfl, rfl⟩

theorem exists_of_leads {o : Occurrence} (ho : o ∈ (v.tree m root).occurrences) (hlt : o.depth < m) {id : ElementId}
    (h : v.Leads o.id id) : ∃ p ∈ (v.tree m root).occurrences, p.id = id := by
  obtain ⟨via, hnext⟩ := h
  obtain ⟨p, hp, -, c, hc, -, rfl⟩ := exists_child ho hlt hnext
  exact ⟨_, FlowTree.child_mem_occurrences hp hc, rfl⟩

theorem tree_root_children (hm : 0 < m) : (v.tree m root).children.map link = v.next root := by
  obtain ⟨n, rfl⟩ : ∃ n, m = n + 1 := ⟨m - 1, by omega⟩
  exact map_link_drawAll (link_expand n) (v.next root) [root]

/-! ## What a root leads to -/

/-- The root leads to all that its drawing shows. -/
theorem reaches_of_mem {o : Occurrence} (ho : o ∈ (v.tree m root).occurrences) : v.Reaches root o.id := by
  induction hn : o.depth generalizing o with
  | zero =>
    rcases FlowTree.root_or_child ho with rfl | ⟨p, hp, habove, hc⟩
    · rw [Occurrence.id, tree_id]
    · simp [Occurrence.depth, habove] at hn
  | succ n ih =>
    rcases FlowTree.root_or_child ho with rfl | ⟨p, hp, habove, hc⟩
    · cases hn
    · have hpn : p.depth = n := by simpa [Occurrence.depth, habove] using hn
      exact (ih hp hpn).tail ⟨_, (child_mem_next hp hc).2⟩

/-- No element stands above an occurrence twice. -/
theorem nodup_above {o : Occurrence} (ho : o ∈ (v.tree m root).occurrences) : o.above.Nodup := by
  refine FlowTree.nodup_above (pairwise_leaf (m := m) (tree_children.imp fun before o _ h hne => ?_)) ho
  split at h
  · next hnew =>
    refine ⟨hnew.1, fun p hp hid => Nat.le_of_not_lt fun hlt => ?_⟩
    exact hnew.2 (mem_idsAbove.2 ⟨p, hp, hlt, hid⟩)
  · exact absurd (List.map_eq_nil_iff.1 h) hne

section Enough

variable {R : List ElementId} (hR : ∀ id, v.Reaches root id → id ∈ R) (hm : R.length ≤ m)
include hR hm

/-- If the bound is not below the number of elements that the root leads to, every element of the drawing occurs above
the bound. -/
theorem exists_above_bound {o : Occurrence} (ho : o ∈ (v.tree m root).occurrences) :
    ∃ p ∈ (v.tree m root).occurrences, p.id = o.id ∧ p.depth < m := by
  by_cases hlt : o.depth < m
  · exact ⟨o, ho, rfl, hlt⟩
  have habove : ∀ id ∈ o.above, ∃ p ∈ (v.tree m root).occurrences, p.id = id ∧ p.depth < m := by
    intro id hid
    obtain ⟨between, rest, hsplit⟩ := List.append_of_mem hid
    obtain ⟨p, hp, hpid, -, hne⟩ := FlowTree.exists_above between ho hsplit
    obtain ⟨c, hc⟩ := List.exists_mem_of_ne_nil _ hne
    exact ⟨p, hp, hpid, (child_mem_next hp hc).1⟩
  by_cases hself : o.id ∈ o.above
  · exact habove o.id hself
  -- otherwise the path to the occurrence has more elements than the root leads to
  have hpath : (o.id :: o.above).Nodup := List.nodup_cons.2 ⟨hself, nodup_above ho⟩
  have hsub : (o.id :: o.above) ⊆ R := by
    intro id hid
    rcases List.mem_cons.1 hid with rfl | hid
    · exact hR _ (reaches_of_mem ho)
    · obtain ⟨p, hp, rfl, -⟩ := habove id hid
      exact hR _ (reaches_of_mem hp)
  have hlength := hpath.length_le_of_subset hsub
  rw [List.length_cons] at hlength
  simp only [Occurrence.depth] at hlt
  omega

/-- If the bound is not below the number of elements that the root leads to, the drawing shows them all. -/
theorem exists_of_reaches {id : ElementId} (h : v.Reaches root id) :
    ∃ o ∈ (v.tree m root).occurrences, o.id = id := by
  induction h with
  | refl => exact ⟨_, (v.tree m root).root_mem_occurrences, tree_id⟩
  | tail _ hstep ih =>
    obtain ⟨o, ho, rfl⟩ := ih
    obtain ⟨p, hp, hid, hlt⟩ := exists_above_bound hR hm ho
    rw [← hid] at hstep
    exact exists_of_leads hp hlt hstep

end Enough

/-! ## Drawings of two depths -/

section Deeper

variable {v' : Survey} {n : Nat} (hmn : m ≤ n) (hnext : ∀ id, v.Reaches root id → v'.next id = v.next id)
include hmn hnext

/-- The first two levels of a drawing are there in a deeper one. -/
theorem exists_of_depth_lt_two {o : Occurrence} (ho : o ∈ (v.tree m root).occurrences) (hd : o.depth < 2) :
    ∃ p ∈ (v'.tree n root).occurrences, p.id = o.id ∧ p.depth = o.depth := by
  have hroot := (v'.tree n root).root_mem_occurrences
  rcases FlowTree.root_or_child ho with rfl | ⟨p, hp, habove, hc⟩
  · exact ⟨_, hroot, tree_id.trans tree_id.symm, rfl⟩
  · have hp0 : p.depth = 0 := by
      simp only [Occurrence.depth, habove, List.length_cons] at hd ⊢
      omega
    have hpabove : p.above = [] := List.eq_nil_of_length_eq_zero hp0
    obtain ⟨hlt, hmem⟩ := child_mem_next hp hc
    have hpid : p.id = root := by
      rcases FlowTree.root_or_child hp with rfl | ⟨q, -, hq, -⟩
      · exact tree_id
      · rw [hpabove] at hq
        cases hq
    rw [hpid, ← hnext root .refl, ← tree_root_children (by omega : 0 < n)] at hmem
    obtain ⟨c, hc, hlink⟩ := List.mem_map.1 hmem
    refine ⟨_, FlowTree.child_mem_occurrences hroot hc, congrArg Prod.snd hlink, ?_⟩
    simp [Occurrence.depth, habove, hpabove]

/-- An element of a drawing occurs in a deeper one too, or it stands below an element, not on the first two levels, that
the deeper one shows at its bound only. -/
theorem shown_or_cut_above {o : Occurrence} (ho : o ∈ (v.tree m root).occurrences) :
    (∃ o' ∈ (v'.tree n root).occurrences, o'.id = o.id) ∨
      ∃ p ∈ (v.tree m root).occurrences, p.IsAbove o ∧ 2 ≤ p.depth ∧
        (∃ p' ∈ (v'.tree n root).occurrences, p'.id = p.id) ∧
        ∀ p' ∈ (v'.tree n root).occurrences, p'.id = p.id → p'.depth = n := by
  induction hd : o.depth generalizing o with
  | zero =>
    obtain ⟨p, hp, hid, -⟩ := exists_of_depth_lt_two hmn hnext ho (by omega)
    exact .inl ⟨p, hp, hid⟩
  | succ d ih =>
    rcases FlowTree.root_or_child ho with rfl | ⟨p, hp, habove, hc⟩
    · cases hd
    have hpd : p.depth = d := by simpa [Occurrence.depth, habove] using hd
    obtain ⟨hpm, hmem⟩ := child_mem_next hp hc
    rcases ih hp hpd with ⟨p', hp', hid⟩ | ⟨q, hq, ⟨between, hbetween⟩, hcut⟩
    · by_cases hshown : ∃ q ∈ (v'.tree n root).occurrences, q.id = p.id ∧ q.depth < n
      · -- the parent is expanded in the deeper drawing
        obtain ⟨q, hq, hqid, hqlt⟩ := hshown
        have hleads : v'.Leads q.id o.id := ⟨o.node.via, by rwa [hqid, hnext p.id (reaches_of_mem hp)]⟩
        exact .inl (exists_of_leads hq hqlt hleads)
      · -- the parent is cut in the deeper drawing
        refine .inr ⟨p, hp, ⟨[], habove⟩, Nat.le_of_not_lt fun hlt => hshown ?_, ⟨p', hp', hid⟩, fun q hq hqid => ?_⟩
        · obtain ⟨q, hq, hqid, hqd⟩ := exists_of_depth_lt_two hmn hnext hp hlt
          exact ⟨q, hq, hqid, by omega⟩
        · have := depth_le hq
          have : ¬ q.depth < n := fun hlt => hshown ⟨q, hq, hqid, hlt⟩
          omega
    · exact .inr ⟨q, hq, ⟨p.id :: between, by rw [habove, hbetween, List.cons_append]⟩, hcut⟩

/-- A drawing of two levels at most loses nothing in a deeper one: nothing in it is below its second level. -/
theorem shown_of_le_two (htwo : m ≤ 2) {o : Occurrence} (ho : o ∈ (v.tree m root).occurrences) :
    ∃ o' ∈ (v'.tree n root).occurrences, o'.id = o.id := by
  rcases shown_or_cut_above hmn hnext ho with hshown | ⟨p, -, ⟨between, habove⟩, hdepth, -⟩
  · exact hshown
  · have hbound := depth_le ho
    simp only [Occurrence.depth, habove, List.length_append, List.length_cons] at hbound hdepth
    omega

/-- A drawing loses nothing in a deeper one that shows every element above its bound. -/
theorem shown_of_enough {R : List ElementId} (hR : ∀ id, v'.Reaches root id → id ∈ R) (hlength : R.length ≤ n)
    {o : Occurrence} (ho : o ∈ (v.tree m root).occurrences) :
    ∃ o' ∈ (v'.tree n root).occurrences, o'.id = o.id := by
  rcases shown_or_cut_above hmn hnext ho with hshown | ⟨p, -, -, -, ⟨p', hp', hid⟩, honly⟩
  · exact hshown
  · obtain ⟨q, hq, hqid, hlt⟩ := exists_above_bound hR hlength hp'
    have hdepth := honly q hq (hqid.trans hid)
    omega

end Deeper

end Survey

end ArchFlow
