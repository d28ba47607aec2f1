import ArchFlow.Flow.Tree

/-!
# Occurrences of elements in a flow tree

An element may occur many times in a flow. An occurrence is a node of the tree together with the elements it is below,
so that it knows its depth; the occurrences of a tree are listed in pre-order.

* `FlowTree.map_node_occurrences`: the nodes of the occurrences are the pre-order of the tree.
* `FlowTree.height_le_iff`: the height is the greatest depth.
* `FlowTree.child_mem_occurrences`, `FlowTree.root_or_child`: children occur, one level below their parents, and apart
  from the root nothing else does.
-/

namespace ArchFlow

/-! ## Entries and what came before them -/

/-- Each entry of a list is as `P` asks, given the entries before it. -/
def Along {α : Type} (P : List α → α → Prop) (l : List α) : Prop :=
  ∀ before a after, l = before ++ a :: after → P before a

section Along

variable {α : Type} {P : List α → α → Prop}

theorem along_nil : Along P [] := fun before a after h => by
  cases before <;> cases h

theorem along_cons {a : α} {l : List α} : Along P (a :: l) ↔ P [] a ∧ Along (fun before => P (a :: before)) l := by
  constructor
  · intro h
    exact ⟨h [] a l rfl, fun before b after hl => h (a :: before) b after (by rw [hl]; rfl)⟩
  · rintro ⟨ha, hl⟩ before b after h
    cases before with
    | nil => cases h; exact ha
    | cons c before =>
      cases h
      exact hl before b after rfl

theorem along_append {l m : List α} :
    Along P (l ++ m) ↔ Along P l ∧ Along (fun before => P (l ++ before)) m := by
  induction l generalizing P with
  | nil => simp [along_nil]
  | cons a l ih => rw [List.cons_append, along_cons, ih, along_cons, and_assoc]; rfl

theorem Along.imp {Q : List α → α → Prop} {l : List α} (h : Along P l)
    (hPQ : ∀ before, ∀ a ∈ l, P before a → Q before a) : Along Q l := by
  intro before a after hl
  exact hPQ before a (by simp [hl]) (h before a after hl)

theorem Along.forall_mem {Q : α → Prop} {l : List α} (h : Along P l) (hPQ : ∀ before a, P before a → Q a) :
    ∀ a ∈ l, Q a := by
  intro a ha
  obtain ⟨before, after, hl⟩ := List.append_of_mem ha
  exact hPQ before a (h before a after hl)

/-- A relation of each entry to all before it holds of all pairs. -/
theorem along_forall_iff_pairwise {R : α → α → Prop} {l : List α} :
    Along (fun before a => ∀ b ∈ before, R b a) l ↔ l.Pairwise R := by
  induction l with
  | nil => simp [along_nil]
  | cons a l ih =>
    rw [along_cons, List.pairwise_cons, ← ih]
    constructor
    · rintro ⟨-, h⟩
      exact ⟨h.forall_mem fun before b hb => hb a List.mem_cons_self,
        h.imp fun before b _ hb c hc => hb c (List.mem_cons_of_mem _ hc)⟩
    · rintro ⟨ha, h⟩
      refine ⟨by simp, h.imp fun before b hb hR c hc => ?_⟩
      rcases List.mem_cons.1 hc with rfl | hc
      · exact ha b hb
      · exact hR c hc

end Along

/-! ## Occurrences -/

/-- A node of a tree, with the elements of the nodes it is below, the nearest one first. -/
structure Occurrence where
  above : List ElementId
  node : FlowTree

/-- The number of levels above an occurrence. -/
def Occurrence.depth (o : Occurrence) : Nat := o.above.length

/-- The element that occurs. -/
abbrev Occurrence.id (o : Occurrence) : ElementId := o.node.id

/-- The occurrence `p` is on the way from the root to `o`. -/
def Occurrence.IsAbove (p o : Occurrence) : Prop := ∃ between, o.above = between ++ p.id :: p.above

/-! ## Occurrences above a depth -/

/-- The elements that occur above a depth. -/
def idsAbove (m : Nat) (os : List Occurrence) : List ElementId := (os.filter (·.depth < m)).map (·.id)

@[simp] theorem idsAbove_nil (m : Nat) : idsAbove m [] = [] := rfl

@[simp] theorem idsAbove_append (m : Nat) (os us : List Occurrence) :
    idsAbove m (os ++ us) = idsAbove m os ++ idsAbove m us := by
  simp [idsAbove]

theorem mem_idsAbove {m : Nat} {os : List Occurrence} {id : ElementId} :
    id ∈ idsAbove m os ↔ ∃ o ∈ os, o.depth < m ∧ o.id = id := by
  simp [idsAbove, and_assoc]

/-- If an element has children only where it occurs first above a depth, one of two occurrences of it is a leaf. -/
theorem pairwise_leaf {m : Nat} {os : List Occurrence}
    (h : Along (fun before o => o.node.children ≠ [] →
      o.depth < m ∧ ∀ o' ∈ before, o'.id = o.id → m ≤ o'.depth) os) :
    os.Pairwise fun o o' => o.id = o'.id → o.node.children = [] ∨ o'.node.children = [] := by
  have hbound : ∀ o ∈ os, o.node.children ≠ [] → o.depth < m := h.forall_mem fun _ o ho hne => (ho hne).1
  have hpairs := along_forall_iff_pairwise.1 (h.imp (Q := fun before o => ∀ o' ∈ before,
    o.node.children ≠ [] → o'.id = o.id → m ≤ o'.depth) fun _ _ _ ho o' ho' hne => (ho hne).2 o' ho')
  refine hpairs.imp_of_mem fun {o o'} ho _ hR hid => ?_
  -- an earlier one with children is above the depth, which a later one with children excludes
  by_cases hne : o.node.children = []
  · exact .inl hne
  · refine .inr (Decidable.byContradiction fun hne' => ?_)
    have := hR hne' hid
    have := hbound o ho hne
    omega

namespace FlowTree

mutual

/-- The occurrences in a tree that hangs below some elements, in pre-order. -/
def occurrencesBelow (above : List ElementId) : FlowTree → List Occurrence
  | t@⟨id, _, _, _, children⟩ => ⟨above, t⟩ :: forestBelow (id :: above) children

/-- The occurrences in several trees that hang below the same elements, from left to right. -/
def forestBelow (above : List ElementId) : List FlowTree → List Occurrence
  | [] => []
  | t :: ts => occurrencesBelow above t ++ forestBelow above ts

end

/-- The occurrences in a tree, in pre-order. -/
def occurrences (t : FlowTree) : List Occurrence := t.occurrencesBelow []

variable {above : List ElementId}

theorem occurrencesBelow_eq (above : List ElementId) (t : FlowTree) :
    t.occurrencesBelow above = ⟨above, t⟩ :: forestBelow (t.id :: above) t.children := by
  cases t; rfl

theorem forestBelow_append (above : List ElementId) (ts us : List FlowTree) :
    forestBelow above (ts ++ us) = forestBelow above ts ++ forestBelow above us := by
  induction ts with
  | nil => rfl
  | cons t ts ih => simp [forestBelow, ih]

theorem mem_forestBelow {o : Occurrence} {ts : List FlowTree} :
    o ∈ forestBelow above ts ↔ ∃ t ∈ ts, o ∈ t.occurrencesBelow above := by
  induction ts with
  | nil => simp [forestBelow]
  | cons t ts ih => simp [forestBelow, ih]

/-! ## Induction over trees -/

/-- What holds of a node whenever it holds of its children holds of all trees. -/
@[elab_as_elim]
theorem induct {P : FlowTree → Prop} (node : ∀ t : FlowTree, (∀ c ∈ t.children, P c) → P t) : ∀ t, P t
  | ⟨id, label, attributes, via, children⟩ => node _ fun c hc => by
    have : sizeOf c < sizeOf children := List.sizeOf_lt_of_mem hc
    exact induct node c
termination_by t => sizeOf t
decreasing_by
  simp_wf
  omega

/-! ## Pre-order -/

theorem preorders_eq_flatMap (ts : List FlowTree) : preorders ts = ts.flatMap preorder := by
  induction ts with
  | nil => rfl
  | cons t ts ih => simp [preorders, ih]

theorem preorder_eq (t : FlowTree) : t.preorder = t :: preorders t.children := by
  cases t; rfl

theorem map_node_occurrencesBelow (t : FlowTree) :
    ∀ above, (t.occurrencesBelow above).map (·.node) = t.preorder := by
  induction t using induct with
  | node t ih =>
    intro above
    have hts : ∀ ts, (∀ c ∈ ts, c ∈ t.children) →
        (forestBelow (t.id :: above) ts).map (·.node) = preorders ts := by
      intro ts
      induction ts with
      | nil => intro _; rfl
      | cons c cs ihcs =>
        intro h
        rw [forestBelow, List.map_append, preorders, ih c (h c List.mem_cons_self),
          ihcs fun d hd => h d (List.mem_cons_of_mem _ hd)]
    rw [occurrencesBelow_eq, preorder_eq, List.map_cons, hts t.children fun _ h => h]

/-- The nodes of the occurrences in a tree are its pre-order. -/
theorem map_node_occurrences (t : FlowTree) : t.occurrences.map (·.node) = t.preorder :=
  map_node_occurrencesBelow t []

/-! ## Depth -/

theorem height_eq (t : FlowTree) : t.height = levels t.children := by
  cases t; rfl

theorem levels_le_iff {ts : List FlowTree} {n : Nat} : levels ts ≤ n ↔ ∀ t ∈ ts, t.height + 1 ≤ n := by
  induction ts with
  | nil => simp [levels]
  | cons t ts ih => rw [levels, Nat.max_le, ih, List.forall_mem_cons]

theorem height_le_iff_below (t : FlowTree) :
    ∀ (above : List ElementId) (n : Nat),
      above.length + t.height ≤ n ↔ ∀ o ∈ t.occurrencesBelow above, o.depth ≤ n := by
  induction t using induct with
  | node t ih =>
    intro above n
    rw [occurrencesBelow_eq, height_eq]
    constructor
    · intro h o ho
      rcases List.mem_cons.1 ho with rfl | ho
      · simp only [Occurrence.depth]; omega
      · obtain ⟨c, hc, ho⟩ := mem_forestBelow.1 ho
        refine (ih c hc (t.id :: above) n).1 ?_ o ho
        have hl := levels_le_iff.1 (Nat.le_refl (levels t.children)) c hc
        rw [List.length_cons]
        omega
    · intro h
      have hroot : above.length ≤ n := h ⟨above, t⟩ List.mem_cons_self
      have hl : levels t.children ≤ n - above.length := by
        refine levels_le_iff.2 fun c hc => ?_
        have := (ih c hc (t.id :: above) n).2 fun o ho =>
          h o (List.mem_cons_of_mem _ (mem_forestBelow.2 ⟨c, hc, ho⟩))
        rw [List.length_cons] at this
        omega
      omega

/-- A tree is at most as high as its deepest occurrence. -/
theorem height_le_iff {t : FlowTree} {n : Nat} : t.height ≤ n ↔ ∀ o ∈ t.occurrences, o.depth ≤ n := by
  have := t.height_le_iff_below [] n
  rwa [List.length_nil, Nat.zero_add] at this

/-! ## Parents and children -/

theorem child_mem_occurrencesBelow (t : FlowTree) :
    ∀ (above : List ElementId) {o : Occurrence} {c : FlowTree}, o ∈ t.occurrencesBelow above → c ∈ o.node.children →
      ⟨o.id :: o.above, c⟩ ∈ t.occurrencesBelow above := by
  induction t using induct with
  | node t ih =>
    intro above o c ho hc
    rw [occurrencesBelow_eq] at ho ⊢
    refine List.mem_cons_of_mem _ (mem_forestBelow.2 ?_)
    rcases List.mem_cons.1 ho with rfl | ho
    · exact ⟨c, hc, by rw [occurrencesBelow_eq]; exact List.mem_cons_self⟩
    · obtain ⟨d, hd, ho⟩ := mem_forestBelow.1 ho
      exact ⟨d, hd, ih d hd _ ho hc⟩

theorem root_or_child_below (t : FlowTree) :
    ∀ (above : List ElementId) {o : Occurrence}, o ∈ t.occurrencesBelow above →
      o = ⟨above, t⟩ ∨
        ∃ p ∈ t.occurrencesBelow above, o.above = p.id :: p.above ∧ o.node ∈ p.node.children := by
  induction t using induct with
  | node t ih =>
    intro above o ho
    rw [occurrencesBelow_eq] at ho ⊢
    rcases List.mem_cons.1 ho with rfl | ho
    · exact .inl rfl
    · obtain ⟨c, hc, ho⟩ := mem_forestBelow.1 ho
      right
      rcases ih c hc _ ho with rfl | ⟨p, hp, habove, hchild⟩
      · exact ⟨⟨above, t⟩, List.mem_cons_self, rfl, hc⟩
      · exact ⟨p, List.mem_cons_of_mem _ (mem_forestBelow.2 ⟨c, hc, hp⟩), habove, hchild⟩

theorem root_mem_occurrences (t : FlowTree) : ⟨[], t⟩ ∈ t.occurrences := by
  rw [occurrences, occurrencesBelow_eq]
  exact List.mem_cons_self

/-- A child of a node that occurs in a tree occurs one level below it. -/
theorem child_mem_occurrences {t : FlowTree} {o : Occurrence} {c : FlowTree} (ho : o ∈ t.occurrences)
    (hc : c ∈ o.node.children) : ⟨o.id :: o.above, c⟩ ∈ t.occurrences :=
  t.child_mem_occurrencesBelow [] ho hc

/-- A node that occurs in a tree is its root, or a child of a node one level above. -/
theorem root_or_child {t : FlowTree} {o : Occurrence} (ho : o ∈ t.occurrences) :
    o = ⟨[], t⟩ ∨ ∃ p ∈ t.occurrences, o.above = p.id :: p.above ∧ o.node ∈ p.node.children :=
  t.root_or_child_below [] ho

/-! ## Ancestors -/

/-- What stands above an occurrence occurs there, with a child. -/
theorem exists_above {t : FlowTree} {id : ElementId} {rest : List ElementId} (between : List ElementId) :
    ∀ {o : Occurrence}, o ∈ t.occurrences → o.above = between ++ id :: rest →
      ∃ p ∈ t.occurrences, p.id = id ∧ p.above = rest ∧ p.node.children ≠ [] := by
  induction between with
  | nil =>
    intro o ho habove
    rcases root_or_child ho with rfl | ⟨p, hp, hpo, hchild⟩
    · cases habove
    · rw [hpo] at habove
      cases habove
      exact ⟨p, hp, rfl, rfl, List.ne_nil_of_mem hchild⟩
  | cons a between ih =>
    intro o ho habove
    rcases root_or_child ho with rfl | ⟨p, hp, hpo, -⟩
    · cases habove
    · rw [hpo, List.cons_append] at habove
      exact ih hp (List.cons.inj habove).2

/-- If only one occurrence of each element has children, no element stands above an occurrence twice. -/
theorem nodup_above {t : FlowTree}
    (h : t.occurrences.Pairwise fun o o' => o.id = o'.id → o.node.children = [] ∨ o'.node.children = []) :
    ∀ {o : Occurrence}, o ∈ t.occurrences → o.above.Nodup := by
  -- occurrences at different depths are different ones
  let R : Occurrence → Occurrence → Prop := fun o p =>
    o.depth ≠ p.depth → o.id = p.id → o.node.children = [] ∨ p.node.children = []
  have hR : t.occurrences.Pairwise R := h.imp fun {o p} hop (_ : o.depth ≠ p.depth) => hop
  have hflip : t.occurrences.Pairwise (flip R) := h.imp fun {o p} hop (_ : p.depth ≠ o.depth) hid => (hop hid.symm).symm
  have hleaf : ∀ ⦃o⦄, o ∈ t.occurrences → ∀ ⦃p⦄, p ∈ t.occurrences → R o p :=
    List.Pairwise.forall_of_forall_of_flip (fun o _ hne => absurd rfl hne) hR hflip
  intro o ho
  induction habove : o.above generalizing o with
  | nil => exact List.nodup_nil
  | cons id rest ih =>
    obtain ⟨p, hp, hid, rfl, hpne⟩ := exists_above [] ho habove
    refine List.nodup_cons.2 ⟨fun hmem => ?_, ih hp rfl⟩
    obtain ⟨between, after, hsplit⟩ := List.append_of_mem hmem
    obtain ⟨q, hq, hqid, rfl, hqne⟩ := exists_above between hp hsplit
    have hdepth : p.depth ≠ q.depth := by
      simp only [Occurrence.depth, hsplit, List.length_append, List.length_cons]
      omega
    exact (hleaf hp hq hdepth (hid.trans hqid.symm)).elim hpne hqne

end FlowTree

end ArchFlow
