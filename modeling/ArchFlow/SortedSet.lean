/-!
# Finite sets in order

A `SortedSet α` is a strictly increasing list, so that a finite set has exactly one representation: two sets with the
same members are equal, and sets are compared and printed like lists.

* `SortedSet.ext_mem`: sets with the same members are equal.
* `SortedSet.mem_insert`, `SortedSet.mem_ofList`, `SortedSet.mem_union`, `SortedSet.mem_filter`: the members of a
  set that was built from others.
* `SortedSet.subset_iff`: the inclusion test decides inclusion.
-/

namespace ArchFlow

/-! ## Increasing lists -/

section Lists

variable {α : Type} [Ord α]

/-- Puts an element in its place in an increasing list; one that is there already stays. -/
def insertSorted (x : α) : List α → List α
  | [] => [x]
  | y :: ys =>
    match compare x y with
    | .lt => x :: y :: ys
    | .eq => y :: ys
    | .gt => y :: insertSorted x ys

/-- Every entry of the list is below all that follow it. -/
abbrev Increasing (l : List α) : Prop :=
  l.Pairwise fun a b => compare a b = .lt

/-- Inserting adds one element and loses none. -/
theorem mem_insertSorted [Std.LawfulEqOrd α] {a x : α} {l : List α} :
    a ∈ insertSorted x l ↔ a = x ∨ a ∈ l := by
  induction l with
  | nil => simp [insertSorted]
  | cons y ys ih =>
    unfold insertSorted
    split
    · simp
    · next h => cases Std.LawfulEqCmp.eq_of_compare h; simp
    · simp [ih, or_left_comm]

/-- Inserting keeps the order. -/
theorem Increasing.insertSorted [Std.TransOrd α] [Std.LawfulEqOrd α] {l : List α} (x : α) (h : Increasing l) :
    Increasing (insertSorted x l) := by
  induction l with
  | nil => simp [ArchFlow.insertSorted]
  | cons y ys ih =>
    obtain ⟨hy, hys⟩ := List.pairwise_cons.1 h
    unfold ArchFlow.insertSorted
    split
    · next hxy =>
      refine List.pairwise_cons.2 ⟨fun b hb => ?_, h⟩
      rcases List.mem_cons.1 hb with rfl | hb
      · exact hxy
      · exact Std.TransCmp.lt_trans hxy (hy b hb)
    · exact h
    · next hxy =>
      refine List.pairwise_cons.2 ⟨fun b hb => ?_, ih hys⟩
      rcases mem_insertSorted.1 hb with rfl | hb
      · exact Std.OrientedCmp.lt_of_gt hxy
      · exact hy b hb

/-- An increasing list is determined by its members. -/
theorem Increasing.eq_of_mem_iff [Std.TransOrd α] {l m : List α} (hl : Increasing l) (hm : Increasing m)
    (h : ∀ a, a ∈ l ↔ a ∈ m) : l = m := by
  have irrefl : ∀ a : α, compare a a ≠ .lt := fun a => by simp
  have asymm : ∀ {a b : α}, compare a b = .lt → compare b a ≠ .lt := fun {a b} hab hba =>
    irrefl a (Std.TransCmp.lt_trans hab hba)
  induction l generalizing m with
  | nil =>
    cases m with
    | nil => rfl
    | cons b m => exact absurd ((h b).2 (List.mem_cons_self ..)) (by simp)
  | cons a l ih =>
    cases m with
    | nil => exact absurd ((h a).1 (List.mem_cons_self ..)) (by simp)
    | cons b m =>
      obtain ⟨ha, hl'⟩ := List.pairwise_cons.1 hl
      obtain ⟨hb, hm'⟩ := List.pairwise_cons.1 hm
      have hab : a = b := by
        rcases List.mem_cons.1 ((h a).1 (List.mem_cons_self ..)) with e | hmem
        · exact e
        rcases List.mem_cons.1 ((h b).2 (List.mem_cons_self ..)) with e | hmem'
        · exact e.symm
        exact absurd (hb a hmem) (asymm (ha b hmem'))
      subst hab
      refine congrArg (a :: ·) (ih hl' hm' fun c => ⟨fun hc => ?_, fun hc => ?_⟩)
      · rcases List.mem_cons.1 ((h c).1 (List.mem_cons_of_mem _ hc)) with rfl | hc'
        · exact absurd (ha _ hc) (irrefl _)
        · exact hc'
      · rcases List.mem_cons.1 ((h c).2 (List.mem_cons_of_mem _ hc)) with rfl | hc'
        · exact absurd (hb _ hc) (irrefl _)
        · exact hc'

end Lists

/-! ## Sets -/

/-- A finite set, kept as the increasing list of its members. -/
structure SortedSet (α : Type) [Ord α] where
  /-- The members, in order. -/
  toList : List α
  increasing : Increasing toList

namespace SortedSet

variable {α : Type} [Ord α]

theorem ext_toList {s t : SortedSet α} (h : s.toList = t.toList) : s = t := by
  cases s; cases t; cases h; rfl

instance [DecidableEq α] : DecidableEq (SortedSet α) := fun s t =>
  if h : s.toList = t.toList then isTrue (ext_toList h) else isFalse fun e => h (e ▸ rfl)

instance : Membership α (SortedSet α) := ⟨fun s a => a ∈ s.toList⟩

theorem mem_def {a : α} {s : SortedSet α} : a ∈ s ↔ a ∈ s.toList := Iff.rfl

instance [DecidableEq α] (a : α) (s : SortedSet α) : Decidable (a ∈ s) :=
  inferInstanceAs (Decidable (a ∈ s.toList))

/-- Sets with the same members are equal. -/
theorem ext_mem [Std.TransOrd α] {s t : SortedSet α} (h : ∀ a, a ∈ s ↔ a ∈ t) : s = t :=
  ext_toList (s.increasing.eq_of_mem_iff t.increasing h)

/-- Sets are ordered as the lists of their members are. -/
instance : Ord (SortedSet α) := ⟨fun s t => compare s.toList t.toList⟩

instance [Std.TransOrd α] : Std.TransOrd (SortedSet α) where
  eq_swap {s t} := @Std.OrientedCmp.eq_swap (List α) compare _ s.toList t.toList
  isLE_trans {s t u} := @Std.TransCmp.isLE_trans (List α) compare _ s.toList t.toList u.toList

instance [Std.LawfulEqOrd α] : Std.LawfulEqOrd (SortedSet α) where
  compare_self {s} := @Std.ReflCmp.compare_self (List α) compare _ s.toList
  eq_of_compare h := ext_toList (Std.LawfulEqCmp.eq_of_compare h)

/-- The set without members. -/
def empty : SortedSet α := ⟨[], List.Pairwise.nil⟩

instance : EmptyCollection (SortedSet α) := ⟨empty⟩

/-- The set of a single element. -/
def singleton (a : α) : SortedSet α := ⟨[a], List.pairwise_singleton ..⟩

/-- Number of members. -/
def size (s : SortedSet α) : Nat := s.toList.length

/-- Whether the set has no member. -/
def isEmpty (s : SortedSet α) : Bool := s.toList.isEmpty

/-- The members that satisfy a test. -/
def filter (p : α → Bool) (s : SortedSet α) : SortedSet α :=
  ⟨s.toList.filter p, s.increasing.filter p⟩

/-- Whether each member of `s` is a member of `t`. -/
def subset [DecidableEq α] (s t : SortedSet α) : Bool := s.toList.all (· ∈ t.toList)

@[simp] theorem not_mem_empty {a : α} : ¬ a ∈ (empty : SortedSet α) := List.not_mem_nil

@[simp] theorem mem_singleton {a b : α} : a ∈ singleton b ↔ a = b := List.mem_singleton

@[simp] theorem mem_filter {p : α → Bool} {s : SortedSet α} {a : α} : a ∈ s.filter p ↔ a ∈ s ∧ p a = true :=
  List.mem_filter

/-- The inclusion test decides inclusion. -/
theorem subset_iff [DecidableEq α] {s t : SortedSet α} : s.subset t = true ↔ ∀ a, a ∈ s → a ∈ t := by
  simp [subset, List.all_eq_true, mem_def]

variable [Std.TransOrd α] [Std.LawfulEqOrd α]

/-- Adds an element. -/
def insert (a : α) (s : SortedSet α) : SortedSet α :=
  ⟨insertSorted a s.toList, s.increasing.insertSorted a⟩

/-- The set of the elements of a list. -/
def ofList : List α → SortedSet α
  | [] => empty
  | a :: l => (ofList l).insert a

/-- The set of the elements of either set. -/
def union (s t : SortedSet α) : SortedSet α := ofList (s.toList ++ t.toList)

/-- Inserting adds one element and loses none. -/
@[simp] theorem mem_insert {a b : α} {s : SortedSet α} : a ∈ s.insert b ↔ a = b ∨ a ∈ s := mem_insertSorted

/-- The set of a list has the members of the list, in whatever order and number they come. -/
@[simp] theorem mem_ofList {a : α} {l : List α} : a ∈ ofList l ↔ a ∈ l := by
  induction l with
  | nil => simp [ofList]
  | cons b l ih => simp [ofList, ih]

/-- A union has the members of both sets. -/
@[simp] theorem mem_union {a : α} {s t : SortedSet α} : a ∈ s.union t ↔ a ∈ s ∨ a ∈ t := by
  rw [union, mem_ofList, List.mem_append]; rfl

end SortedSet

end ArchFlow
