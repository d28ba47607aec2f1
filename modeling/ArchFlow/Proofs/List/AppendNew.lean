import Mathlib.Data.List.Induction

/-!
# Entries in the order in which they first occur

Appending entries one by one, unless they are there already, lists what occurs, each entry once.

* `mem_appendAllNew`, `nodup_appendAllNew`: the list has the entries of both lists, and none twice.
* `appendAllNew_nil`: appending all entries of a list to nothing is erasing those that occurred before.
* `appendAllNew_flatMap_eraseDups`: what occurs in parts that are listed in this way.
* `eraseDups_append_congr`, `eraseDups_append_of_subset`: what comes after other entries.
* `eraseDups_flatMap_eraseDups`: what entries stand for, if each of them counts once.
-/

namespace ArchFlow

variable {α : Type} [DecidableEq α]

/-- Appends an entry, unless it is there already. -/
def appendNew (l : List α) (a : α) : List α := if a ∈ l then l else l ++ [a]

/-- Appends entries in turn, unless they are there already. -/
def appendAllNew (l as : List α) : List α := as.foldl appendNew l

variable {l as : List α} {a b : α}

theorem mem_appendNew : b ∈ appendNew l a ↔ b ∈ l ∨ b = a := by
  rw [appendNew]
  split
  · next ha =>
    constructor
    · exact .inl
    · rintro (hb | rfl)
      · exact hb
      · exact ha
  · simp

theorem nodup_appendNew (h : l.Nodup) : (appendNew l a).Nodup := by
  rw [appendNew]
  split
  · exact h
  · next ha =>
    refine List.nodup_append.2 ⟨h, by simp, fun b hb c hc => ?_⟩
    rintro rfl
    exact ha (List.mem_singleton.1 hc ▸ hb)

theorem mem_appendAllNew : b ∈ appendAllNew l as ↔ b ∈ l ∨ b ∈ as := by
  induction as generalizing l with
  | nil => simp [appendAllNew]
  | cons a as ih =>
    have hstep : b ∈ appendAllNew (appendNew l a) as ↔ b ∈ appendNew l a ∨ b ∈ as := ih
    rw [mem_appendNew, or_assoc, ← List.mem_cons] at hstep
    exact hstep

theorem nodup_appendAllNew (h : l.Nodup) : (appendAllNew l as).Nodup := by
  induction as generalizing l with
  | nil => exact h
  | cons a as ih => exact ih (nodup_appendNew h)

theorem map_appendNew {β : Type} [DecidableEq β] {f : α → β} (hf : ∀ ⦃a b⦄, f a = f b → a = b) (l : List α) (a : α) :
    (appendNew l a).map f = appendNew (l.map f) (f a) := by
  have hmem : f a ∈ l.map f ↔ a ∈ l := by
    constructor
    · intro h
      obtain ⟨b, hb, hba⟩ := List.mem_map.1 h
      exact hf hba ▸ hb
    · exact List.mem_map_of_mem
  by_cases ha : a ∈ l
  · rw [appendNew, appendNew, if_pos ha, if_pos (hmem.2 ha)]
  · rw [appendNew, appendNew, if_neg ha, if_neg fun h => ha (hmem.1 h), List.map_append]
    rfl

/-- Entries that are told apart by their images are new where these are. -/
theorem map_appendAllNew {β : Type} [DecidableEq β] {f : α → β} (hf : ∀ ⦃a b⦄, f a = f b → a = b) (l as : List α) :
    (appendAllNew l as).map f = appendAllNew (l.map f) (as.map f) := by
  induction as generalizing l with
  | nil => rfl
  | cons a as ih =>
    have hstep : (appendAllNew (appendNew l a) as).map f = appendAllNew ((appendNew l a).map f) (as.map f) := ih _
    rw [map_appendNew hf] at hstep
    exact hstep

theorem appendAllNew_append (l as bs : List α) :
    appendAllNew l (as ++ bs) = appendAllNew (appendAllNew l as) bs :=
  List.foldl_append

theorem appendAllNew_eq (l as : List α) : appendAllNew l as = l ++ (as.filter (· ∉ l)).eraseDups := by
  induction as generalizing l with
  | nil => simp [appendAllNew]
  | cons a as ih =>
    show appendAllNew (appendNew l a) as = _
    rw [ih, appendNew]
    by_cases ha : a ∈ l
    · simp [ha]
    · have hrest : as.filter (· ∉ l ++ [a]) = (as.filter (· ∉ l)).filter (!· == a) := by
        rw [List.filter_filter]
        refine List.filter_congr fun b _ => ?_
        simp [Bool.and_comm, Bool.beq_eq_decide_eq]
      rw [if_neg ha, hrest, List.filter_cons_of_pos (by simpa using ha), List.eraseDups_cons, List.append_assoc,
        List.singleton_append]

/-- Entries of a list in the order in which they first occur. -/
theorem appendAllNew_nil (as : List α) : appendAllNew [] as = as.eraseDups := by
  have hall : as.filter (· ∉ ([] : List α)) = as := List.filter_eq_self.2 fun a _ => by simp
  rw [appendAllNew_eq, hall, List.nil_append]

theorem nodup_eraseDups (as : List α) : as.eraseDups.Nodup := by
  rw [← appendAllNew_nil]
  exact nodup_appendAllNew List.nodup_nil

/-! ## Parts -/

theorem appendAllNew_appendNew (l m : List α) (a : α) :
    appendAllNew l (appendNew m a) = appendNew (appendAllNew l m) a := by
  by_cases ha : a ∈ m
  · rw [appendNew, if_pos ha, appendNew, if_pos (mem_appendAllNew.2 (.inr ha))]
  · rw [appendNew, if_neg ha, appendAllNew_append]
    rfl

theorem appendAllNew_appendAllNew (l m as : List α) :
    appendAllNew l (appendAllNew m as) = appendAllNew (appendAllNew l m) as := by
  induction as generalizing m with
  | nil => rfl
  | cons a as ih =>
    have hstep : appendAllNew l (appendAllNew (appendNew m a) as) = appendAllNew (appendAllNew l (appendNew m a)) as :=
      ih (appendNew m a)
    rw [appendAllNew_appendNew] at hstep
    exact hstep

theorem appendAllNew_eraseDups (l as : List α) : appendAllNew l as.eraseDups = appendAllNew l as := by
  rw [← appendAllNew_nil, appendAllNew_appendAllNew]
  rfl

/-- It makes no difference whether parts list their own entries once. -/
theorem appendAllNew_flatMap_eraseDups {β : Type} (g : β → List α) (bs : List β) (l : List α) :
    appendAllNew l (bs.flatMap fun b => (g b).eraseDups) = appendAllNew l (bs.flatMap g) := by
  induction bs generalizing l with
  | nil => rfl
  | cons b bs ih =>
    rw [List.flatMap_cons, List.flatMap_cons, appendAllNew_append, appendAllNew_append, appendAllNew_eraseDups, ih]

/-! ## What comes after other entries -/

theorem eraseDups_append_eq (as bs : List α) : (as ++ bs).eraseDups = appendAllNew as.eraseDups bs.eraseDups := by
  rw [appendAllNew_eraseDups, ← appendAllNew_nil, ← appendAllNew_nil, appendAllNew_append]

theorem eraseDups_append_congr {as as' bs bs' : List α} (ha : as.eraseDups = as'.eraseDups)
    (hb : bs.eraseDups = bs'.eraseDups) : (as ++ bs).eraseDups = (as' ++ bs').eraseDups := by
  rw [eraseDups_append_eq, eraseDups_append_eq, ha, hb]

theorem eraseDups_concat (as : List α) (a : α) :
    (as ++ [a]).eraseDups = if a ∈ as then as.eraseDups else as.eraseDups ++ [a] := by
  have hstep : (as ++ [a]).eraseDups = appendNew as.eraseDups a := eraseDups_append_eq as [a]
  simp only [hstep, appendNew, List.mem_eraseDups]

/-- Entries that occurred before make no difference. -/
theorem eraseDups_append_of_subset {bs : List α} (h : bs ⊆ as) : (as ++ bs).eraseDups = as.eraseDups := by
  have hnone : bs.filter (· ∉ as.eraseDups) = [] := List.filter_eq_nil_iff.2 fun b hb => by simp [h hb]
  rw [eraseDups_append_eq, appendAllNew_eraseDups, appendAllNew_eq, hnone, List.eraseDups_nil, List.append_nil]

/-- What entries stand for does not change where each of them counts once. -/
theorem eraseDups_flatMap_eraseDups {β : Type} [DecidableEq β] (f : β → List α) (bs : List β) :
    (bs.eraseDups.flatMap f).eraseDups = (bs.flatMap f).eraseDups := by
  induction bs using List.reverseRecOn with
  | nil => rfl
  | append_singleton bs b ih =>
    rw [List.flatMap_append, List.flatMap_singleton, eraseDups_concat]
    split
    · next hb =>
      have hold : f b ⊆ bs.flatMap f := fun a ha => List.mem_flatMap.2 ⟨b, hb, ha⟩
      rw [ih, eraseDups_append_of_subset hold]
    · rw [List.flatMap_append, List.flatMap_singleton]
      exact eraseDups_append_congr ih rfl

end ArchFlow
