import Mathlib.Algebra.GroupWithZero.Nat

/-!
# Lines of texts

A line break divides two lines, so a text that ends with one has an empty last line.

* `linesOf_join_breaks`: texts that each end with a line break take their own lines, one after the other.
* `length_flatMap_linesOf`: every line break in a text makes one line more of it.
* `flatMap_linesOf_eq_self_iff`: texts are lines if there is no line break in any of them.
-/

namespace ArchFlow

/-- The lines of a text: what stands between its line breaks. -/
def linesOf (text : String) : List String := (text.toList.splitOn '\n').map String.ofList

/-- The number of line breaks in a text. -/
def breaksIn (text : String) : Nat := text.toList.count '\n'

variable {s : String} {ss : List String}

/-! ## Line breaks -/

theorem breaksIn_eq_zero_iff : breaksIn s = 0 ↔ '\n' ∉ s.toList := List.count_eq_zero

theorem breaksIn_append (s t : String) : breaksIn (s ++ t) = breaksIn s + breaksIn t := by
  rw [breaksIn, String.toList_append, List.count_append]
  rfl

/-- There are no line breaks among the digits of a number. -/
theorem breaksIn_toString (n : Nat) : breaksIn (toString n) = 0 := by
  rw [breaksIn_eq_zero_iff, Nat.toString_eq_ofList_toDigits, String.toList_ofList]
  intro hbreak
  have hdigit := Nat.isDigit_of_mem_toDigits (by decide) (by decide) hbreak
  exact absurd hdigit (by decide)

/-! ## Lines -/

/-- The lines before and after a line break. -/
theorem linesOf_append_break (s t : String) : linesOf (s ++ "\n" ++ t) = linesOf s ++ linesOf t := by
  have htext : (s ++ "\n" ++ t).toList = s.toList ++ '\n' :: t.toList := by simp
  rw [linesOf, htext, List.splitOn_append_cons_self, List.map_append]
  rfl

/-- Texts that each end with a line break take their own lines, one after the other. -/
theorem linesOf_join_breaks (ss : List String) :
    linesOf (String.join (ss.map (· ++ "\n"))) = ss.flatMap linesOf ++ [""] := by
  induction ss with
  | nil => rfl
  | cons s ss ih =>
    rw [List.map_cons, String.join_cons, linesOf_append_break, ih, List.flatMap_cons, List.append_assoc]

theorem linesOf_of_not_mem (h : '\n' ∉ s.toList) : linesOf s = [s] := by
  rw [linesOf, List.splitOn_eq_singleton h, List.map_singleton, String.ofList_toList]

/-- A text has one line more than it has line breaks. -/
theorem length_linesOf (s : String) : (linesOf s).length = breaksIn s + 1 := by
  rw [linesOf, List.length_map, breaksIn]
  induction s.toList with
  | nil => rfl
  | cons c cs ih =>
    rw [List.splitOn_cons_eq_if_modifyHead, List.count_cons]
    split
    · next hbreak => rw [List.length_cons, ih]
    · rw [List.length_modifyHead, ih, Nat.add_zero]

/-- Every line break in a text makes one line more of it. -/
theorem length_flatMap_linesOf (ss : List String) :
    (ss.flatMap linesOf).length = ss.length + (ss.map breaksIn).sum := by
  induction ss with
  | nil => rfl
  | cons s ss ih =>
    rw [List.flatMap_cons, List.length_append, length_linesOf, ih, List.length_cons, List.map_cons, List.sum_cons]
    omega

/-- Texts are lines if there is no line break in any of them. -/
theorem flatMap_linesOf_eq_self_iff : ss.flatMap linesOf = ss ↔ ∀ s ∈ ss, breaksIn s = 0 := by
  constructor
  · intro h
    have hlength := length_flatMap_linesOf ss
    rw [h] at hlength
    have hnone : (ss.map breaksIn).sum = 0 := by omega
    exact fun s hs => List.sum_eq_zero_iff_forall_eq_nat.1 hnone _ (List.mem_map_of_mem hs)
  · intro h
    induction ss with
    | nil => rfl
    | cons s ss ih =>
      have hs : linesOf s = [s] := linesOf_of_not_mem (breaksIn_eq_zero_iff.1 (h s List.mem_cons_self))
      rw [List.flatMap_cons, hs, ih fun t ht => h t (List.mem_cons_of_mem _ ht)]
      rfl

end ArchFlow
