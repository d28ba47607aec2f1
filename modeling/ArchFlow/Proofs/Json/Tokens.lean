import ArchFlow.Json.Document

/-!
# Literals and numbers that are read back

* `Literal.read_flatMap`: a literal is read as its text, whatever characters the text is made of.
* `Number.read_toDigits`: the digits of a whole number of sixty-four bits are read as the number, unless what follows
  prolongs it.
-/

namespace ArchFlow.Json

/-! ## Literals -/

namespace Literal

theorem hexValue?_hexDigit : ∀ n, n < 16 → hexValue? (hexDigit n) = some n := by decide

theorem unit?_control {n : Nat} (h : n < 32) :
    unit? '0' '0' (hexDigit (n / 16)) (hexDigit (n % 16)) = some n := by
  have hzero : hexValue? '0' = some 0 := by decide
  have hhigh := hexValue?_hexDigit (n / 16) (by omega)
  have hlow := hexValue?_hexDigit (n % 16) (by omega)
  simp [unit?, hzero, hhigh, hlow]
  omega

/-- The written form of a character is read as the character. -/
theorem read_escapeChar (c : Char) (cs : List Char) : read (escapeChar c ++ cs) = prepend c (read cs) := by
  unfold escapeChar
  split
  · subst_vars; simp [read, named?]
  split
  · subst_vars; simp [read, named?]
  split
  · subst_vars; simp [read, named?]
  split
  · subst_vars; simp [read, named?]
  split
  · subst_vars; simp [read, named?]
  split
  · subst_vars; simp [read, named?]
  split
  · subst_vars; simp [read, named?]
  split
  · next h =>
    have hunit := unit?_control h
    have hlow : isLowSurrogate c.toNat = false := by simp [isLowSurrogate]; omega
    have hhigh : isHighSurrogate c.toNat = false := by simp [isHighSurrogate]; omega
    simp [read, hunit, hlow, hhigh]
  · next hquote hbackslash _ _ _ _ _ h =>
    -- all cases of the reader but the last begin with a quote or a backslash
    rw [List.singleton_append, read, if_neg h] <;> intros <;> contradiction

theorem read_flatMap (s cs : List Char) : read (s.flatMap escapeChar ++ '"' :: cs) = .ok (s, cs) := by
  induction s with
  | nil => simp [read]
  | cons c s ih =>
    rw [List.flatMap_cons, List.append_assoc, read_escapeChar, ih]
    rfl

end Literal

/-- A literal is read as the text that it was written for. -/
theorem readLiteral_quote (s : String) (cs : List Char) :
    ∃ quoted, Literal.quote s.toList ++ cs = '"' :: quoted ∧ readLiteral quoted = (.ok s, some cs) := by
  refine ⟨s.toList.flatMap Literal.escapeChar ++ '"' :: cs, by simp [Literal.quote], ?_⟩
  rw [readLiteral, Literal.read_flatMap]
  simp

/-! ## Numbers -/

namespace Number

/-- The text does not prolong a number that stands before it. -/
def EndsBefore (cs : List Char) : Prop :=
  ∀ c, cs.head? = some c → c.isDigit = false ∧ c ≠ '.' ∧ c ≠ 'e' ∧ c ≠ 'E'

theorem endsBefore_nil : EndsBefore [] := by simp [EndsBefore]

theorem endsBefore_cons {c : Char} (h : c = ',' ∨ c = '\n' ∨ c = ']' ∨ c = '}') (cs : List Char) :
    EndsBefore (c :: cs) := by
  intro d hd
  obtain rfl : c = d := Option.some.inj hd
  rcases h with rfl | rfl | rfl | rfl <;> decide

theorem digits_append {ds cs : List Char} (hds : ∀ c ∈ ds, c.isDigit = true) (hcs : EndsBefore cs) :
    digits (ds ++ cs) = (ds, cs) := by
  have htake : cs.takeWhile Char.isDigit = [] ∧ cs.dropWhile Char.isDigit = cs := by
    cases cs with
    | nil => simp
    | cons c cs => simp [(hcs c rfl).1]
  rw [digits, List.takeWhile_append_of_pos hds, List.dropWhile_append_of_pos hds, htake.1, htake.2, List.append_nil]

theorem value_toDigits (n : Nat) : value (Nat.toDigits 10 n) = n := by
  have hvalue : ∀ (ds : List Char) (m : Nat),
      ds.foldl (fun n c => n * 10 + digitValue c) m = Nat.ofDigitChars 10 ds m := by
    intro ds
    induction ds with
    | nil => intro m; rfl
    | cons d ds ih =>
      intro m
      rw [List.foldl_cons, ih, Nat.mul_comm]
      rfl
  rw [value, hvalue, Nat.ofDigitChars_toDigits] <;> decide

theorem head?_toDigits_append (n : Nat) (cs : List Char) :
    (Nat.toDigits 10 n ++ cs).head? = (Nat.toDigits 10 n).head? := by
  rw [List.head?_append, List.head?_eq_some_head Nat.toDigits_ne_nil, Option.some_or]

theorem exists_toDigits (n : Nat) : ∃ c ds, Nat.toDigits 10 n = c :: ds ∧ c.isDigit = true := by
  obtain ⟨c, ds, h⟩ := List.exists_cons_of_ne_nil (Nat.toDigits_ne_nil (n := n) (b := 10))
  exact ⟨c, ds, h, Nat.isDigit_of_mem_toDigits (by decide) (by decide) (h ▸ List.mem_cons_self)⟩

/-- The digits of a positive number do not begin with zero. -/
theorem head?_toDigits_ne : ∀ n, 0 < n → (Nat.toDigits 10 n).head? ≠ some '0' := by
  intro n
  induction n using Nat.strongRecOn with
  | ind n ih =>
    intro hn
    rw [Nat.toDigits_eq_if (by decide)]
    split
    · next hsmall =>
      have hdigit : ∀ d, d < 10 → 0 < d → some d.digitChar ≠ some '0' := by decide
      exact hdigit n hsmall hn
    · next hlarge =>
      have hrest := ih (n / 10) (by omega) (by omega)
      rwa [head?_toDigits_append]

theorem readWhole_toDigits (n : Nat) {cs : List Char} (hcs : EndsBefore cs) :
    readWhole (Nat.toDigits 10 n ++ cs) = .ok (Nat.toDigits 10 n, cs) := by
  have hdigits : ∀ c ∈ Nat.toDigits 10 n, c.isDigit = true := fun c hc =>
    Nat.isDigit_of_mem_toDigits (by decide) (by decide) hc
  rw [readWhole, digits_append hdigits hcs]
  split
  · next h => exact absurd (congrArg Prod.fst h) Nat.toDigits_ne_nil
  · next h =>
    have hzero := congrArg Prod.fst h
    dsimp only at hzero
    by_cases hn : 0 < n
    · exact absurd (by rw [hzero]; rfl) (head?_toDigits_ne n hn)
    · obtain rfl : n = 0 := by omega
      rw [Nat.toDigits_of_lt_base (by decide)] at hzero
      cases hzero
  · next h => rw [h]

/-- A whole number of sixty-four bits is read as itself. -/
theorem read_toDigits {n : Nat} (hn : n ≤ maxNatural) {cs : List Char} (hcs : EndsBefore cs) :
    read (Nat.toDigits 10 n ++ cs) = .ok (.natural n, cs) := by
  have hminus : (Nat.toDigits 10 n ++ cs).head? ≠ some '-' := by
    rw [head?_toDigits_append]
    intro h
    have hdigit := Nat.isDigit_of_mem_toDigits (by decide) (by decide) (List.mem_of_head? h)
    exact absurd hdigit (by decide)
  have hfraction : readFraction cs = .ok (none, cs) := by
    unfold readFraction
    split
    · exact absurd rfl (hcs '.' rfl).2.1
    · rfl
  have hexponent : readExponent cs = .ok (none, cs) := by
    cases cs with
    | nil => rfl
    | cons c cs =>
      obtain ⟨-, -, he, hE⟩ := hcs c rfl
      simp [readExponent, he, hE]
  have hparts : readParts (Nat.toDigits 10 n ++ cs) = .ok (⟨Nat.toDigits 10 n, none, none⟩, cs) := by
    rw [readParts, readWhole_toDigits n hcs]
    simp [bind, Except.bind, hfraction, hexponent, pure, Except.pure]
  have hnumber : ofParts false ⟨Nat.toDigits 10 n, none, none⟩ = .ok (.natural n) := by
    simp [ofParts, value_toDigits, hn]
  unfold read
  simp only [hminus, decide_false, if_false, hparts, hnumber, bind, Except.bind, pure, Except.pure]

end Number

end ArchFlow.Json
