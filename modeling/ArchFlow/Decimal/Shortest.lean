import ArchFlow.Decimal.Binary64

/-!
# The shortest decimal that reads back

Of the decimals that round to a given binary number, the ones with the fewest digits are found by trying the two
neighbours of the number on ever finer decimal grids; of two that fit, the nearer one is taken.

* `Shortest.digits`: the digits and the decimal exponent of the first of them.
* `Shortest.text`: their layout, positional from `1e-5` up to below `1e16`.
-/

namespace ArchFlow

namespace Shortest

open Binary64 (powerOfTen leastFull)

/-- Decimal digits `d` with the value `d · 10 ^ exponent`. -/
structure Decimal where
  digits : Nat
  exponent : Int

/-- `a / b ≤ c / d`. -/
def ratioLe (x y : Nat × Nat) : Bool := x.1 * y.2 ≤ y.1 * x.2

/-- `d · 10 ^ exponent` as a quotient of naturals. -/
def Decimal.toRatio (d : Decimal) : Nat × Nat :=
  if 0 ≤ d.exponent then (d.digits * powerOfTen d.exponent.toNat, 1) else (d.digits, powerOfTen (-d.exponent).toNat)

/-- Whether the decimal rounds to the binary number; the ends of the interval count if the mantissa is even. -/
def readsBack (x : Binary64) (d : Decimal) : Bool :=
  let quarter := (⟨1, x.exponent - 2⟩ : Binary64).toRatio
  let below := if x.mantissa = leastFull ∧ -1074 < x.exponent then 4 * x.mantissa - 1 else 4 * x.mantissa - 2
  let low := (below * quarter.1, quarter.2)
  let high := ((4 * x.mantissa + 2) * quarter.1, quarter.2)
  let v := d.toRatio
  if x.mantissa % 2 = 0 then ratioLe low v && ratioLe v high else !ratioLe v low && !ratioLe high v

/-- The exponent of the first digit of a positive quotient. -/
def leadingExponent (r : Nat × Nat) : Int :=
  let guess : Int := ((Nat.toDigits 10 r.1).length : Int) - (Nat.toDigits 10 r.2).length
  if ratioLe (Decimal.toRatio ⟨1, guess⟩) r then guess else guess - 1

/-- The neighbour of the number on the grid of `n` digits that reads back, the nearer one of two. -/
def onGrid (x : Binary64) (n : Nat) : Option Decimal :=
  let r := x.toRatio
  let e := leadingExponent r - (n : Int) + 1
  let (num, den) := if 0 ≤ e then (r.1, r.2 * powerOfTen e.toNat) else (r.1 * powerOfTen (-e).toNat, r.2)
  let q := num / den
  let low : Decimal := ⟨q, e⟩
  let high : Decimal := ⟨q + 1, e⟩
  let nearer := if 2 * (num % den) < den ∨ (2 * (num % den) = den ∧ q % 2 = 0) then [low, high] else [high, low]
  nearer.find? (readsBack x)

/-- Drops zeros at the end of the digits; `fuel` bounds their number. -/
def trim : Nat → Decimal → Decimal
  | 0, d => d
  | fuel + 1, d => if d.digits ≠ 0 ∧ d.digits % 10 = 0 then trim fuel ⟨d.digits / 10, d.exponent + 1⟩ else d

/-- The shortest decimal that reads back as a positive number. -/
def digits (x : Binary64) : Decimal :=
  match (List.range 17).findSome? fun n => onGrid x (n + 1) with
  | some d => trim 17 d
  | none => ⟨0, 0⟩

/-- Digits with a point after the first `n`, padded by zeros on either side. -/
def positional (ds : List Char) (n : Int) : List Char :=
  if n ≤ 0 then '0' :: '.' :: List.replicate (-n).toNat '0' ++ ds
  else if ds.length ≤ n.toNat then ds ++ List.replicate (n.toNat - ds.length) '0' ++ ['.', '0']
  else ds.take n.toNat ++ '.' :: ds.drop n.toNat

/-- Digits with a point after the first one and an exponent with its sign. -/
def scientific (ds : List Char) (e : Int) : List Char :=
  let fraction := ds.drop 1
  let exponent := (if 0 ≤ e then ['+'] else ['-']) ++ Nat.toDigits 10 e.natAbs
  ds.take 1 ++ (if fraction.isEmpty then [] else '.' :: fraction) ++ 'e' :: exponent

/-- The text of a number. -/
def text (negative : Bool) (x : Binary64) : String :=
  let d := digits x
  let ds := Nat.toDigits 10 d.digits
  let e := d.exponent + (ds.length : Int) - 1
  let body :=
    if x.mantissa = 0 then ['0', '.', '0']
    else if -5 ≤ e ∧ e ≤ 15 then positional ds (e + 1)
    else scientific ds e
  String.ofList (if negative then '-' :: body else body)

end Shortest

end ArchFlow
