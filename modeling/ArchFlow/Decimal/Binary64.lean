/-!
# Rounding to binary floating point

Non-negative numbers with a 53-bit significand, as `mantissa · 2 ^ exponent`. Each operation computes the exact
quotient of two naturals and rounds it to the nearest such number, to the even one of two equally near.

* `Binary64.ofRatio`: rounding a quotient; there is no result beyond the largest number.
* `Binary64.scale`: a whole number times or over a power of ten, as the reader of JSON numbers computes it.
-/

namespace ArchFlow

/-- The number `mantissa · 2 ^ exponent`. -/
structure Binary64 where
  mantissa : Nat
  exponent : Int
deriving DecidableEq

namespace Binary64

/-- A power of two. -/
def powerOfTwo (n : Nat) : Nat := Nat.pow 2 n

/-- A power of ten. -/
def powerOfTen (n : Nat) : Nat := Nat.pow 10 n

/-- The least significand of fifty-three binary digits. -/
def leastFull : Nat := powerOfTwo 52

/-- Zero, at the least exponent. -/
def zero : Binary64 := ⟨0, -1074⟩

/-- The quotient rounded to the nearest whole number, to the even one of two. -/
def roundDiv (num den : Nat) : Nat :=
  let q := num / den
  let twice := 2 * (num % den)
  if twice < den then q else if den < twice then q + 1 else q + q % 2

/-- `num · 2 ^ (-e) / den` as a quotient of naturals. -/
def shifted (num den : Nat) (e : Int) : Nat × Nat :=
  if 0 ≤ e then (num, den * powerOfTwo e.toNat) else (num * powerOfTwo (-e).toNat, den)

/-- The exponent that gives a positive quotient fifty-three binary digits, but at least `-1074`. -/
def exponentOf (num den : Nat) : Int :=
  let guess : Int := (num.log2 : Int) - (den.log2 : Int) - 52
  let (n, d) := shifted num den guess
  let e := if n < d * leastFull then guess - 1 else guess
  max e (-1074)

/-- The nearest number to `num / den`; `none` if that is beyond the largest one. -/
def ofRatio (num den : Nat) : Option Binary64 :=
  if num = 0 then some zero
  else
    let e := exponentOf num den
    let (n, d) := shifted num den e
    let m := roundDiv n d
    let r : Binary64 := if m = 2 * leastFull then ⟨leastFull, e + 1⟩ else ⟨m, e⟩
    if 971 < r.exponent then none else some r

/-- The number as a quotient of naturals. -/
def toRatio (x : Binary64) : Nat × Nat :=
  if 0 ≤ x.exponent then (x.mantissa * powerOfTwo x.exponent.toNat, 1)
  else (x.mantissa, powerOfTwo (-x.exponent).toNat)

/-- The rounded product. -/
def mul (x y : Binary64) : Option Binary64 :=
  let (a, b) := x.toRatio
  let (c, d) := y.toRatio
  ofRatio (a * c) (b * d)

/-- The rounded quotient. -/
def div (x y : Binary64) : Option Binary64 :=
  let (a, b) := x.toRatio
  let (c, d) := y.toRatio
  ofRatio (a * d) (b * c)

/-- A whole number times ten to the power `e`, with a rounding after each factor: of the number, of the power, and of
their product or quotient. Powers beyond `10 ^ 308` are divided off in two steps. -/
def scale (n : Nat) (e : Int) : Option Binary64 := do
  let x ← ofRatio n 1
  if x.mantissa = 0 then return zero
  if 308 < e then none
  else if 0 ≤ e then x.mul (← ofRatio (powerOfTen e.toNat) 1)
  else if -308 ≤ e then x.div (← ofRatio (powerOfTen (-e).toNat) 1)
  else if -616 ≤ e then (← x.div (← ofRatio (powerOfTen 308) 1)).div (← ofRatio (powerOfTen (-e - 308).toNat) 1)
  else return zero

end Binary64

end ArchFlow
