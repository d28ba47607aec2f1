import ArchFlow.Decimal.Shortest
import ArchFlow.Json.Literal

/-!
# Numbers

A number is whole if it has neither a fraction nor an exponent and fits sixty-four bits; any other one is rounded to
binary floating point.

* `Number.read`: a number and what follows it. One beyond the largest binary number is an error.
* `Number.skip`: what follows a number whose value nobody wants.
-/

namespace ArchFlow.Json

/-- A number of a text. -/
inductive Number
  /-- A whole number below `2 ^ 64`. -/
  | natural (n : Nat)
  /-- The negative of a positive whole number up to `2 ^ 63`. -/
  | negative (n : Nat)
  /-- Any other number, by sign and rounded magnitude. -/
  | fraction (negative : Bool) (magnitude : Binary64)
deriving DecidableEq

namespace Number

/-- The value of a decimal digit. -/
def digitValue (c : Char) : Nat := c.toNat - 48

/-- The largest whole number of sixty-four bits. -/
def maxNatural : Nat := UInt64.size - 1

/-- Digits that are read so far: a whole number of sixty-four bits, and the power of ten that it has to be taken
times. -/
structure Significand where
  digits : Nat
  exponent : Int

/-- The digits before the point; those past sixty-four bits only count. -/
def wholeDigits (s : Significand) : List Char → Significand
  | [] => s
  | c :: cs =>
    if s.exponent = 0 ∧ s.digits * 10 + digitValue c ≤ maxNatural then
      wholeDigits ⟨s.digits * 10 + digitValue c, 0⟩ cs
    else ⟨s.digits, s.exponent + (cs.length + 1)⟩

/-- The digits after the point, up to the first that goes past sixty-four bits. -/
def fractionDigits (s : Significand) : List Char → Significand
  | [] => s
  | c :: cs =>
    if s.digits * 10 + digitValue c ≤ maxNatural then
      fractionDigits ⟨s.digits * 10 + digitValue c, s.exponent - 1⟩ cs
    else s

/-- The value of decimal digits. -/
def value (ds : List Char) : Nat := ds.foldl (fun n c => n * 10 + digitValue c) 0

/-- Decimal digits at the head of a text, and the rest. -/
def digits (cs : List Char) : List Char × List Char := (cs.takeWhile Char.isDigit, cs.dropWhile Char.isDigit)

/-- Why no digit stands where one has to. -/
def noDigit (rest : List Char) : Cause := if rest.isEmpty then .truncated else .malformed

/-- The parts of a number: its digits before the point, its places after it, and its power of ten. -/
structure Parts where
  whole : List Char
  places : Option (List Char)
  power : Option (Bool × List Char)

/-- The digits before the point: a single zero, or digits that do not begin with zero. -/
def readWhole (cs : List Char) : Except Cause (List Char × List Char) :=
  match digits cs with
  | ([], rest) => .error (noDigit rest)
  | ('0' :: _ :: _, _) => .error .malformed
  | (ds, rest) => .ok (ds, rest)

/-- The point and digits after it, if there is a point. -/
def readFraction : List Char → Except Cause (Option (List Char) × List Char)
  | '.' :: cs =>
    match digits cs with
    | ([], rest) => .error (noDigit rest)
    | (ds, rest) => .ok (some ds, rest)
  | cs => .ok (none, cs)

/-- The sign of an exponent: whether it is negative, and the rest. -/
def exponentSign : List Char → Bool × List Char
  | '+' :: cs => (false, cs)
  | '-' :: cs => (true, cs)
  | cs => (false, cs)

/-- The mark, sign and digits of an exponent, if there is a mark. -/
def readExponent : List Char → Except Cause (Option (Bool × List Char) × List Char)
  | c :: cs =>
    if c = 'e' ∨ c = 'E' then
      let (minus, cs) := exponentSign cs
      match digits cs with
      | ([], rest) => .error (noDigit rest)
      | (ds, rest) => .ok (some (minus, ds), rest)
    else .ok (none, c :: cs)
  | [] => .ok (none, [])

/-- The parts of a number without its sign, and what follows. -/
def readParts (cs : List Char) : Except Cause (Parts × List Char) := do
  let (whole, cs) ← readWhole cs
  let (places, cs) ← readFraction cs
  let (power, cs) ← readExponent cs
  return (⟨whole, places, power⟩, cs)

/-- The rounded magnitude of a number. An exponent past thirty-one bits leaves only zero or nothing. -/
def Parts.magnitude (p : Parts) : Option Binary64 :=
  let s := fractionDigits (wholeDigits ⟨0, 0⟩ p.whole) (p.places.getD [])
  match p.power with
  | none => Binary64.scale s.digits s.exponent
  | some (minus, ds) =>
    let e := value ds
    if e < 2147483648 then Binary64.scale s.digits (s.exponent + if minus then -(e : Int) else e)
    else if s.digits ≠ 0 ∧ !minus then none
    else some Binary64.zero

/-- The number of the given sign and parts. -/
def ofParts (minus : Bool) (p : Parts) : Except Cause Number :=
  let n := value p.whole
  if p.places.isNone ∧ p.power.isNone ∧ !minus ∧ n ≤ maxNatural then .ok (.natural n)
  else if p.places.isNone ∧ p.power.isNone ∧ minus ∧ 0 < n ∧ n ≤ 9223372036854775808 then .ok (.negative n)
  else
    match p.magnitude with
    | some x => .ok (.fraction minus x)
    | none => .error .malformed

/-- A number and what follows it. -/
def read (cs : List Char) : Except Cause (Number × List Char) := do
  let minus := cs.head? = some '-'
  let (p, rest) ← readParts (if minus then cs.tail else cs)
  return (← ofParts minus p, rest)

/-- What follows a number; a digit that is missing is never made up for by more text. -/
def skip (cs : List Char) : Except Cause (List Char) :=
  match readParts (if cs.head? = some '-' then cs.tail else cs) with
  | .ok (_, rest) => .ok rest
  | .error _ => .error .malformed

/-- The text of a number in a message. -/
def text : Number → String
  | .natural n => toString n
  | .negative n => "-" ++ toString n
  | .fraction minus x => Shortest.text minus x

end Number

end ArchFlow.Json
