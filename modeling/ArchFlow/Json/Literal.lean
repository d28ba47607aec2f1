/-!
# String literals

Text between double quotes. Quotes, backslashes and control characters are written as escapes; of the characters that
may be written as an escape, the reader takes either form, and a character beyond the basic plane also as a pair of
surrogates.

* `Cause`: why the reading of a text stops.
* `Literal.quote`: the written form of a text.
* `Literal.read`: a literal and what follows it. Half a pair of surrogates is an error.
* `Literal.skip`: what follows a literal whose text nobody wants. Half a pair of surrogates passes.
-/

namespace ArchFlow.Json

/-- Why the reading of a text stops, be it in a literal or elsewhere. -/
inductive Cause
  /-- What stands there is not JSON. -/
  | malformed
  /-- The text ends. -/
  | truncated
deriving DecidableEq

namespace Literal

/-! ## Writing -/

/-- A hexadecimal digit, in lower case. -/
def hexDigit (n : Nat) : Char :=
  if n < 10 then Char.ofNat (48 + n) else Char.ofNat (87 + n)

/-- A character between quotes. -/
def escapeChar (c : Char) : List Char :=
  if c = '"' then ['\\', '"']
  else if c = '\\' then ['\\', '\\']
  else if c = '\x08' then ['\\', 'b']
  else if c = '\x0c' then ['\\', 'f']
  else if c = '\n' then ['\\', 'n']
  else if c = '\r' then ['\\', 'r']
  else if c = '\t' then ['\\', 't']
  else if c.toNat < 32 then ['\\', 'u', '0', '0', hexDigit (c.toNat / 16), hexDigit (c.toNat % 16)]
  else [c]

/-- A text as a literal. -/
def quote (s : List Char) : List Char := '"' :: s.flatMap escapeChar ++ ['"']

/-! ## Escapes -/

/-- The value of a hexadecimal digit. -/
def hexValue? (c : Char) : Option Nat :=
  if '0' ≤ c ∧ c ≤ '9' then some (c.toNat - 48)
  else if 'a' ≤ c ∧ c ≤ 'f' then some (c.toNat - 87)
  else if 'A' ≤ c ∧ c ≤ 'F' then some (c.toNat - 55)
  else none

/-- The value of four hexadecimal digits. -/
def unit? (a b c d : Char) : Option Nat := do
  let a ← hexValue? a
  let b ← hexValue? b
  let c ← hexValue? c
  let d ← hexValue? d
  return ((a * 16 + b) * 16 + c) * 16 + d

/-- Why fewer than four characters make no four digits: fewer than four bytes end the text. -/
def shortUnit (rest : List Char) : Cause :=
  if (String.ofList rest).utf8ByteSize < 4 then .truncated else .malformed

/-- The character of an escape of one letter. -/
def named? (c : Char) : Option Char :=
  match c with
  | '"' => some '"'
  | '\\' => some '\\'
  | '/' => some '/'
  | 'b' => some '\x08'
  | 'f' => some '\x0c'
  | 'n' => some '\n'
  | 'r' => some '\r'
  | 't' => some '\t'
  | _ => none

/-- The first half of a pair of surrogates. -/
def isHighSurrogate (n : Nat) : Bool := 0xd800 ≤ n && n ≤ 0xdbff

/-- The second half of a pair of surrogates. -/
def isLowSurrogate (n : Nat) : Bool := 0xdc00 ≤ n && n ≤ 0xdfff

/-- The character of a pair of surrogates. -/
def paired (high low : Nat) : Char := Char.ofNat ((high - 0xd800) * 0x400 + (low - 0xdc00) + 0x10000)

/-! ## Reading -/

/-- Puts a character before the text of a literal. -/
def prepend (c : Char) : Except Cause (List Char × List Char) → Except Cause (List Char × List Char)
  | .ok (s, rest) => .ok (c :: s, rest)
  | .error e => .error e

/-- After the opening quote: the text of the literal and what follows its closing quote. -/
def read : List Char → Except Cause (List Char × List Char)
  | [] => .error .truncated
  | '"' :: rest => .ok ([], rest)
  | ['\\'] => .error .truncated
  | '\\' :: 'u' :: a :: b :: c :: d :: rest =>
    match unit? a b c d with
    | none => .error .malformed
    | some n =>
      if isLowSurrogate n then .error .malformed
      else if isHighSurrogate n then
        match rest with
        | [] => .error .truncated
        | ['\\'] => .error .truncated
        | '\\' :: 'u' :: e :: f :: g :: h :: rest =>
          match unit? e f g h with
          | none => .error .malformed
          | some m => if isLowSurrogate m then prepend (paired n m) (read rest) else .error .malformed
        | '\\' :: 'u' :: rest => .error (shortUnit rest)
        | _ => .error .malformed
      else prepend (Char.ofNat n) (read rest)
  | '\\' :: 'u' :: rest => .error (shortUnit rest)
  | '\\' :: c :: rest =>
    match named? c with
    | some c => prepend c (read rest)
    | none => .error .malformed
  | c :: rest => if c.toNat < 32 then .error .malformed else prepend c (read rest)

/-- After the opening quote: what follows the closing quote. -/
def skip : List Char → Except Cause (List Char)
  | [] => .error .truncated
  | '"' :: rest => .ok rest
  | ['\\'] => .error .truncated
  | '\\' :: 'u' :: a :: b :: c :: d :: rest => if (unit? a b c d).isSome then skip rest else .error .malformed
  | '\\' :: 'u' :: rest => .error (shortUnit rest)
  | '\\' :: c :: rest => if (named? c).isSome then skip rest else .error .malformed
  | c :: rest => if c.toNat < 32 then .error .malformed else skip rest

end Literal

end ArchFlow.Json
