import ArchFlow.Json.Document
import ArchFlow.Text.Hidden

/-!
# Faults of a text

Why a text does not decode: it is no JSON, it ends, or a value has another shape than the one that is wanted.

* `Mismatch.message`: what is said about a value of the wrong shape.
-/

namespace ArchFlow.Json

/-- The shape of a value, as messages name it. -/
inductive Shape
  | null
  | bool (b : Bool)
  | number (n : Number)
  | string (s : String)
  | sequence
  | map

/-- A value that is not the one that is wanted. -/
inductive Mismatch
  | invalidType (found : Shape) (expected : String)
  | invalidValue (found : Number) (expected : String)
  | invalidLength (length : Nat) (expected : String)
  | missingField (name : String)
  | duplicateField (name : String)
  | unknownVariant (found : String) (known : List String)

/-- Why a text does not decode. -/
inductive Fault
  | malformed
  | truncated
  | mismatch (m : Mismatch)

/-- A cause why a text cannot be read is a fault of it. -/
def Cause.fault : Cause → Fault
  | .malformed => .malformed
  | .truncated => .truncated

/-! ## Messages -/

/-- A character in a quoted text of a message. -/
def shownChar (c : Char) : List Char :=
  if c = '"' then ['\\', '"']
  else if c = '\\' then ['\\', '\\']
  else if c = '\n' then ['\\', 'n']
  else if c = '\r' then ['\\', 'r']
  else if c = '\t' then ['\\', 't']
  else if c = '\x00' then ['\\', '0']
  else if Text.isHidden c then ['\\', 'u', '{'] ++ Nat.toDigits 16 c.toNat ++ ['}']
  else [c]

/-- A text in quotes, as messages show it. -/
def shownText (s : String) : String := String.ofList ('"' :: s.toList.flatMap shownChar ++ ['"'])

/-- A name between backquotes. -/
def quoted (s : String) : String := "`" ++ s ++ "`"

/-- A number with what it is. -/
def Number.describe (n : Number) : String :=
  match n with
  | .fraction .. => "floating point " ++ quoted n.text
  | _ => "integer " ++ quoted n.text

/-- What a shape is called. -/
def Shape.describe : Shape → String
  | .null => "null"
  | .bool b => "boolean " ++ quoted (if b then "true" else "false")
  | .number n => n.describe
  | .string s => "string " ++ shownText s
  | .sequence => "sequence"
  | .map => "map"

/-- The names to choose from. -/
def choice (known : List String) : String :=
  match known with
  | [] => "there are no variants"
  | [a] => "expected " ++ quoted a
  | [a, b] => "expected " ++ quoted a ++ " or " ++ quoted b
  | _ => "expected one of " ++ ", ".intercalate (known.map quoted)

/-- What is said about a value of the wrong shape. -/
def Mismatch.message : Mismatch → String
  | .invalidType found expected => "invalid type: " ++ found.describe ++ ", expected " ++ expected
  | .invalidValue found expected => "invalid value: " ++ found.describe ++ ", expected " ++ expected
  | .invalidLength length expected => "invalid length " ++ toString length ++ ", expected " ++ expected
  | .missingField name => "missing field " ++ quoted name
  | .duplicateField name => "duplicate field " ++ quoted name
  | .unknownVariant found known => "unknown variant " ++ quoted found ++ ", " ++ choice known

/-- What is said about a fault. -/
def Fault.message : Fault → String
  | .malformed => "invalid JSON"
  | .truncated => "unexpected end of JSON text"
  | .mismatch m => m.message

end ArchFlow.Json
