import ArchFlow.Json.Fault
import ArchFlow.SortedMap

/-!
# Decoding

A `Decoder` turns a document into a value. It meets the parts of the document in the order of the text, so the first
problem counts, be it a fault of the text or a mismatch. Arrays and objects that are decoded may be nested to a depth
of 127; values that are passed over may be nested to any depth.

* `Decoder.record`: a record, written as an object or as the array of its fields.
* `Decoder.variant`: one of several names.
* `decode`: decoding a whole text.
-/

namespace ArchFlow.Json

/-- Decodes a document under a number of levels that may still be entered. -/
abbrev Decoder (α : Type) := Nat → Document → Except Fault α

/-- How many levels of arrays and objects may be entered. -/
def maxLevels : Nat := 127

/-! ## Parts -/

/-- The shape of a value, or the cause why there is none. -/
def Document.shape : Document → Except Fault Shape
  | .null => .ok .null
  | .bool b => .ok (.bool b)
  | .number n => .ok (.number n)
  | .string s => .ok (.string s)
  | .array _ => .ok .sequence
  | .object _ => .ok .map
  | .absent => .error .truncated
  | .unreadableString cause _ => .error cause.fault
  | .unreadable cause _ => .error cause.fault

/-- The fault of a document that is not what is wanted. -/
def unexpected {α : Type} (expected : String) (d : Document) : Except Fault α := do
  let found ← d.shape
  .error (.mismatch (.invalidType found expected))

/-- Passing over a value. -/
def ignore (d : Document) : Except Fault Unit := d.pass.mapError Cause.fault

/-- The end of items after the last one that is wanted; anything but the bracket is malformed. -/
def Items.close : Items → Except Fault Unit
  | .done .closed => .ok ()
  | .done (.broken cause false) => .error cause.fault
  | .done (.broken _ true) => .error .malformed
  | .item .. => .error .malformed

/-- The end of members after the last one that is wanted; anything but the bracket is malformed. -/
def Members.close : Members → Except Fault Unit
  | .done .closed => .ok ()
  | .done (.broken cause false) => .error cause.fault
  | .done (.broken _ true) => .error .malformed
  | .member .. => .error .malformed

namespace Decoder

/-! ## Scalars -/

/-- A text. -/
def text : Decoder String
  | _, .string s => .ok s
  | _, d => unexpected "a string" d

/-- A whole number below `bound`. -/
def naturalBelow (bound : Nat) (expected : String) : Decoder Nat
  | _, .number (.natural n) =>
    if n < bound then .ok n else .error (.mismatch (.invalidValue (.natural n) expected))
  | _, .number (.negative n) => .error (.mismatch (.invalidValue (.negative n) expected))
  | _, d => unexpected expected d

/-- A whole number of thirty-two bits. -/
def word32 : Decoder UInt32 := fun levels d => (naturalBelow UInt32.size "u32" levels d).map UInt32.ofNat

/-- A whole number of sixty-four bits. -/
def word64 : Decoder UInt64 := fun levels d => (naturalBelow UInt64.size "usize" levels d).map UInt64.ofNat

/-- A value or null. -/
def optional {α : Type} (read : Decoder α) : Decoder (Option α)
  | _, .null => .ok none
  | levels, d => (read levels d).map some

/-- The value of another decoder, transformed. -/
def map {α β : Type} (f : α → β) (read : Decoder α) : Decoder β := fun levels d => (read levels d).map f

/-! ## Lists and maps -/

/-- The items of an array, each by the same decoder. -/
def items {α : Type} (read : Decoder α) (levels : Nat) : Items → Except Fault (List α)
  | .done ending => (ending.pass.mapError Cause.fault).map fun _ => []
  | .item d rest => do
    let a ← read levels d
    let as ← items read levels rest
    return a :: as

/-- An array. -/
def list {α : Type} (read : Decoder α) : Decoder (List α)
  | 0, .array _ => .error .malformed
  | levels + 1, .array ds => items read levels ds
  | _, d => unexpected "a sequence" d

/-- The members of an object of texts, put into a map; of several with one name the last one counts. -/
def textMembers (m : SortedMap String String) : Members → Except Fault (SortedMap String String)
  | .done ending => (ending.pass.mapError Cause.fault).map fun _ => m
  | .member (.name k) d rest => do
    let v ← text 0 d
    textMembers (m.insert k v) rest
  | .member (.unreadable cause _) _ _ => .error cause.fault
  | .member .missing _ _ => .error .malformed

/-- An object of texts. -/
def textMap : Decoder (SortedMap String String)
  | 0, .object _ => .error .malformed
  | _ + 1, .object ms => textMembers .empty ms
  | _, d => unexpected "a map" d

/-! ## Records -/

/-- The fields of a record, in the order of their declaration, with the tuple `τ` of their values and the tuple `δ` of
those that are known while an object is read. A field may have a value for when an object does not name it, and one
for when an array ends before it. -/
inductive Fields : (τ δ : Type) → Type 1
  | nil : Fields Unit Unit
  | cons {α τ δ : Type} (name : String) (unnamed short : Option α) (read : Decoder α) (rest : Fields τ δ) :
    Fields (α × τ) (Option α × δ)

namespace Fields

variable {α τ δ : Type}

/-- A field that has to be there. -/
def required (name : String) (read : Decoder α) (rest : Fields τ δ) : Fields (α × τ) (Option α × δ) :=
  .cons name none none read rest

/-- A field with a value for when it is left out. -/
def withDefault (name : String) (value : α) (read : Decoder α) (rest : Fields τ δ) :
    Fields (α × τ) (Option α × δ) :=
  .cons name (some value) (some value) read rest

/-- A field that an object may leave out, but an array may not. -/
def nullable (name : String) (read : Decoder α) (rest : Fields τ δ) :
    Fields (Option α × τ) (Option (Option α) × δ) :=
  .cons name (some none) none (optional read) rest

/-- No value is known yet. -/
def blank {τ δ : Type} : Fields τ δ → δ
  | .nil => ()
  | .cons _ _ _ _ rest => (none, rest.blank)

/-- Number of fields. -/
def count {τ δ : Type} : Fields τ δ → Nat
  | .nil => 0
  | .cons _ _ _ _ rest => rest.count + 1

/-- Reads the member of an object into its field; there is no answer for a name that no field has. -/
def accept {τ δ : Type} (levels : Nat) (key : String) (d : Document) : Fields τ δ → δ → Option (Except Fault δ)
  | .nil, _ => none
  | .cons name _ _ read rest, (value, draft) =>
    if key = name then
      some (if value.isSome then .error (.mismatch (.duplicateField name))
        else (read levels d).map fun a => (some a, draft))
    else (accept levels key d rest draft).map (·.map (value, ·))

/-- The record of the values that are known; the first field without a value is missing. -/
def finish {τ δ : Type} : Fields τ δ → δ → Except Fault τ
  | .nil, _ => .ok ()
  | .cons name unnamed _ _ rest, (value, draft) => do
    match value <|> unnamed with
    | some a =>
      let t ← rest.finish draft
      return (a, t)
    | none => .error (.mismatch (.missingField name))

/-- Reads the members of an object; those that no field names are passed over. -/
def ofMembers (f : Fields τ δ) (levels : Nat) : δ → Members → Except Fault τ
  | draft, .done ending => do
    ending.pass.mapError Cause.fault
    f.finish draft
  | draft, .member (.name key) d rest =>
    match f.accept levels key d draft with
    | some next => do
      let draft ← next
      f.ofMembers levels draft rest
    | none => do
      ignore d
      f.ofMembers levels draft rest
  | _, .member (.unreadable cause _) _ _ => .error cause.fault
  | _, .member .missing _ _ => .error .malformed

/-- Reads the items of an array, the first `index` of which are read already; `expected` names the whole. -/
def ofItems {τ δ : Type} (expected : String) (levels : Nat) : Fields τ δ → Nat → Items → Except Fault τ
  | .nil, _, ds => ds.close
  | .cons _ _ _ read rest, index, .item d ds => do
    let a ← read levels d
    let t ← rest.ofItems expected levels (index + 1) ds
    return (a, t)
  | .cons _ _ short _ rest, index, .done ending => do
    ending.pass.mapError Cause.fault
    match short with
    | some a =>
      let t ← rest.ofItems expected levels (index + 1) (.done ending)
      return (a, t)
    | none => .error (.mismatch (.invalidLength index expected))

/-- How a message names a record that is written as an array. -/
def asArray (f : Fields τ δ) (expected : String) : String :=
  expected ++ " with " ++ toString f.count ++ (if f.count = 1 then " element" else " elements")

end Fields

/-- A record, written as an object or as the array of its fields. -/
def record {τ δ : Type} (name : String) (f : Fields τ δ) : Decoder τ
  | 0, .object _ => .error .malformed
  | levels + 1, .object ms => f.ofMembers levels f.blank ms
  | 0, .array _ => .error .malformed
  | levels + 1, .array ds => f.ofItems (f.asArray ("struct " ++ name)) levels 0 ds
  | _, d => unexpected ("struct " ++ name) d

/-! ## Names -/

/-- One of the known names. -/
def ofName {α : Type} (known : List (String × α)) (s : String) : Except Fault α :=
  match known.lookup s with
  | some a => .ok a
  | none => .error (.mismatch (.unknownVariant s (known.map (·.1))))

/-- The value beside a name, which has to be null. -/
def nothing : Document → Except Fault Unit
  | .null => .ok ()
  | d => unexpected "unit" d

/-- One of several names, alone or as the only member of an object, with null as its value. -/
def variant {α : Type} (known : List (String × α)) : Decoder α
  | _, .string s => ofName known s
  | _, .unreadableString cause _ => .error cause.fault
  | _, .absent => .error .truncated
  | 0, .object _ => .error .malformed
  | _ + 1, .object (.member (.name s) d rest) => do
    let a ← ofName known s
    nothing d
    rest.close
    return a
  | _ + 1, .object (.member (.unreadable cause _) _ _) => .error cause.fault
  | _ + 1, .object (.done (.broken cause _)) => .error cause.fault
  | _, _ => .error .malformed

end Decoder

/-- Decodes a whole text. -/
def decode {α : Type} (read : Decoder α) (text : String) : Except Fault α :=
  match Document.ofText text with
  | (d, complete) => do
    let a ← read maxLevels d
    if complete then return a else .error .malformed

end ArchFlow.Json
