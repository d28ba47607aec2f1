import ArchFlow.Json.Literal
import ArchFlow.Json.Number

/-!
# Texts as far as they are JSON

A `Document` is what can be read of a text. Where the text stops being JSON the document holds the cause, in the place
where a reader comes upon it; so a reader that goes through the document from left to right meets faults of the text
and mismatches with its own expectations in the order of the text, and may pass over values that it does not want.

* `Document.ofText`: the document of a text, and whether anything but blanks follows its value.
* `Document.pass`: passing over a value, which only has to be JSON.
-/

namespace ArchFlow.Json

/-! ## Documents -/

/-- The name of a member of an object. -/
inductive Key
  | name (s : String)
  /-- A literal without a text; `skipping` is the cause, if there is one, why it cannot be passed over either. -/
  | unreadable (cause : Cause) (skipping : Option Cause)
  /-- There is no literal in the place of the name. -/
  | missing

/-- How an array or an object ends. -/
inductive Ending
  | closed
  /-- The closing bracket does not come; `afterComma` tells whether a comma was the last thing that made sense. -/
  | broken (cause : Cause) (afterComma : Bool)

mutual

/-- What can be read of a text. -/
inductive Document
  | null
  | bool (b : Bool)
  | number (n : Number)
  | string (s : String)
  | array (items : Items)
  | object (members : Members)
  /-- The text ends where a value has to begin. -/
  | absent
  /-- A string literal without a text. -/
  | unreadableString (cause : Cause) (skipping : Option Cause)
  /-- Anything else that is not a value. -/
  | unreadable (cause : Cause) (skipping : Option Cause)

/-- What can be read of the items of an array. -/
inductive Items
  | done (ending : Ending)
  | item (value : Document) (rest : Items)

/-- What can be read of the members of an object. -/
inductive Members
  | done (ending : Ending)
  /-- Where the name is missing, the value is what stands in its place. -/
  | member (key : Key) (value : Document) (rest : Members)

end

/-! ## Reading -/

/-- The blanks between the parts of a document. -/
def isBlank (c : Char) : Bool := c = ' ' || c = '\n' || c = '\t' || c = '\r'

/-- A text without the blanks in front. -/
def dropBlanks (cs : List Char) : List Char := cs.dropWhile isBlank

/-- What is read, and the text after it unless reading stopped there. -/
abbrev Reading (α : Type) := α × Option (List Char)

/-- A string literal, after its opening quote: its text, or the causes why it cannot be read and passed over. -/
def readLiteral (cs : List Char) : Reading (Except (Cause × Option Cause) String) :=
  match Literal.read cs with
  | .ok (s, rest) => (.ok (String.ofList s), some rest)
  | .error cause =>
    match Literal.skip cs with
    | .ok rest => (.error (cause, none), some rest)
    | .error skipping => (.error (cause, some skipping), none)

/-- A number as a value. -/
def readNumber (cs : List Char) : Reading Document :=
  match Number.read cs with
  | .ok (n, rest) => (.number n, some rest)
  | .error cause =>
    match Number.skip cs with
    | .ok rest => (.unreadable cause none, some rest)
    | .error skipping => (.unreadable cause (some skipping), none)

/-- A text that has to go on with the letters of a word. -/
def readWord (value : Document) : List Char → List Char → Reading Document
  | [], rest => (value, some rest)
  | _ :: _, [] => (.unreadable .truncated (some .truncated), none)
  | c :: word, d :: rest =>
    if c = d then readWord value word rest else (.unreadable .malformed (some .malformed), none)

/-- The end of items or members after a value that could not be read to its end; nobody gets there. -/
def lost : Ending := .broken .malformed false

/-- A string literal as a value, after its opening quote. -/
def readString (cs : List Char) : Reading Document :=
  match readLiteral cs with
  | (.ok s, rest) => (.string s, rest)
  | (.error (cause, skipping), rest) => (.unreadableString cause skipping, rest)

mutual

/-- A value; `fuel` bounds the number of steps. -/
def readValue : Nat → List Char → Reading Document
  | 0, _ => (.absent, none)
  | fuel + 1, cs =>
    match dropBlanks cs with
    | [] => (.absent, none)
    | '"' :: rest => readString rest
    | '[' :: rest =>
      match readItems fuel true rest with
      | (items, rest) => (.array items, rest)
    | '{' :: rest =>
      match readMembers fuel true rest with
      | (members, rest) => (.object members, rest)
    | 'n' :: rest => readWord .null ['u', 'l', 'l'] rest
    | 't' :: rest => readWord (.bool true) ['r', 'u', 'e'] rest
    | 'f' :: rest => readWord (.bool false) ['a', 'l', 's', 'e'] rest
    | c :: rest =>
      if c = '-' ∨ c.isDigit then readNumber (c :: rest) else (.unreadable .malformed (some .malformed), none)

/-- The items of an array and its closing bracket; the first one comes without a comma. -/
def readItems : Nat → Bool → List Char → Reading Items
  | 0, _, _ => (.done lost, none)
  | fuel + 1, first, cs =>
    match dropBlanks cs with
    | [] => (.done (.broken .truncated false), none)
    | ']' :: rest => (.done .closed, some rest)
    | c :: rest =>
      if first then readItem fuel (c :: rest)
      else if c = ',' then
        match dropBlanks rest with
        | [] => (.done (.broken .truncated true), none)
        | ']' :: _ => (.done (.broken .malformed true), none)
        | c :: rest => readItem fuel (c :: rest)
      else (.done (.broken .malformed false), none)

/-- An item of an array and what follows it. -/
def readItem : Nat → List Char → Reading Items
  | 0, _ => (.done lost, none)
  | fuel + 1, cs =>
    match readValue fuel cs with
    | (value, none) => (.item value (.done lost), none)
    | (value, some rest) =>
      match readItems fuel false rest with
      | (items, rest) => (.item value items, rest)

/-- The members of an object and its closing bracket; the first one comes without a comma. -/
def readMembers : Nat → Bool → List Char → Reading Members
  | 0, _, _ => (.done lost, none)
  | fuel + 1, first, cs =>
    match dropBlanks cs with
    | [] => (.done (.broken .truncated false), none)
    | '}' :: rest => (.done .closed, some rest)
    | c :: rest =>
      if first then readMember fuel (c :: rest)
      else if c = ',' then
        match dropBlanks rest with
        | [] => (.done (.broken .truncated true), none)
        | '}' :: _ => (.done (.broken .malformed true), none)
        | c :: rest => readMember fuel (c :: rest)
      else (.done (.broken .malformed false), none)

/-- A member of an object and what follows it. -/
def readMember : Nat → List Char → Reading Members
  | 0, _ => (.done lost, none)
  | fuel + 1, '"' :: cs =>
    match readLiteral cs with
    | (.ok s, some rest) => readMemberValue fuel (.name s) rest
    | (.ok s, none) => (.member (.name s) .absent (.done lost), none)
    | (.error (cause, skipping), some rest) => readMemberValue fuel (.unreadable cause skipping) rest
    | (.error (cause, skipping), none) => (.member (.unreadable cause skipping) .absent (.done lost), none)
  | fuel + 1, cs => (.member .missing (readValue fuel cs).1 (.done lost), none)

/-- The colon after the name of a member, its value and what follows it. -/
def readMemberValue : Nat → Key → List Char → Reading Members
  | 0, _, _ => (.done lost, none)
  | fuel + 1, key, cs =>
    match dropBlanks cs with
    | [] => (.member key .absent (.done lost), none)
    | ':' :: rest =>
      match readValue fuel rest with
      | (value, none) => (.member key value (.done lost), none)
      | (value, some rest) =>
        match readMembers fuel false rest with
        | (members, rest) => (.member key value members, rest)
    | _ => (.member key (.unreadable .malformed (some .malformed)) (.done lost), none)

end

/-- The document of a text, and whether only blanks follow its value. -/
def Document.ofText (text : String) : Document × Bool :=
  let cs := text.toList
  match readValue (4 * cs.length + 4) cs with
  | (d, none) => (d, true)
  | (d, some rest) => (d, (dropBlanks rest).isEmpty)

/-! ## Passing over a value -/

/-- Passing over the name of a member. -/
def Key.pass : Key → Except Cause Unit
  | .name _ => .ok ()
  | .unreadable _ none => .ok ()
  | .unreadable _ (some cause) => .error cause
  | .missing => .error .malformed

/-- Passing over the end of an array or an object. -/
def Ending.pass : Ending → Except Cause Unit
  | .closed => .ok ()
  | .broken cause _ => .error cause

mutual

/-- Passing over a value: the cause why it is not JSON. -/
def Document.pass : Document → Except Cause Unit
  | .array items => items.pass
  | .object members => members.pass
  | .absent => .error .truncated
  | .unreadableString _ (some cause) => .error cause
  | .unreadable _ (some cause) => .error cause
  | _ => .ok ()

/-- Passing over the items of an array. -/
def Items.pass : Items → Except Cause Unit
  | .done ending => ending.pass
  | .item value rest => do value.pass; rest.pass

/-- Passing over the members of an object. -/
def Members.pass : Members → Except Cause Unit
  | .done ending => ending.pass
  | .member key value rest => do key.pass; value.pass; rest.pass

end

end ArchFlow.Json
