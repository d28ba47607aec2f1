import ArchFlow.Json.Literal

/-!
# Writing JSON

A `Value` is a JSON value to be written. There are two layouts: the compact one has no blanks at all, the pretty one
has a line for each item and each member, indented by two blanks per level.

* `Value.render`: the text of a value.
-/

namespace ArchFlow.Json

/-- A JSON value to be written. -/
inductive Value
  | null
  | natural (n : Nat)
  | string (s : String)
  | array (items : List Value)
  | object (members : List (String × Value))

/-- Where blanks and line breaks go. -/
inductive Layout
  | compact
  | pretty
deriving DecidableEq

/-- The break before an item at the given level. -/
def Layout.lineBreak : Layout → Nat → List Char
  | .compact, _ => []
  | .pretty, level => '\n' :: List.replicate (2 * level) ' '

/-- What stands between the name and the value of a member. -/
def Layout.colon : Layout → List Char
  | .compact => [':']
  | .pretty => [':', ' ']

mutual

/-- A value inside `level` others. -/
def Value.renderAt (layout : Layout) (level : Nat) : Value → List Char
  | .null => ['n', 'u', 'l', 'l']
  | .natural n => Nat.toDigits 10 n
  | .string s => Literal.quote s.toList
  | .array [] => ['[', ']']
  | .array (item :: items) =>
    '[' :: layout.lineBreak (level + 1) ++ item.renderAt layout (level + 1) ++
      renderItems layout (level + 1) items ++ layout.lineBreak level ++ [']']
  | .object [] => ['{', '}']
  | .object ((name, value) :: members) =>
    '{' :: layout.lineBreak (level + 1) ++ Literal.quote name.toList ++ layout.colon ++
      value.renderAt layout (level + 1) ++ renderMembers layout (level + 1) members ++ layout.lineBreak level ++ ['}']

/-- The items after the first, each with a comma before it. -/
def renderItems (layout : Layout) (level : Nat) : List Value → List Char
  | [] => []
  | item :: items => ',' :: layout.lineBreak level ++ item.renderAt layout level ++ renderItems layout level items

/-- The members after the first, each with a comma before it. -/
def renderMembers (layout : Layout) (level : Nat) : List (String × Value) → List Char
  | [] => []
  | (name, value) :: members =>
    ',' :: layout.lineBreak level ++ Literal.quote name.toList ++ layout.colon ++ value.renderAt layout level ++
      renderMembers layout level members

end

/-- The text of a value. -/
def Value.render (layout : Layout) (v : Value) : String := String.ofList (v.renderAt layout 0)

/-- The text of a value without blanks. -/
def Value.compact (v : Value) : String := v.render .compact

/-- The text of a value with a line for each item and member. -/
def Value.pretty (v : Value) : String := v.render .pretty

/-- A text, or null where there is none. -/
def Value.optional : Option String → Value
  | none => .null
  | some s => .string s

/-- A list of texts. -/
def Value.strings (ss : List String) : Value := .array (ss.map .string)

end ArchFlow.Json
