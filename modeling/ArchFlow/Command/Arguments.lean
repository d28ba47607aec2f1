/-!
# Command lines

A command line is a command, its options and its other arguments in any order. An option has a long and a short name,
needs a value, and may be given once; after `--` nothing is an option any more.

* `Command.parse?`: the command of a command line; there is none if anything is wrong with it.
-/

namespace ArchFlow

/-- What a command line asks for. -/
inductive Command
  /-- Write the default settings of a project. -/
  | init (project : Option String)
  /-- List the elements that flows start from. -/
  | roots (facts : String) (kind project : Option String)
  /-- Print a flow. -/
  | flow (facts root : String) (depth : Option UInt64) (format project : Option String)
deriving DecidableEq

/-! ## Words -/

/-- An option by its names. -/
structure Switch where
  long : List Char
  short : Char
deriving DecidableEq

/-- A word of a command line. -/
inductive Word
  | argument (s : String)
  | option (o : Switch) (value : String)

/-- Whether a word cannot be the value of the option before it. -/
def isDashed (s : String) : Bool :=
  match s.toList with
  | '-' :: _ :: _ => true
  | _ => false

/-- A long option: its name, and the value after an equals sign. -/
def splitLong (cs : List Char) : List Char × Option (List Char) :=
  (cs.takeWhile (· ≠ '='), ((cs.dropWhile (· ≠ '=')).head?).map fun _ => (cs.dropWhile (· ≠ '=')).tail)

/-- The value that follows the letter of a short option, with or without an equals sign. -/
def attachedValue : List Char → Option (List Char)
  | [] => none
  | '=' :: value => some value
  | value => some value

/-- A word that begins an option: its name resolved, and its value if it is attached. -/
def readOption? (switches : List Switch) : List Char → Option (Switch × Option String)
  | '-' :: '-' :: cs =>
    let (name, value) := splitLong cs
    (switches.find? (·.long = name)).map fun o => (o, value.map String.ofList)
  | '-' :: c :: cs => (switches.find? (·.short = c)).map fun o => (o, (attachedValue cs).map String.ofList)
  | _ => none

/-- The words of a command line, with each option joined to its value. -/
def readWords? (switches : List Switch) : List String → Option (List Word)
  | [] => some []
  | a :: rest =>
    if a = "--" then some (rest.map .argument)
    else if isDashed a then
      match readOption? switches a.toList with
      | none => none
      | some (o, some value) => (readWords? switches rest).map (.option o value :: ·)
      | some (o, none) =>
        match rest with
        | [] => none
        | value :: rest => if isDashed value then none else (readWords? switches rest).map (.option o value :: ·)
    else (readWords? switches rest).map (.argument a :: ·)

/-- The arguments that are no options. -/
def argumentsOf : List Word → List String
  | [] => []
  | .argument s :: ws => s :: argumentsOf ws
  | .option .. :: ws => argumentsOf ws

/-- The values that an option is given. -/
def valuesOf (o : Switch) : List Word → List String
  | [] => []
  | .option p value :: ws => if p = o then value :: valuesOf o ws else valuesOf o ws
  | .argument _ :: ws => valuesOf o ws

/-- The value of an option that may be left out, but not repeated. -/
def optionalValue? (o : Switch) (ws : List Word) : Option (Option String) :=
  match valuesOf o ws with
  | [] => some none
  | [value] => some (some value)
  | _ => none

/-- A depth: decimal digits, perhaps after a plus sign, with a value of sixty-four bits. -/
def readDepth? (s : String) : Option UInt64 :=
  let cs := s.toList
  let digits := if cs.head? = some '+' then cs.tail else cs
  let value := digits.foldl (fun n c => n * 10 + (c.toNat - 48)) 0
  if digits ≠ [] ∧ digits.all Char.isDigit ∧ value < UInt64.size then some (UInt64.ofNat value) else none

/-! ## Commands -/

namespace Command

/-- The option for the kind of elements. -/
def kindSwitch : Switch := ⟨['k', 'i', 'n', 'd'], 'k'⟩

/-- The option for the project. -/
def pathSwitch : Switch := ⟨['p', 'a', 't', 'h'], 'p'⟩

/-- The option for the root. -/
def rootSwitch : Switch := ⟨['r', 'o', 'o', 't'], 'r'⟩

/-- The option for the depth. -/
def depthSwitch : Switch := ⟨['d', 'e', 'p', 't', 'h'], 'd'⟩

/-- The option for the output format. -/
def formatSwitch : Switch := ⟨['f', 'o', 'r', 'm', 'a', 't'], 'f'⟩

/-- The depth that an option gives, if it is given. -/
def depthOf? : Option String → Option (Option UInt64)
  | none => some none
  | some s => (readDepth? s).map some

/-- The command to write the default settings. -/
def parseInit? (args : List String) : Option Command := do
  let ws ← readWords? [] args
  match argumentsOf ws with
  | [] => some (.init none)
  | [project] => some (.init (some project))
  | _ => none

/-- The command to list the elements that flows start from. -/
def parseRoots? (args : List String) : Option Command := do
  let ws ← readWords? [kindSwitch, pathSwitch] args
  let kind ← optionalValue? kindSwitch ws
  let project ← optionalValue? pathSwitch ws
  match argumentsOf ws with
  | [facts] => some (.roots facts kind project)
  | _ => none

/-- The command to print a flow. -/
def parseFlow? (args : List String) : Option Command := do
  let ws ← readWords? [rootSwitch, depthSwitch, formatSwitch, pathSwitch] args
  let root ← (← optionalValue? rootSwitch ws)
  let depth ← depthOf? (← optionalValue? depthSwitch ws)
  let format ← optionalValue? formatSwitch ws
  let project ← optionalValue? pathSwitch ws
  match argumentsOf ws with
  | [facts] => some (.flow facts root depth format project)
  | _ => none

/-- The command of a command line. -/
def parse? : List String → Option Command
  | name :: args =>
    if name = "init" then parseInit? args
    else if name = "roots" then parseRoots? args
    else if name = "flow" then parseFlow? args
    else none
  | [] => none

end Command

end ArchFlow
