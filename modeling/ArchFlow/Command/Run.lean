import ArchFlow.Command.Arguments
import ArchFlow.Command.Format
import ArchFlow.Flow.Outline
import ArchFlow.Graph.Flowchart
import ArchFlow.Session

/-!
# Running commands

A command either prints to standard output and succeeds, or prints nothing there and fails with a message.

* `Command.run`: what a command does in a file system.
* `runArguments`: what a command line does.
-/

namespace ArchFlow

/-- What a run leaves behind besides its files. -/
structure Outcome where
  status : UInt32
  output : String
  errors : String
deriving DecidableEq

namespace Outcome

/-- A run that prints a text and a line break. -/
def printed (text : String) : Outcome := ⟨0, text ++ "\n", ""⟩

/-- A run that fails. -/
def failed (failure : Failure) : Outcome := ⟨1, "", "Error: " ++ failure.message ++ "\n"⟩

/-- A command line that asks for nothing. -/
def misused : Outcome := ⟨2, "", "error: invalid arguments\n"⟩

end Outcome

/-- The lines that list elements. -/
def elementLines (es : List Element) : String :=
  if es.isEmpty then "No root elements found"
  else "\n".intercalate (es.map fun e => e.id ++ " (" ++ e.type.text ++ ")")

/-- A flow in a format. -/
def render (x : Session Unit) (t : FlowTree) (s : State Unit) : OutputFormat → String
  | .markdown => t.outline
  | .json => t.jsonText
  | .graph => (x.graph [t] s).1.jsonText
  | .mermaid => (x.graph [t] s).1.flowchart

/-- The flow from a root of a session, in a format. -/
def printFlow (x : Session Unit) (root : ElementId) (depth : Option UInt64) (format : OutputFormat) : Outcome :=
  match x.flow root depth (State.fresh ()) with
  | (.error failure, _) => .failed failure
  | (.ok t, s) => .printed (render x t s format)

variable {m : Type → Type} [Monad m] (fs : FileSystem m)

/-- Runs a command; `here` is the project where none is given. -/
def Command.run (here : String) : Command → m Outcome
  | .init project => do
    let project := project.getD here
    match ← Settings.default.save fs project with
    | .error failure => return .failed failure
    | .ok () => return .printed ("Wrote default configuration to " ++ Settings.path project)
  | .roots facts kind project => do
    match ← Session.openFile fs facts (project.getD here) with
    | .error failure => return .failed failure
    | .ok x => return .printed (elementLines (x.roots kind))
  | .flow facts root depth format project => do
    match ← Session.openFile fs facts (project.getD here) with
    | .error failure => return .failed failure
    | .ok x => return printFlow x root depth ((format.bind OutputFormat.ofWord?).getD .markdown)

/-- Runs a command line. -/
def runArguments (here : String) (args : List String) : m Outcome :=
  match Command.parse? args with
  | some command => command.run fs here
  | none => return .misused

end ArchFlow
