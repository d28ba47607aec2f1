import ArchFlow.Json.Decode
import ArchFlow.Json.Value

/-!
# Output formats

* `OutputFormat.ofWord?`: the format that a word on the command line stands for.
-/

namespace ArchFlow

open Json (Value Decoder)

/-- How a flow is printed. -/
inductive OutputFormat
  | markdown
  | json
  | graph
  | mermaid
deriving DecidableEq

namespace OutputFormat

/-- The format that a word stands for. -/
def ofWord? (word : String) : Option OutputFormat :=
  if word = "markdown" ∨ word = "md" then some .markdown
  else if word = "json" then some .json
  else if word = "graph" then some .graph
  else if word = "mermaid" then some .mermaid
  else none

/-- The name of a format. -/
def name : OutputFormat → String
  | .markdown => "Markdown"
  | .json => "Json"
  | .graph => "Graph"
  | .mermaid => "Mermaid"

/-- The formats by their names. -/
def names : List (String × OutputFormat) :=
  [OutputFormat.markdown, .json, .graph, .mermaid].map fun f => (f.name, f)

/-- A format as its name. -/
def toJson (f : OutputFormat) : Value := .string f.name

/-- Decodes a format. -/
def decoder : Decoder OutputFormat := Decoder.variant names

end OutputFormat

end ArchFlow
