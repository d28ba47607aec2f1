import ArchFlow.Catalog.Types
import ArchFlow.FactBase.Resolution

/-!
# Labels

A labeler says what elements and links are called on display. To label an element it may ask for attributes, which
leaves its traces in the state.

* `Labeler.architecture`: elements by what the catalog knows of their kind, links by the kinds of the catalog.
* `Labeler.plain`: elements by their ids in brackets, links by the words of their kinds.
-/

namespace ArchFlow

/-- What elements and links are called. -/
structure Labeler (ω : Type) where
  element : ElementId → State ω → String × State ω
  link : String → String

/-- The words of a link kind: blanks for underscores. -/
def spaced (kind : String) : String := kind.map fun c => if c = '_' then ' ' else c

/-- What the catalog calls a kind of link. -/
def catalogLinkLabel (kind : String) : String :=
  if kind = LinkKind.name .calls then "calls"
  else if kind = LinkKind.name .sendsRequest then "sends HTTP request"
  else if kind = LinkKind.name .handledBy then "handled by"
  else if kind = LinkKind.name .processedBy then "processed by"
  else if kind = LinkKind.name .usesClient then "uses client"
  else if kind = LinkKind.name .usesService then "uses service"
  else if kind = LinkKind.name .usesStorage then "uses storage"
  else if kind = LinkKind.name .publishes then "publishes"
  else if kind = LinkKind.name .queries then "queries"
  else if kind = LinkKind.name .readsFrom then "reads from"
  else if kind = LinkKind.name .writesTo then "writes to"
  else if kind = LinkKind.name .mapsTo then "maps to"
  else "links to"

/-! ## Elements -/

/-- The attributes that labels are made of, as far as they are known. -/
structure LabelFacts where
  verb : Option String
  route : Option String
  entity : Option String
  table : Option String
  contract : Option String

/-- A subject that may be unknown. -/
def subject (known : Option String) : String := known.getD "Unknown"

/-- The label of an HTTP entry point. -/
def LabelFacts.endpoint (f : LabelFacts) : String :=
  match f.verb, f.route with
  | some verb, some route => verb ++ " " ++ route
  | none, some route => route
  | _, none => "Endpoint"

/-- The label of an HTTP client. -/
def LabelFacts.httpClient (f : LabelFacts) : String :=
  match f.verb, f.route with
  | some verb, some route => "HTTP " ++ verb ++ " → " ++ route
  | none, some route => "HTTP → " ++ route
  | _, none => "HTTP Client"

/-- The label of an element, by the first kind in this list that its type fits; an element of another kind is called
by its id. -/
def LabelFacts.label (f : LabelFacts) (id : ElementId) (type : ElementType) : String :=
  if type.fits Catalog.endpoint then f.endpoint
  else if type.fits (ElementKind.type .httpClient) then f.httpClient
  else if type.fits (ElementKind.type .repository) then "Repository: " ++ subject (f.entity.or f.table)
  else if type.fits (ElementKind.type .efDbContext) then "DbContext: " ++ subject f.entity
  else if type.fits (ElementKind.type .dbTable) then "Table: " ++ subject f.table
  else if type.fits (ElementKind.type .messagePublisher) then "Publisher: " ++ subject f.contract
  else if type.fits (ElementKind.type .messageContract) then "Message: " ++ subject f.contract
  else if type.fits (ElementKind.type .cqrsHandler) then "CQRS Handler"
  else if type.fits (ElementKind.type .backgroundService) then "Background Service"
  else id

namespace FactBase

variable {ω : Type} (b : FactBase ω)

/-- The value of an attribute, if there is one and it can be had. -/
def attribute? (name : String) (id : ElementId) (s : State ω) : Option String × State ω :=
  match b.resolve? name id s with
  | (.ok value, s) => (value, s)
  | (.error _, s) => (none, s)

/-- Asks for the attributes that labels are made of. -/
def labelFacts (id : ElementId) (s : State ω) : LabelFacts × State ω :=
  let (verb, s) := b.attribute? Attribute.verb id s
  let (route, s) := b.attribute? Attribute.route id s
  let (entity, s) := b.attribute? Attribute.entity id s
  let (table, s) := b.attribute? Attribute.table id s
  let (contract, s) := b.attribute? Attribute.contract id s
  (⟨verb, route, entity, table, contract⟩, s)

/-- The label of an element; one that is unknown is called by its id. -/
def elementLabel (id : ElementId) (s : State ω) : String × State ω :=
  match b.typeOf? s id with
  | none => (id, s)
  | some type =>
    match b.labelFacts id s with
    | (facts, s) => (facts.label id type, s)

end FactBase

/-- Elements by what the catalog knows of their kind, links by the kinds of the catalog. -/
def Labeler.architecture {ω : Type} (b : FactBase ω) : Labeler ω := ⟨b.elementLabel, catalogLinkLabel⟩

/-- Elements by their ids in brackets, links by the words of their kinds. -/
def Labeler.plain {ω : Type} : Labeler ω := ⟨fun id s => ("[" ++ id ++ "]", s), spaced⟩

end ArchFlow
