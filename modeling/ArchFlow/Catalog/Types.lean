import ArchFlow.Catalog.Kinds
import ArchFlow.TypeSet.Basic

/-!
# Types of the catalog

A kind stands for the type that requires it. Some kinds belong together, and the elements of a flow are classified
coarsely by an ordered table of such groups.

* `Catalog.classification`: the table; the first row that fits counts.
* `Catalog.rootTypes`: the types that flows start from.
-/

namespace ArchFlow

/-- The type of the elements or links of the given kind. -/
def TypeSet.ofKind (kind : String) : TypeSet := .ofPredicate Attribute.kind kind

/-- The type of the elements of a kind of the catalog. -/
def ElementKind.type (k : ElementKind) : ElementType := .ofKind k.name

/-- The type of the links of a kind of the catalog. -/
def LinkKind.type (k : LinkKind) : LinkType := .ofKind k.name

namespace Catalog

/-- The type of the elements of one of several kinds. -/
def anyOf (kinds : List ElementKind) : ElementType := kinds.foldl (fun a k => a.union k.type) .empty

/-- Any entry point for HTTP requests. -/
def endpoint : ElementType := anyOf [.endpointController, .endpointMinimalApi, .controllerAction]

/-- Elements that execute code on behalf of a request. -/
def procedure : ElementType := anyOf [.controllerAction, .cqrsHandler, .notificationHandler]

/-- Services of the application, the handlers among them. -/
def service : ElementType := anyOf [.appService, .cqrsHandler, .notificationHandler]

/-- Any element of the catalog. -/
def anyElement : ElementType := anyOf ElementKind.all

/-- The types that flows start from. -/
def rootTypes : List ElementType :=
  [ElementKind.endpointController, .endpointMinimalApi, .backgroundService].map ElementKind.type

/-- The types of the links that a flow follows unless told otherwise. -/
def linkTypes : List LinkType := LinkKind.followed.map LinkKind.type

/-! ## Classification -/

namespace Label

def endpoint : String := "Endpoint"

def httpClient : String := "HttpClient"

def repository : String := "Repository"

def database : String := "Database"

def queue : String := "Queue"

def topic : String := "Topic"

def backgroundService : String := "BackgroundService"

def service : String := "Service"

/-- The label of elements that no row describes. -/
def unknown : String := "Unknown"

end Label

/-- The labels of elements and the types that they stand for; the first row that fits counts. -/
def classification : List (String × ElementType) := [
  (Label.endpoint, endpoint),
  (Label.httpClient, ElementKind.type .httpClient),
  (Label.repository, anyOf [.repository, .efDbContext]),
  (Label.database, anyOf [.database, .dbTable]),
  (Label.queue, ElementKind.type .queue),
  (Label.topic, anyOf [.topic, .messagePublisher, .messageContract]),
  (Label.backgroundService, ElementKind.type .backgroundService),
  (Label.service, service)]

end Catalog

end ArchFlow
