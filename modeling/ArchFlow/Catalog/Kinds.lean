/-!
# Kinds of elements and links

The catalog names the kinds of elements and links of a software architecture, and the attributes that are known of
them. A graph may use other kinds too: the catalog is what flows follow, resolve and classify unless told otherwise.

* `ElementKind.all`: the kinds of elements, in the order of the catalog.
* `LinkKind.followed`: the kinds of links that flows follow.
* `Attribute.resolved`: the attributes that flows resolve.
-/

namespace ArchFlow

/-! ## Kinds -/

/-- The kinds of elements in the catalog. -/
inductive ElementKind
  | endpointController
  | endpointMinimalApi
  | controllerAction
  | httpClient
  | cqrsRequest
  | cqrsHandler
  | notificationHandler
  | efDbContext
  | efEntity
  | dbTable
  | database
  | repository
  | messagePublisher
  | messageContract
  | queue
  | topic
  | appService
  | backgroundService
  | configOptions
  | cacheOperation
deriving DecidableEq

/-- The name that facts give a kind. -/
def ElementKind.name : ElementKind → String
  | .endpointController => "endpoint.controller"
  | .endpointMinimalApi => "endpoint.minimal_api"
  | .controllerAction => "controller.action"
  | .httpClient => "http.client"
  | .cqrsRequest => "cqrs.request"
  | .cqrsHandler => "cqrs.handler"
  | .notificationHandler => "notification.handler"
  | .efDbContext => "ef.db_context"
  | .efEntity => "ef.entity"
  | .dbTable => "db.table"
  | .database => "db.database"
  | .repository => "app.repository"
  | .messagePublisher => "message.publisher"
  | .messageContract => "message.contract"
  | .queue => "message.queue"
  | .topic => "message.topic"
  | .appService => "app.service"
  | .backgroundService => "app.background_service"
  | .configOptions => "config.options"
  | .cacheOperation => "cache.operation"

/-- Every kind of element, in the order of the catalog. -/
def ElementKind.all : List ElementKind := [
  .endpointController, .endpointMinimalApi, .controllerAction, .httpClient, .cqrsRequest, .cqrsHandler,
  .notificationHandler, .efDbContext, .efEntity, .dbTable, .database, .repository, .messagePublisher,
  .messageContract, .queue, .topic, .appService, .backgroundService, .configOptions, .cacheOperation]

/-- The kinds of links in the catalog. -/
inductive LinkKind
  | calls
  | sendsRequest
  | handledBy
  | processedBy
  | usesClient
  | usesService
  | usesStorage
  | usesCache
  | readsFrom
  | writesTo
  | queries
  | publishes
  | publishesTo
  | consumesFrom
  | mapsTo
deriving DecidableEq

/-- The name that facts give a kind. -/
def LinkKind.name : LinkKind → String
  | .calls => "calls"
  | .sendsRequest => "sends_request"
  | .handledBy => "handled_by"
  | .processedBy => "processed_by"
  | .usesClient => "uses_client"
  | .usesService => "uses_service"
  | .usesStorage => "uses_storage"
  | .usesCache => "uses_cache"
  | .readsFrom => "reads_from"
  | .writesTo => "writes_to"
  | .queries => "queries"
  | .publishes => "publishes"
  | .publishesTo => "publishes_to"
  | .consumesFrom => "consumes_from"
  | .mapsTo => "maps_to"

/-- The kinds of links that a flow follows unless told otherwise, in the order in which it does. -/
def LinkKind.followed : List LinkKind := [
  .calls, .sendsRequest, .handledBy, .usesClient, .usesService, .usesStorage, .writesTo, .readsFrom, .queries,
  .publishes, .publishesTo, .consumesFrom]

/-! ## Attributes -/

namespace Attribute

/-- The attribute that every classification is about. -/
def kind : String := "Kind"

/-- The verb of an HTTP request. -/
def verb : String := "Verb"

/-- The route of an HTTP request. -/
def route : String := "Route"

/-- The entity that a storage element handles. -/
def entity : String := "Entity"

/-- The table that a storage element handles. -/
def table : String := "Table"

/-- The contract of a message. -/
def contract : String := "Contract"

/-- The attributes that a flow resolves unless told otherwise. -/
def resolved : List String := [
  "ServiceName", verb, route, "BaseUrl", "RepositoryName", "DatabaseName", "QueueName", "TopicName", "MessageType",
  entity, table, contract, "Provenance", "Confidence"]

end Attribute

end ArchFlow
