import ArchFlow.Flow.Traversal
import ArchFlow.Graph.Projection
import ArchFlow.Settings.Storage
import ArchFlow.Snapshot.Json
import ArchFlow.Snapshot.Registry

/-!
# Sessions

A session is a fact base with the settings that its flows are computed and drawn by.

* `Session.openFile`: the session of a file of facts and a project.
* `Session.roots`, `Session.flow`, `Session.graph`: what a session answers.
-/

namespace ArchFlow

/-- A fact base and the settings of its flows. -/
structure Session (ω : Type) where
  base : FactBase ω
  settings : Settings

namespace Session

variable {ω : Type}

/-- The session of a registry. -/
def build (r : Registry ω) (settings : Settings) : Loader ω (Session ω) := fun w =>
  match r.build w with
  | (.ok base, w) => (.ok ⟨base, settings⟩, w)
  | (.error failure, w) => (.error failure, w)

/-- The session of snapshots, whose sources know no world. -/
def ofSnapshots (snapshots : List Snapshot) (settings : Settings) : Except Failure (Session Unit) :=
  (build (.join (snapshots.map Snapshot.registry)) settings ()).1

/-- The snapshot in a file. -/
def readSnapshot {m : Type → Type} [Monad m] (fs : FileSystem m) (path : String) : m (Except Failure Snapshot) := do
  match ← fs.readText path with
  | .error fault => return .error (.provider (.unreadableFacts path fault))
  | .ok text =>
    match Snapshot.ofText text with
    | .error fault => return .error (.json fault)
    | .ok snapshot => return .ok snapshot

/-- The session of a file of facts and the settings of a project. -/
def openFile {m : Type → Type} [Monad m] (fs : FileSystem m) (facts project : String) :
    m (Except Failure (Session Unit)) := do
  match ← Settings.load fs project with
  | .error failure => return .error failure
  | .ok settings =>
    match ← readSnapshot fs facts with
    | .error failure => return .error failure
    | .ok snapshot => return ofSnapshots [snapshot] settings

/-- The registered elements of a kind, or else of the kinds that flows start from. -/
def roots (x : Session ω) : Option String → List Element
  | some kind => x.base.rootsOf (.ofKind kind)
  | none => x.base.rootsOf x.settings.rootType

/-- What computes the flows of the session. -/
def explorer (x : Session ω) : Explorer ω := ⟨x.base, x.settings.profile, .never⟩

/-- The flow from a root, down to a depth or else to the one that is configured. -/
def flow (x : Session ω) (root : ElementId) (depth : Option UInt64) (s : State ω) :
    Except Failure FlowTree × State ω :=
  x.explorer.flow root (depth.getD x.settings.maxDepth) s

/-- The graph of flows. -/
def graph (x : Session ω) (ts : List FlowTree) (s : State ω) : Graph × State ω :=
  project (.architecture x.base) x.settings.edgeLabels ts s

end Session

end ArchFlow
