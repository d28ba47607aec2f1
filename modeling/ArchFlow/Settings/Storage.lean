import ArchFlow.Failure
import ArchFlow.Files.System
import ArchFlow.Settings.Json

/-!
# Stored settings

The settings of a project are in a file in a hidden directory of the project. They are written to a temporary file
beside it, which then takes the place of the old one.

* `Settings.load`: the settings of a project; the default ones where there is no file.
* `Settings.save`: writes the settings of a project.
-/

namespace ArchFlow

namespace Settings

/-- The hidden directory of a project. -/
def directory (project : String) : String := Path.join project ".flowslice"

/-- The file with the settings of a project. -/
def path (project : String) : String := Path.join (directory project) "config.json"

/-- The file that settings are written to at first. -/
def temporaryPath (project : String) : String := Path.join (directory project) "config.tmp"

variable {m : Type → Type} [Monad m] (fs : FileSystem m)

/-- The settings of a project. -/
def load (project : String) : m (Except Failure Settings) := do
  if ← fs.present (path project) then
    match ← fs.readText (path project) with
    | .error fault => return .error (.config (.unreadable (path project) fault))
    | .ok text =>
      match Json.decode decoder text with
      | .error fault => return .error (.config (.undecodable (path project) fault))
      | .ok settings => return .ok settings
  else return .ok default

/-- Writes the settings of a project. -/
def save (project : String) (c : Settings) : m (Except Failure Unit) := do
  match ← fs.makeDirectories (directory project) with
  | .error fault => return .error (.config (.noDirectory (directory project) fault))
  | .ok () =>
    match ← fs.writeText (temporaryPath project) c.toJson.pretty with
    | .error fault => return .error (.config (.unwritable (temporaryPath project) fault))
    | .ok () =>
      match ← fs.rename (temporaryPath project) (path project) with
      | .error fault => return .error (.config (.notRenamed (temporaryPath project) (path project) fault))
      | .ok () => return .ok ()

end Settings

end ArchFlow
