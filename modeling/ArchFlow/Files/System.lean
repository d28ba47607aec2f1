import ArchFlow.Files.Fault
import ArchFlow.Files.Path

/-!
# File systems

What the program asks of a file system, in whatever monad the file system lives.

* `FileSystem.makeDirectories`: a directory with all the directories above it.
-/

namespace ArchFlow

/-- The operations of a file system. -/
structure FileSystem (m : Type → Type) where
  /-- Whether there is anything at a path. -/
  present : String → m Bool
  /-- Whether there is a directory at a path. -/
  isDirectory : String → m Bool
  /-- The text of a file. -/
  readText : String → m (Except FileFault String)
  /-- Makes a directory in one that exists. -/
  makeDirectory : String → m (Except FileFault Unit)
  /-- Writes a file, over one that exists. -/
  writeText : String → String → m (Except FileFault Unit)
  /-- Moves a file, over one that exists. -/
  rename : String → String → m (Except FileFault Unit)

namespace FileSystem

variable {m : Type → Type} [Monad m] (fs : FileSystem m)

/-- A failure to make a directory that is there already is none. -/
def unlessDirectory (path : String) (fault : FileFault) : m (Except FileFault Unit) := do
  if ← fs.isDirectory path then return .ok () else return .error fault

/-- Makes the directory of the given parts, the last one first, and those above it where they are missing. -/
def makeDirectoriesUp : List String → m (Except FileFault Unit)
  | [] => return .ok ()
  | part :: above =>
    if Path.isIdle part then makeDirectoriesUp above
    else do
      let path := Path.ofParts (part :: above).reverse
      match ← fs.makeDirectory path with
      | .ok () => return .ok ()
      | .error .notFound =>
        match ← makeDirectoriesUp above with
        | .error fault => return .error fault
        | .ok () =>
          match ← fs.makeDirectory path with
          | .ok () => return .ok ()
          | .error fault => fs.unlessDirectory path fault
      | .error fault => fs.unlessDirectory path fault

/-- Makes a directory, and those above it where they are missing. -/
def makeDirectories (path : String) : m (Except FileFault Unit) :=
  fs.makeDirectoriesUp (Path.parts path).reverse

end FileSystem

end ArchFlow
