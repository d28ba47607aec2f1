/-!
# How file operations fail

* `FileFault.message`: the system's words for each cause.
-/

namespace ArchFlow

/-- Why a file operation fails. -/
inductive FileFault
  /-- A part of the path does not exist. -/
  | notFound
  /-- The path exists already. -/
  | alreadyExists
  /-- A part of the path that has to be a directory is a file. -/
  | notDirectory
  /-- The path is a directory where a file is wanted. -/
  | isDirectory
  /-- The path, or a part of it, has too many bytes. -/
  | nameTooLong
  /-- The content of the file is not a text. -/
  | notText
  /-- Anything else that the system reports. -/
  | reported (message : String)
deriving DecidableEq

/-- The system's words for a cause. -/
def FileFault.message : FileFault → String
  | .notFound => "No such file or directory (os error 2)"
  | .alreadyExists => "File exists (os error 17)"
  | .notDirectory => "Not a directory (os error 20)"
  | .isDirectory => "Is a directory (os error 21)"
  | .nameTooLong => "File name too long (os error 36)"
  | .notText => "stream did not contain valid UTF-8"
  | .reported message => message

end ArchFlow
