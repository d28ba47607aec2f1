import ArchFlow.Command.Run

/-!
# The program

Runs a command line in the file system of the machine. The default project is the current directory.
-/

namespace ArchFlow

namespace Machine

/-- The fault of an error code of the machine, or of its negative. -/
def ofCode (code : UInt32) (details : String) : FileFault :=
  if code = 20 ∨ 0 - code = 20 then .notDirectory
  else if code = 21 ∨ 0 - code = 21 then .isDirectory
  else if code = 36 ∨ 0 - code = 36 then .nameTooLong
  else .reported details

/-- What a file error of the machine comes to. -/
def fault (e : IO.Error) : FileFault :=
  match e with
  | .noFileOrDirectory _ _ _ => .notFound
  | .noSuchThing _ _ _ => .notFound
  | .alreadyExists _ _ _ => .alreadyExists
  | .inappropriateType _ code details => ofCode code details
  | .invalidArgument _ code details => ofCode code details
  | e => .reported (toString e)

/-- The result of a file operation, with the fault if it fails. -/
def attempt {α : Type} (act : IO α) : IO (Except FileFault α) := do
  try
    let a ← act
    return .ok a
  catch e => return .error (fault e)

/-- Whether an operation succeeds. -/
def succeeds {α : Type} (act : IO α) : IO Bool := return (← attempt act).toBool

/-- The text of a file. -/
def readText (path : String) : IO (Except FileFault String) := do
  match ← attempt (IO.FS.readBinFile path) with
  | .error fault => return .error fault
  | .ok content =>
    match String.fromUTF8? content with
    | some text => return .ok text
    | none => return .error .notText

/-- The file system of the machine. -/
def files : FileSystem IO where
  present path := succeeds (IO.FS.realPath path)
  isDirectory path := succeeds (IO.FS.realPath (path ++ "/."))
  readText := readText
  makeDirectory path := attempt (IO.FS.createDir path)
  writeText path text := attempt (IO.FS.writeFile path text)
  rename source target := attempt (IO.FS.rename source target)

end Machine

/-- Runs a command line on the machine. -/
def runOnMachine (args : List String) : IO UInt32 := do
  let here := toString (← IO.currentDir)
  let outcome ← runArguments Machine.files here args
  IO.print outcome.output
  IO.eprint outcome.errors
  return outcome.status

end ArchFlow

/-- The program. -/
def main (args : List String) : IO UInt32 := ArchFlow.runOnMachine args
