/-!
# Paths

A path is a text; slashes divide it into parts. A part that is empty or a single point adds nothing to a path. Neither
a path nor a part may be too long; what counts is the number of bytes.
-/

namespace ArchFlow.Path

/-- The path of a name below another path. -/
def join (base name : String) : String :=
  if base = "" then name
  else if base.toList.getLast? = some '/' then base ++ name
  else base ++ "/" ++ name

/-- The parts between the slashes of a text. -/
def split : List Char → List (List Char)
  | [] => [[]]
  | c :: cs =>
    if c = '/' then [] :: split cs
    else
      match split cs with
      | part :: parts => (c :: part) :: parts
      | [] => [[c]]

/-- The parts between the slashes of a path. -/
def parts (path : String) : List String := (split path.toList).map String.ofList

/-- Whether a path starts at the root of the file system. -/
def isAbsolute (path : String) : Bool := path.toList.head? = some '/'

/-- Whether a part leads nowhere else. -/
def isIdle (part : String) : Bool := part = "" || part = "."

/-- The path of some parts; the parts of an absolute path begin with an empty one. -/
def ofParts (parts : List String) : String := "/".intercalate parts

/-- Whether a text is too long for a path. -/
def isTooLong (path : String) : Bool := 4095 < path.utf8ByteSize

/-- Whether a part of a path is too long for a name. -/
def isTooLongName (part : String) : Bool := 255 < part.utf8ByteSize

end ArchFlow.Path
