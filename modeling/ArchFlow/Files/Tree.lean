import ArchFlow.Files.System
import ArchFlow.SortedMap

/-!
# File trees

A file system as a value: its files and directories, by the names that lead to them from the top. Whatever is in the
tree is in a directory of the tree. Paths that are not absolute start from one of the directories, the home of the tree.

* `FileTree.follow`: the way of a path through the tree.
* `FileTree.place`: the way of a path whose last step may be new.
* `FileTree.system`: the tree as the file system of a program.
-/

namespace ArchFlow

/-- What is at a path. -/
inductive FileEntry
  | file (content : ByteArray)
  | directory

/-- Files are told apart by their bytes. -/
instance : DecidableEq FileEntry
  | .directory, .directory => isTrue rfl
  | .directory, .file _ => isFalse nofun
  | .file _, .directory => isFalse nofun
  | .file a, .file b =>
    if h : a.data.toList = b.data.toList then
      isTrue (congrArg FileEntry.file (ByteArray.ext (Array.toList_inj.1 h)))
    else isFalse fun e => h (by injection e with e; rw [e])

/-- What is at the end of a way; the way without steps ends at the top, which is a directory. -/
def entryAt (entries : SortedMap (List String) FileEntry) (names : List String) : Option FileEntry :=
  if names = [] then some .directory else entries.get? names

/-- Files and directories, and the way to the directory where relative paths start. -/
structure FileTree where
  home : List String
  entries : SortedMap (List String) FileEntry
  /-- What is in the tree is in a directory. -/
  rooted : ∀ names name, (entryAt entries (names ++ [name])).isSome → entryAt entries names = some .directory

namespace FileTree

/-- The tree without entries. -/
def empty (home : List String) : FileTree where
  home
  entries := .empty
  rooted names name h := by simp [entryAt, SortedMap.get?, SortedMap.empty] at h

/-- What is at the end of a way. -/
def find? (t : FileTree) (names : List String) : Option FileEntry := entryAt t.entries names

/-! ## Changes -/

/-- A way that ends in a directory of the tree, or one step below such a directory. -/
def Reachable (t : FileTree) (names : List String) : Prop :=
  t.find? names = some .directory ∨ t.find? names.dropLast = some .directory

/-- Writing an entry changes nothing at the end of other ways. -/
theorem entryAt_insert {entries : SortedMap (List String) FileEntry} {names : List String} (h : names ≠ [])
    (e : FileEntry) (ways : List String) :
    entryAt (entries.insert names e) ways = if names = ways then some e else entryAt entries ways := by
  unfold entryAt
  by_cases hw : ways = []
  · simp [hw, h]
  · simp [hw, SortedMap.get?_insert]

/-- Erasing an entry changes nothing at the end of other ways. -/
theorem entryAt_erase {entries : SortedMap (List String) FileEntry} {names : List String} (h : names ≠ [])
    (ways : List String) :
    entryAt (entries.erase names) ways = if names = ways then none else entryAt entries ways := by
  unfold entryAt
  by_cases hw : ways = []
  · simp [hw, h]
  · simp [hw, SortedMap.get?_erase]

theorem ne_nil_of_find {t : FileTree} {names : List String} (h : t.find? names ≠ some .directory) : names ≠ [] := by
  rintro rfl
  exact h rfl

/-- Puts an entry at the end of a way that does not end in a directory. -/
def put (t : FileTree) (names : List String) (e : FileEntry) (reachable : t.Reachable names)
    (free : t.find? names ≠ some .directory) : FileTree where
  home := t.home
  entries := t.entries.insert names e
  rooted ways name h := by
    have hne := ne_nil_of_find free
    rw [entryAt_insert hne] at h ⊢
    have hparent : entryAt t.entries ways = some .directory := by
      split at h
      · next heq =>
        have := reachable.resolve_left free
        rwa [heq, List.dropLast_concat] at this
      · exact t.rooted ways name h
    split
    · next heq => exact absurd (heq ▸ hparent) free
    · exact hparent

/-- The tree without the file at the end of a way. -/
def removeFile (t : FileTree) (names : List String) (free : t.find? names ≠ some .directory) : FileTree where
  home := t.home
  entries := t.entries.erase names
  rooted ways name h := by
    have hne := ne_nil_of_find free
    rw [entryAt_erase hne] at h ⊢
    have hparent : entryAt t.entries ways = some .directory := by
      split at h
      · simp at h
      · exact t.rooted ways name h
    split
    · next heq => exact absurd (heq ▸ hparent) free
    · exact hparent

/-- What is put at the end of a way is found there, and all else is as before. -/
theorem find_put {t : FileTree} {names : List String} {e : FileEntry} (h : t.Reachable names)
    (free : t.find? names ≠ some .directory) (ways : List String) :
    (t.put names e h free).find? ways = if names = ways then some e else t.find? ways :=
  entryAt_insert (ne_nil_of_find free) e ways

/-- Nothing is found where a file was removed, and all else is as before. -/
theorem find_removeFile {t : FileTree} {names : List String} (free : t.find? names ≠ some .directory)
    (ways : List String) :
    (t.removeFile names free).find? ways = if names = ways then none else t.find? ways :=
  entryAt_erase (ne_nil_of_find free) ways

/-- No directory is lost with a file. -/
theorem reachable_removeFile {t : FileTree} {names ways : List String} (free : t.find? names ≠ some .directory)
    (h : t.Reachable ways) : (t.removeFile names free).Reachable ways := by
  have keep : ∀ {way : List String}, t.find? way = some .directory →
      (t.removeFile names free).find? way = some .directory := by
    intro way hway
    rw [find_removeFile, if_neg]
    · exact hway
    · rintro rfl
      exact free hway
  exact h.imp keep keep

/-! ## Paths -/

/-- The parts of a path that may lead somewhere. -/
def partsOf (path : String) : Except FileFault (List String) :=
  if path = "" then .error .notFound
  else if Path.isTooLong path then .error .nameTooLong
  else .ok (Path.parts path)

/-- The way to where a path starts. -/
def startOf (t : FileTree) (path : String) : List String := if Path.isAbsolute path then [] else t.home

/-- Goes on from the end of a way; each step starts in a directory, and the last one may end at a file. Nothing is above
the top but the top itself. -/
def step (t : FileTree) : List String → List String → Except FileFault (List String)
  | here, [] => if (t.find? here).isSome then .ok here else .error .notFound
  | here, part :: parts =>
    match t.find? here with
    | none => .error .notFound
    | some (.file _) => .error .notDirectory
    | some .directory =>
      if Path.isIdle part then step t here parts
      else if part = ".." then step t here.dropLast parts
      else if Path.isTooLongName part then .error .nameTooLong
      else step t (here ++ [part]) parts

/-- The way of a path to what is there. -/
def follow (t : FileTree) (path : String) : Except FileFault (List String) :=
  match partsOf path with
  | .error fault => .error fault
  | .ok parts => t.step (t.startOf path) parts

/-- The way that leads from a directory over one more part of a path, to a place that need not be taken. -/
def below (t : FileTree) (here : List String) (part : String) :
    Except FileFault { names : List String // t.Reachable names } :=
  if h : t.find? here = some .directory then
    if Path.isIdle part then .ok ⟨here, Or.inl h⟩
    else if part = ".." then
      if hd : t.find? here.dropLast = some .directory then .ok ⟨here.dropLast, Or.inl hd⟩ else .error .notFound
    else if Path.isTooLongName part then .error .nameTooLong
    else .ok ⟨here ++ [part], Or.inr (by rwa [List.dropLast_concat])⟩
  else .error .notDirectory

/-- The way of a path to a place that need not be taken, in a directory that exists. -/
def place (t : FileTree) (path : String) : Except FileFault { names : List String // t.Reachable names } :=
  match partsOf path with
  | .error fault => .error fault
  | .ok parts =>
    match t.step (t.startOf path) parts.dropLast with
    | .error fault => .error fault
    | .ok here => t.below here (parts.getLast?.getD "")

/-- What is at a path. -/
def at? (t : FileTree) (path : String) : Except FileFault FileEntry :=
  match t.follow path with
  | .error fault => .error fault
  | .ok names =>
    match t.find? names with
    | some e => .ok e
    | none => .error .notFound

/-! ## Operations -/

/-- The text of a file. -/
def readText (t : FileTree) (path : String) : Except FileFault String :=
  match t.at? path with
  | .error fault => .error fault
  | .ok .directory => .error .isDirectory
  | .ok (.file content) =>
    match String.fromUTF8? content with
    | some text => .ok text
    | none => .error .notText

/-- Whether there is a directory at a path. -/
def isDirectory (t : FileTree) (path : String) : Bool :=
  match t.at? path with
  | .ok .directory => true
  | _ => false

/-- The tree with a new directory. -/
def makeDirectory (t : FileTree) (path : String) : Except FileFault FileTree :=
  match t.place path with
  | .error fault => .error fault
  | .ok ⟨names, h⟩ =>
    if free : t.find? names = none then .ok (t.put names .directory h (by simp [free])) else .error .alreadyExists

/-- The tree with a file of the given content. -/
def writeFile (t : FileTree) (path : String) (content : ByteArray) : Except FileFault FileTree :=
  match t.place path with
  | .error fault => .error fault
  | .ok ⟨names, h⟩ =>
    if free : t.find? names = some .directory then .error .isDirectory else .ok (t.put names (.file content) h free)

/-- The tree with a file moved to another path. -/
def rename (t : FileTree) (source target : String) : Except FileFault FileTree :=
  match t.follow source with
  | .error fault => .error fault
  | .ok names =>
    match moved : t.find? names with
    | none => .error .notFound
    | some .directory => .error .isDirectory
    | some (.file content) =>
      match t.place target with
      | .error fault => .error fault
      | .ok ⟨ways, h⟩ =>
        have file : t.find? names ≠ some .directory := by simp [moved]
        if free : (t.removeFile names file).find? ways = some .directory then .error .isDirectory
        else .ok ((t.removeFile names file).put ways (.file content) (reachable_removeFile file h) free)

/-- The change of a tree as a step of a program; a change that fails leaves the tree as it is. -/
def change (f : FileTree → Except FileFault FileTree) : StateM FileTree (Except FileFault Unit) := fun t =>
  match f t with
  | .ok t => (.ok (), t)
  | .error fault => (.error fault, t)

/-- The tree as the file system of a program. -/
def system : FileSystem (StateM FileTree) where
  present path := fun t => ((t.follow path).toBool, t)
  isDirectory path := fun t => (t.isDirectory path, t)
  readText path := fun t => (t.readText path, t)
  makeDirectory path := change fun t => t.makeDirectory path
  writeText path text := change fun t => t.writeFile path text.toUTF8
  rename source target := change fun t => t.rename source target

end FileTree

end ArchFlow
