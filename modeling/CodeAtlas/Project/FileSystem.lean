/-
# Files and directories

A file system is a map from the names that lead to an entry, starting at the root, to the entry: a file
with its content and the time it was changed, or a directory. The root is always there. A path is
followed piece by piece, and whatever is not its last piece must lead to a directory. A file may be there
and yet withhold its content from whoever reads it.

A system may refuse a change that the tree allows; a medium says what it refuses. A file is replaced by
way of a draft beside it, which takes its place only when it is complete and is gone otherwise.

Key definitions: `Content`, `Entry`, `FileSystem`, `FileError`, `Medium`, `FileSystem.locate`, `FileSystem.read`,
`FileSystem.write`, `FileSystem.replaceOn`, `FileSystem.makeDirs`, `FileSystem.place`,
`FileSystem.removeFile`, `FileSystem.removeTree`.
-/
import CodeAtlas.Project.Path
import CodeAtlas.SortedMap

namespace CodeAtlas

/-- What a file holds: bytes, or so many of them that may not be read. -/
inductive Content where
  | bytes (data : List UInt8)
  | withheld (size : Nat)
  deriving DecidableEq

namespace Content

/-- The number of bytes. -/
def size : Content → Nat
  | .bytes data => data.length
  | .withheld size => size

/-- The bytes, if they may be read. -/
def bytes? : Content → Option (List UInt8)
  | .bytes data => some data
  | .withheld _ => none

end Content

/-- A file with its content and the time of its last change, or a directory. -/
inductive Entry where
  | file (content : Content) (mtime : Int)
  | directory
  deriving DecidableEq

namespace Entry

/-- Whether the entry is a file. -/
def isFile : Entry → Bool
  | .file .. => true
  | .directory => false

/-- The size that is reported for a directory. -/
def directorySize : Nat := 4096

/-- The size of an entry. -/
def size : Entry → Nat
  | .file content _ => content.size
  | .directory => directorySize

/-- The time of the last change. -/
def mtime : Entry → Int
  | .file _ mtime => mtime
  | .directory => 0

end Entry

/-- Why a file operation failed. -/
inductive FileError where
  | notFound
  | notADirectory
  | isADirectory
  | alreadyExists
  | permissionDenied
  | storageFull
  deriving DecidableEq

namespace FileError

/-- The name of the cause. -/
def name : FileError → String
  | .notFound => "NotFound"
  | .notADirectory => "NotADirectory"
  | .isADirectory => "IsADirectory"
  | .alreadyExists => "AlreadyExists"
  | .permissionDenied => "PermissionDenied"
  | .storageFull => "StorageFull"

/-- The text that the system gives. -/
def message : FileError → String
  | .notFound => "No such file or directory (os error 2)"
  | .notADirectory => "Not a directory (os error 20)"
  | .isADirectory => "Is a directory (os error 21)"
  | .alreadyExists => "File exists (os error 17)"
  | .permissionDenied => "Permission denied (os error 13)"
  | .storageFull => "No space left on device (os error 28)"

end FileError

/-- The entries by the names that lead to them, and the names that lead to the working directory. -/
structure FileSystem where
  entries : SortedMap (List String) Entry
  cwd : List String
  deriving DecidableEq

/-- A change that a system makes on the way to a new directory or a replaced file. -/
inductive Change where
  | makeDir (path : String)
  | makeDraft (dir : String)
  | fillDraft (dir : String)
  | rename (path : String)
  deriving DecidableEq

/-- What a system refuses although the tree allows it, for want of a permission, say, or of space. -/
structure Medium where
  refusal? : FileSystem → Change → Option FileError

namespace Medium

/-- The system that refuses nothing. -/
def willing : Medium := ⟨fun _ _ => none⟩

/-- Goes on unless the change is refused. -/
def check (m : Medium) (fs : FileSystem) (c : Change) : Except FileError Unit :=
  match m.refusal? fs c with
  | some e => .error e
  | none => .ok ()

end Medium

namespace FileSystem

/-- The entry that names lead to. -/
def entry? (fs : FileSystem) (names : List String) : Option Entry :=
  if names.isEmpty then some .directory else fs.entries.get? names

/-- Follows the pieces of a path from an entry. The last piece need not lead to anything. -/
def follow (fs : FileSystem) : List String → List String → Except FileError (List String)
  | names, [] => .ok names
  | names, piece :: rest =>
    match fs.entry? names with
    | none => .error .notFound
    | some (.file ..) => .error .notADirectory
    | some .directory =>
      if Path.isTrivial piece then fs.follow names rest
      else if piece == ".." then fs.follow names.dropLast rest
      else fs.follow (names ++ [piece]) rest

/-- The names that a path leads to. -/
def locate (fs : FileSystem) (path : String) : Except FileError (List String) :=
  if path == "" then .error .notFound
  else if Path.isAbsolute path then fs.follow [] (Path.pieces path)
  else fs.follow fs.cwd (Path.pieces path)

/-- The entry that a path leads to. -/
def find (fs : FileSystem) (path : String) : Except FileError Entry := do
  match fs.entry? (← fs.locate path) with
  | some e => .ok e
  | none => .error .notFound

/-- Whether a path leads to a file. -/
def isFile (fs : FileSystem) (path : String) : Bool :=
  match fs.find path with
  | .ok e => e.isFile
  | .error _ => false

/-- Whether a path leads to a directory. -/
def isDirectory (fs : FileSystem) (path : String) : Bool :=
  match fs.find path with
  | .ok e => !e.isFile
  | .error _ => false

/-- The content of a file. -/
def read (fs : FileSystem) (path : String) : Except FileError (List UInt8) := do
  match ← fs.find path with
  | .file (.bytes data) _ => .ok data
  | .file (.withheld _) _ => .error .permissionDenied
  | .directory => .error .isADirectory

/-- The text that bytes encode. -/
def textOf? (content : List UInt8) : Option String := String.fromUTF8? ⟨content.toArray⟩

/-- The file system with an entry written. -/
def put (fs : FileSystem) (names : List String) (e : Entry) : FileSystem :=
  { fs with entries := fs.entries.insert names e }

/-- Whether the directory that an entry is in is there. -/
def checkParent (fs : FileSystem) (names : List String) : Except FileError Unit :=
  match fs.entry? names.dropLast with
  | none => .error .notFound
  | some (.file ..) => .error .notADirectory
  | some .directory => .ok ()

/-- Writes a new file, in place of one that is there. -/
def write (fs : FileSystem) (path : String) (content : List UInt8) (mtime : Int) :
    Except FileError FileSystem := do
  let names ← fs.locate path
  match fs.entry? names with
  | some .directory => .error .isADirectory
  | some (.file ..) => .ok (fs.put names (.file (.bytes content) mtime))
  | none =>
    fs.checkParent names
    .ok (fs.put names (.file (.bytes content) mtime))

/-- Makes a directory. -/
def makeDir (fs : FileSystem) (path : String) : Except FileError FileSystem := do
  let names ← fs.locate (Path.trimmed (Path.pieces path))
  match fs.entry? names with
  | some _ => .error .alreadyExists
  | none =>
    fs.checkParent names
    .ok (fs.put names .directory)

/-- Writes a file by way of a draft in the directory, so that it is written as a whole or not at all. -/
def replaceOn (m : Medium) (fs : FileSystem) (dir path : String) (content : List UInt8)
    (mtime : Int) : Except FileError FileSystem := do
  m.check fs (.makeDraft dir)
  m.check fs (.fillDraft dir)
  m.check fs (.rename path)
  fs.write path content mtime

/-- Makes a directory, or finds it. -/
def ensureDir (m : Medium) (fs : FileSystem) (path : String) : Except FileError FileSystem :=
  match (m.check fs (.makeDir path)).bind fun _ => fs.makeDir path with
  | .ok fs => .ok fs
  | .error e => if fs.isDirectory path then .ok fs else .error e

/-- Makes a directory and those it is in, with at most `fuel` steps up. What was made stays made where
a later step fails. -/
def makeDirsFrom (m : Medium) : Nat → FileSystem → String → FileSystem × Except FileError Unit
  | 0, fs, _ => (fs, .error .notFound)
  | fuel + 1, fs, path =>
    if path == "" then (fs, .ok ())
    else match ensureDir m fs path with
      | .ok fs => (fs, .ok ())
      | .error .notFound =>
        match Path.parent? path with
        | none => (fs, .error .notFound)
        | some parent =>
          match makeDirsFrom m fuel fs parent with
          | (fs, .error e) => (fs, .error e)
          | (fs, .ok ()) =>
            match ensureDir m fs path with
            | .ok fs => (fs, .ok ())
            | .error e => (fs, .error e)
      | .error e => (fs, .error e)

/-- Makes a directory and those it is in, unless the system refuses. -/
def makeDirsOn (m : Medium) (fs : FileSystem) (path : String) : FileSystem × Except FileError Unit :=
  makeDirsFrom m (path.length + 1) fs path

/-- Makes a directory and those it is in. -/
def makeDirs (fs : FileSystem) (path : String) : FileSystem × Except FileError Unit :=
  makeDirsOn .willing fs path

/-- Writes a file, with the directories it is in. -/
def place (fs : FileSystem) (path : String) (content : List UInt8) (mtime : Int) :
    FileSystem × Except FileError Unit :=
  match fs.makeDirs ((Path.parent? path).getD "") with
  | (fs, .error e) => (fs, .error e)
  | (fs, .ok ()) =>
    match fs.write path content mtime with
    | .ok fs => (fs, .ok ())
    | .error e => (fs, .error e)

/-- Removes a file. -/
def removeFile (fs : FileSystem) (path : String) : Except FileError FileSystem := do
  let names ← fs.locate path
  match fs.entry? names with
  | none => .error .notFound
  | some .directory => .error .isADirectory
  | some (.file ..) => .ok { fs with entries := fs.entries.erase names }

/-- Removes a directory and all it holds. -/
def removeTree (fs : FileSystem) (path : String) : Except FileError FileSystem := do
  let names ← fs.locate path
  match fs.entry? names with
  | none => .error .notFound
  | some (.file ..) => .error .notADirectory
  | some .directory =>
    .ok { fs with entries := fs.entries.filter fun other _ => !names.isPrefixOf other }

end FileSystem

end CodeAtlas
