/-
# The files of a project

The source files of a project are the files below its root with one of the extensions, in whatever
case, unless a directory on the way to them is passed over: one whose name begins with a dot or is in a
list. They are listed in the order of the names that lead to them.

Key definitions: `ExtractionConfig`, `ExtractionConfig.isIgnored`, `ExtractionConfig.allows`,
`FileSystem.discover`.
-/
import CodeAtlas.Json.Fields
import CodeAtlas.Project.FileSystem
import CodeAtlas.Text.Casing

namespace CodeAtlas

/-- Which files belong to a project. -/
structure ExtractionConfig where
  extensions : List String := ["ts", "tsx", "js", "jsx", "mjs", "cjs"]
  ignoredDirs : List String :=
    ["node_modules", "dist", "build", "out", "target", "coverage", "vendor", "__pycache__"]
  maxFileSize : Nat := 2097152
  deriving DecidableEq

namespace ExtractionConfig

/-- Whether a directory of that name is passed over. -/
def isIgnored (c : ExtractionConfig) (name : String) : Bool :=
  Text.beginsWith "." name || c.ignoredDirs.contains name

/-- Whether a path has one of the extensions. -/
def allows (c : ExtractionConfig) (path : String) : Bool :=
  (Path.extension? path).any fun ext =>
    c.extensions.any fun allowed => Text.foldAscii allowed == Text.foldAscii ext

/-- The settings of a document; what it leaves out has its default. -/
def ofDocument? (d : Document) : Option ExtractionConfig := do
  let standard : ExtractionConfig := {}
  let f ← Fields.of? ["extensions", "ignored_dirs", "max_file_size"] d
  return {
    extensions := ← f.withDefault "extensions" Document.strings? standard.extensions
    ignoredDirs := ← f.withDefault "ignored_dirs" Document.strings? standard.ignoredDirs
    maxFileSize := ← f.withDefault "max_file_size" Document.nat? standard.maxFileSize }

/-- The settings as JSON. -/
def toJson (c : ExtractionConfig) : Json :=
  .object
    [("extensions", .strings c.extensions), ("ignored_dirs", .strings c.ignoredDirs),
     ("max_file_size", .nat c.maxFileSize)]

end ExtractionConfig

namespace FileSystem

/-- The names that lead from a directory to an entry below it. -/
def below? (base names : List String) : Option (List String) :=
  if base.isPrefixOf names then some (names.drop base.length) else none

/-- Whether a file, by the names that lead to it from the root of the project, belongs to it. -/
def belongs (c : ExtractionConfig) (names : List String) : Bool :=
  !names.isEmpty && !names.dropLast.any c.isIgnored &&
    c.allows (Path.ofParts names)

/-- The names that lead from a directory to the source files below it. -/
def sourceNames (fs : FileSystem) (c : ExtractionConfig) (base : List String) :
    List (List String) :=
  (fs.entries.entries.filter (·.2.isFile)).filterMap fun e =>
    (below? base e.1).filter (belongs c)

/-- The source files of a project, by its root. -/
def discover (fs : FileSystem) (root : String) (c : ExtractionConfig) : List String :=
  match fs.locate root with
  | .error _ => []
  | .ok base =>
    match fs.entry? base with
    | none => []
    | some (.file ..) => if c.allows root then [root] else []
    | some .directory =>
      (fs.sourceNames c base).map fun names => Path.join root (Path.ofParts names)

end FileSystem

end CodeAtlas
