/-
# Packages and imports

A file belongs to the package of the nearest manifest between it and the root of the project: the one
that the manifest names, or else the directory that holds it, or else the root. What was found for a
directory is kept.

An import within the project is written as a path; it leads to the first of several files that it may
stand for, so long as that path does not leave the root.

Key definitions: `ProjectContext`, `ProjectContext.packageFor`, `ProjectContext.resolve?`.
-/
import CodeAtlas.Project.Discover

namespace CodeAtlas

/-- What is known of a project while its files are read: its root as it was given, the path from the
root of the file system, its name, and the packages of directories. -/
structure ProjectContext where
  root : String
  anchor : String
  rootName : String
  packages : List (List Segment × String)
  deriving DecidableEq

namespace ProjectContext

/-- The path from the root of the file system. -/
def anchored? (fs : FileSystem) (path : String) : Option String :=
  (Path.absolute? fs.cwd path).map Path.ofNames

/-- A project of which no package is known. -/
def new (fs : FileSystem) (root : String) : ProjectContext :=
  let anchor := (anchored? fs root).getD root
  ⟨root, anchor, (Path.fileName? anchor).getD "root", []⟩

/-- The name that a manifest gives its package. -/
def manifestName? (fs : FileSystem) (manifest : String) : Option String :=
  match fs.read manifest with
  | .error _ => none
  | .ok content =>
    ((((FileSystem.textOf? content).bind Json.parse?).bind (·.field? "name")).bind
      Json.string?).filter (· != "")

/-- The package known for a directory. -/
def known? (c : ProjectContext) (dir : String) : Option String :=
  c.packages.lookup (Path.segments dir)

/-- The package of the nearest manifest from a directory upwards, with at most `fuel` steps. -/
def nearest? (c : ProjectContext) (fs : FileSystem) : Nat → String → Option String
  | 0, _ => none
  | fuel + 1, dir =>
    if !Path.isWithin c.root dir then none
    else match c.known? dir with
      | some package => some package
      | none =>
        let manifest := Path.join dir "package.json"
        if fs.isFile manifest then
          some ((manifestName? fs manifest).getD ((Path.fileName? dir).getD c.rootName))
        else (Path.parent? dir).bind (c.nearest? fs fuel)

/-- The directory of a file. -/
def dirOf (c : ProjectContext) (file : String) : String := (Path.parent? file).getD c.root

/-- The package of a file, and what is known afterwards. -/
def packageFor (c : ProjectContext) (fs : FileSystem) (file : String) : String × ProjectContext :=
  let dir := c.dirOf file
  match c.known? dir with
  | some package => (package, c)
  | none =>
    let package := (c.nearest? fs (dir.length + 2) dir).getD c.rootName
    (package, { c with packages := (Path.segments dir, package) :: c.packages })

/-- The path that an import stands for, before it is known to lead to a file. -/
def importBase? (c : ProjectContext) (fs : FileSystem) (file module : String) : Option String :=
  (if Path.isAbsolute module then
    some (Path.join c.root (Text.trimStart (· == '/') module))
  else (Path.parent? file).map fun dir => Path.join dir module).bind (anchored? fs)

/-- The files that an import may lead to: the path itself, the same name with the extension of the
source for that of the compiled file, the path with an extension, or an index file. -/
def importCandidates (config : ExtractionConfig) (base : String) : List String :=
  base :: ((match Text.dropEnd? ".js" base with
    | some stem => [stem ++ ".ts", stem ++ ".tsx"]
    | none => []) ++
  config.extensions.map (fun ext => base ++ "." ++ ext) ++
  config.extensions.map fun ext => Path.join base ("index." ++ ext))

/-- The file of the project that an import in a file leads to. -/
def resolve? (c : ProjectContext) (fs : FileSystem) (config : ExtractionConfig)
    (file module : String) : Option String :=
  (c.importBase? fs file module).bind fun base =>
    if !Path.isWithin c.anchor base then none
    else ((importCandidates config base).find? fun p => fs.isFile p && config.allows p).map
      (Path.relative c.anchor)

end ProjectContext

end CodeAtlas
