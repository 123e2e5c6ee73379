/-
# Reading the files of a project

A file is read, parsed, and placed in its package, and its internal imports are followed. A file that
cannot be read is passed over, with the reason.

Key definitions: `ProjectContext.factsAt`, `Extraction`, `Extraction.of`.
-/
import CodeAtlas.Project.Package
import CodeAtlas.Source.Sample

namespace CodeAtlas

namespace ProjectContext

/-- The text of a file that is not too large. -/
def fileText (c : ProjectContext) (fs : FileSystem) (config : ExtractionConfig) (path : String) :
    Except Fault String :=
  let fail (message : String) : Except Fault String :=
    .error (.parse (Path.relative c.root path) message)
  match fs.find path with
  | .error e => fail e.message
  | .ok entry =>
    if config.maxFileSize < entry.size then
      fail ("file too large (" ++ toString entry.size ++ " bytes)")
    else match fs.read path with
      | .error e => fail e.message
      | .ok content =>
        match FileSystem.textOf? content with
        | none => fail "not valid UTF-8"
        | some text => .ok text

/-- The files that the internal imports of a file lead to. -/
def resolvedImports (c : ProjectContext) (fs : FileSystem) (config : ExtractionConfig)
    (path : String) (facts : FileFacts) : List (String × String) :=
  (facts.imports.filter (·.isInternal)).filterMap fun i =>
    (c.resolve? fs config path i.module).map fun target => (i.module, target)

/-- What is known of a file, and of the project afterwards. -/
def factsAt (c : ProjectContext) (reader : Reader) (fs : FileSystem) (config : ExtractionConfig)
    (path : String) : Except Fault FileFacts × ProjectContext :=
  match (c.fileText fs config path).bind (FileFacts.read reader (Path.relative c.root path)) with
  | .error fault => (.error fault, c)
  | .ok facts =>
    let (package, c) := c.packageFor fs path
    (.ok { facts with
      package := package
      resolvedImports := c.resolvedImports fs config path facts }, c)

end ProjectContext

/-- What is known of files, and why others could not be read. -/
structure Extraction where
  files : List FileFacts
  failures : List Fault
  deriving DecidableEq

namespace Extraction

/-- Takes in one file. -/
def step (reader : Reader) (fs : FileSystem) (config : ExtractionConfig)
    (state : Extraction × ProjectContext) (path : String) : Extraction × ProjectContext :=
  match state.2.factsAt reader fs config path with
  | (.ok facts, c) => ({ state.1 with files := state.1.files ++ [facts] }, c)
  | (.error fault, c) => ({ state.1 with failures := state.1.failures ++ [fault] }, c)

/-- What is known of the files of a project. -/
def of (reader : Reader) (fs : FileSystem) (config : ExtractionConfig) (root : String)
    (paths : List String) : Extraction :=
  (paths.foldl (step reader fs config) (⟨[], []⟩, .new fs root)).1

end Extraction

end CodeAtlas
