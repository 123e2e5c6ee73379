/-
# The state of the last run

A completed run leaves the time it was made, the fingerprints of all files and what they declare, in a
file. A state that is missing or cannot be read counts as that of a project never seen.

Key definitions: `SyncState`, `SyncState.text`, `SyncState.ofText`, `SyncState.tryLoad`,
`SyncState.load`, `SyncState.saveOn`, `SyncState.save`, `SyncState.clear`.
-/
import CodeAtlas.Fault
import CodeAtlas.Graph.Symbol
import CodeAtlas.Json.Write
import CodeAtlas.Sync.Fingerprint
import CodeAtlas.Text.Printable

namespace CodeAtlas

/-- What a completed run leaves. -/
structure SyncState where
  lastSync : Int
  files : FingerprintMap
  symbols : SymbolMap
  version : String
  deriving DecidableEq

namespace SyncState

/-- The version of the format. -/
def currentVersion : String := "2"

/-- The state of a project never seen. -/
def fresh : SyncState := ⟨0, .empty, .empty, currentVersion⟩

/-- Whether no file is known. -/
def isEmpty (s : SyncState) : Bool := s.files.isEmpty

/-- The state as JSON; the fingerprints are a list of pairs. -/
def toJson (s : SyncState) : Json :=
  .object
    [("lastSync", .int s.lastSync),
     ("files", .array (s.files.entries.map fun e => .array [.string e.1, e.2.toJson])),
     ("symbols", SymbolMap.toJson s.symbols), ("version", .string s.version)]

/-- The text of a state file. -/
def text (s : SyncState) : String := s.toJson.pretty

/-- A path with its fingerprint. -/
def fileEntry? : Document → Option (String × Fingerprint)
  | .list [path, print] => do return (← path.string?, ← Fingerprint.ofDocument? print)
  | _ => none

/-- The state of a document, whatever its version. -/
def ofDocument? (d : Document) : Option SyncState := do
  let f ← Fields.of? ["lastSync", "files", "symbols", "version"] d
  return {
    lastSync := ← f.required "lastSync" Document.int?
    files := .ofList (← f.required "files" (Document.listOf? fileEntry?))
    symbols := ← f.withDefault "symbols" (Document.mapOf? FileSymbols.ofDocument?) .empty
    version := ← f.required "version" Document.string? }

/-- Why a state file was refused. -/
inductive Refusal where
  | unreadable
  | malformed
  | version (found : String)
  deriving DecidableEq

/-- The text of a refusal. -/
def Refusal.message : Refusal → String
  | .unreadable => "the file cannot be read"
  | .malformed => "the text is not a state"
  | .version found => "unsupported version " ++ Text.quoted found

/-- The fault that tells of a refused state file. -/
def Refusal.fault (path : String) (r : Refusal) : Fault := .stateCorruption path r.message

/-- The state of the text of a state file. -/
def ofText (text : String) : Except Refusal SyncState :=
  match (Document.parse? text).bind ofDocument? with
  | none => .error .malformed
  | some s => if s.version == currentVersion then .ok s else .error (.version s.version)

/-- The state in a file, if the file is there. -/
def tryLoad (fs : FileSystem) (path : String) : Except Refusal (Option SyncState) :=
  match fs.read path with
  | .error .notFound => .ok none
  | .error _ => .error .unreadable
  | .ok content =>
    match FileSystem.textOf? content with
    | none => .error .unreadable
    | some text => (ofText text).map some

/-- The state in a file, or that of a project never seen. -/
def load (fs : FileSystem) (path : String) : SyncState :=
  match tryLoad fs path with
  | .ok (some s) => s
  | .ok none | .error _ => fresh

/-- The directory that a state file is in. -/
def directoryOf (path : String) : String :=
  match Path.parent? path with
  | some parent => if parent == "" then "." else parent
  | none => "."

/-- Writes the state to a file, which takes the place of what was there only as a whole, unless the
system refuses. -/
def saveOn (m : Medium) (s : SyncState) (fs : FileSystem) (path : String) (now : Int) :
    FileSystem × Except FileError Unit :=
  match fs.makeDirsOn m (directoryOf path) with
  | (fs, .error e) => (fs, .error e)
  | (fs, .ok ()) =>
    match fs.replaceOn m (directoryOf path) path (Ident.bytes s.text) now with
    | .ok fs => (fs, .ok ())
    | .error e => (fs, .error e)

/-- Writes the state to a file. -/
def save (s : SyncState) (fs : FileSystem) (path : String) (now : Int) :
    FileSystem × Except FileError Unit :=
  s.saveOn .willing fs path now

/-- Removes a state file, if it is there. -/
def clear (fs : FileSystem) (path : String) : Except FileError FileSystem :=
  match fs.removeFile path with
  | .error .notFound => .ok fs
  | r => r

end SyncState

end CodeAtlas
