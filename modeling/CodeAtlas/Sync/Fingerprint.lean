/-
# Fingerprints of files

A fingerprint tells whether a file has changed: its size, the time of its last change and the hash of
its content. A file that cannot be read has a fingerprint that says so.

Key definitions: `Fingerprint`, `Fingerprint.of`, `FingerprintMap`, `FingerprintMap.scan`.
-/
import CodeAtlas.Project.Discover
import CodeAtlas.Source.Grammar

namespace CodeAtlas

/-- What is remembered of a file. -/
structure Fingerprint where
  size : Nat
  mtime : Int
  hash : String
  readable : Bool
  deriving DecidableEq

namespace Fingerprint

/-- The fingerprint of a file that cannot be read. -/
def unreadable (size : Nat) (mtime : Int) : Fingerprint := ⟨size, mtime, "", false⟩

/-- The fingerprint of a file. -/
def of (fs : FileSystem) (path : String) : Fingerprint :=
  match fs.find path with
  | .error _ => unreadable 0 0
  | .ok entry =>
    match fs.read path with
    | .ok content => ⟨entry.size, entry.mtime, contentHash content, true⟩
    | .error _ => unreadable entry.size entry.mtime

/-- The fingerprint of a document. -/
def ofDocument? (d : Document) : Option Fingerprint := do
  let f ← Fields.of? ["size", "mtime", "hash", "readable"] d
  return {
    size := ← f.required "size" Document.nat?
    mtime := ← f.required "mtime" Document.int?
    hash := ← f.required "hash" Document.string?
    readable := ← f.withDefault "readable" Document.bool? true }

/-- The fingerprint as JSON; only of an unreadable file it is written whether it can be read. -/
def toJson (p : Fingerprint) : Json :=
  .object
    ([("size", .nat p.size), ("mtime", .int p.mtime), ("hash", .string p.hash)] ++
      if p.readable then [] else [("readable", .bool false)])

end Fingerprint

/-- Fingerprints by path within the project. -/
abbrev FingerprintMap := SortedMap String Fingerprint

namespace FingerprintMap

/-- The fingerprints of the source files of a project. -/
def scan (fs : FileSystem) (root : String) (config : ExtractionConfig) : FingerprintMap :=
  .ofList ((fs.discover root config).map fun path =>
    (Path.relative root path, Fingerprint.of fs path))

/-- The fingerprints of a document. -/
def ofDocument? : Document → Option FingerprintMap := Document.mapOf? Fingerprint.ofDocument?

/-- The fingerprints as JSON. -/
def toJson (m : FingerprintMap) : Json := .object (m.entries.map fun e => (e.1, e.2.toJson))

end FingerprintMap

end CodeAtlas
