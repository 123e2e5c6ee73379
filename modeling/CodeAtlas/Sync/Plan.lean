/-
# The plan of a run

A run is full where it is asked to be, where no file is known, or where the last run is too long ago;
the age of the last run must be a signed 64-bit number. A full run reads all files and retires all known
ones; any other run reads what was added or changed and retires what was changed or deleted.

Key definitions: `SyncConfig`, `SyncPlan`, `SyncPlan.isStale`, `SyncPlan.make`.
-/
import CodeAtlas.Binary64
import CodeAtlas.Sync.Changes
import CodeAtlas.Sync.State

namespace CodeAtlas

/-- Where the state is kept, and after how many days a run is full. -/
structure SyncConfig where
  statePath : String := ".codegraph/sync-state.json"
  fullSyncAfterDays : Nat := 7
  deriving DecidableEq

namespace SyncConfig

/-- The settings of a document; what it leaves out has its default. -/
def ofDocument? (d : Document) : Option SyncConfig := do
  let standard : SyncConfig := {}
  let f ← Fields.of? ["state_path", "full_sync_after_days"] d
  return {
    statePath := ← f.withDefault "state_path" Document.string? standard.statePath
    fullSyncAfterDays := ←
      f.withDefault "full_sync_after_days" (Document.natBelow? 32) standard.fullSyncAfterDays }

/-- The settings as JSON. -/
def toJson (c : SyncConfig) : Json :=
  .object
    [("state_path", .string c.statePath), ("full_sync_after_days", .nat c.fullSyncAfterDays)]

/-- The path of the state file of a project. -/
def pathIn (c : SyncConfig) (root : String) : String := Path.join root c.statePath

end SyncConfig

/-- What a run will do. -/
structure SyncPlan where
  full : Bool
  changes : ChangeSet
  retire : List String
  fingerprints : FingerprintMap
  deriving DecidableEq

namespace SyncPlan

/-- The milliseconds of a day. -/
def dayMillis : Int := 86400000

/-- A number within the range of signed 64-bit integers. -/
def inRange (n : Int) : Bool := Word.isSigned n

/-- Whether the last run is too long ago, or no file is known; nothing where the age is out of range. -/
def isStale (config : SyncConfig) (state : SyncState) (now : Int) : Option Bool :=
  if state.isEmpty then some true
  else
    let age := now - state.lastSync
    if inRange age then some (decide (config.fullSyncAfterDays * dayMillis < age)) else none

/-- The plan of a full run. -/
def ofFull (state : SyncState) (current : FingerprintMap) : SyncPlan where
  full := true
  changes := ⟨current.keys, [], (state.files.filter fun path _ => !current.contains path).keys, []⟩
  retire := state.files.keys
  fingerprints := current

/-- The plan of a run that reads only what changed. -/
def ofChanges (state : SyncState) (current : FingerprintMap) : SyncPlan :=
  let changes := ChangeSet.between state.files current
  { full := false
    changes := changes
    retire := Ordered.sort ChangeSet.precedes (changes.changed ++ changes.deleted)
    fingerprints := current }

/-- The plan of a run; nothing where the age of the last run is needed and out of range. -/
def make (config : SyncConfig) (state : SyncState) (current : FingerprintMap) (now : Int)
    (force : Bool) : Option SyncPlan :=
  if force then some (ofFull state current)
  else (isStale config state now).map fun stale =>
    if stale then ofFull state current else ofChanges state current

/-- The plan of a document; fingerprints are not written. -/
def ofDocument? (d : Document) : Option SyncPlan := do
  let f ← Fields.of? ["full", "changes", "retire"] d
  return {
    full := ← f.required "full" Document.bool?
    changes := ← f.required "changes" ChangeSet.ofDocument?
    retire := ← f.required "retire" Document.strings?
    fingerprints := .empty }

/-- The plan as JSON. -/
def toJson (p : SyncPlan) : Json :=
  .object
    [("full", .bool p.full), ("changes", p.changes.toJson), ("retire", .strings p.retire)]

end SyncPlan

end CodeAtlas
