/-
# Changes between two sets of fingerprints

A file is added, changed, deleted or unchanged. A file that cannot be read now counts as changed if it
was known before. All lists are ascending.

Key definitions: `ChangeSet`, `ChangeSet.between`, `ChangeSet.toExtract`, `ChangeSummary`.
-/
import CodeAtlas.Ordered
import CodeAtlas.Sync.Fingerprint

namespace CodeAtlas

/-- Numbers of files by how they changed. -/
structure ChangeSummary where
  added : Nat
  changed : Nat
  deleted : Nat
  unchanged : Nat
  deriving DecidableEq

namespace ChangeSummary

/-- The numbers of a document. -/
def ofDocument? (d : Document) : Option ChangeSummary := do
  let f ← Fields.of? ["added", "changed", "deleted", "unchanged"] d
  return {
    added := ← f.required "added" Document.nat?
    changed := ← f.required "changed" Document.nat?
    deleted := ← f.required "deleted" Document.nat?
    unchanged := ← f.required "unchanged" Document.nat? }

/-- The numbers as JSON. -/
def toJson (s : ChangeSummary) : Json :=
  .object
    [("added", .nat s.added), ("changed", .nat s.changed), ("deleted", .nat s.deleted),
     ("unchanged", .nat s.unchanged)]

end ChangeSummary

/-- Files by how they changed. -/
structure ChangeSet where
  added : List String
  changed : List String
  deleted : List String
  unchanged : List String
  deriving DecidableEq

namespace ChangeSet

/-- Whether the file is known, but not as it is now. -/
def isChanged (previous : FingerprintMap) (path : String) (now : Fingerprint) : Bool :=
  (previous.get? path).any fun old => !now.readable || old != now

/-- Whether the file is known as it is now. -/
def isUnchanged (previous : FingerprintMap) (path : String) (now : Fingerprint) : Bool :=
  (previous.get? path).any fun old => now.readable && old == now

/-- The changes from previous to current fingerprints. -/
def between (previous current : FingerprintMap) : ChangeSet where
  added := (current.filter fun path _ => !previous.contains path).keys
  changed := (current.filter (isChanged previous)).keys
  deleted := (previous.filter fun path _ => !current.contains path).keys
  unchanged := (current.filter (isUnchanged previous)).keys

/-- Whether nothing changed. -/
def isEmpty (c : ChangeSet) : Bool := c.added.isEmpty && c.changed.isEmpty && c.deleted.isEmpty

/-- The number of changes. -/
def pending (c : ChangeSet) : Nat := c.added.length + c.changed.length + c.deleted.length

/-- The numbers of files. -/
def summary (c : ChangeSet) : ChangeSummary :=
  ⟨c.added.length, c.changed.length, c.deleted.length, c.unchanged.length⟩

/-- Whether a text does not come after another. -/
def precedes (a b : String) : Bool := (compare a b).isLE

/-- The files to read, ascending. -/
def toExtract (c : ChangeSet) : List String := Ordered.sort precedes (c.added ++ c.changed)

/-- The changes of a document. -/
def ofDocument? (d : Document) : Option ChangeSet := do
  let f ← Fields.of? ["added", "changed", "deleted", "unchanged"] d
  return {
    added := ← f.required "added" Document.strings?
    changed := ← f.required "changed" Document.strings?
    deleted := ← f.required "deleted" Document.strings?
    unchanged := ← f.required "unchanged" Document.strings? }

/-- The changes as JSON. -/
def toJson (c : ChangeSet) : Json :=
  .object
    [("added", .strings c.added), ("changed", .strings c.changed), ("deleted", .strings c.deleted),
     ("unchanged", .strings c.unchanged)]

end ChangeSet

end CodeAtlas
