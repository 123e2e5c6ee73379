/-
# Reports

What operations report, as JSON and as lines to be read.

Key definitions: `Reduction.toJson`, `CheckReport.toJson`, `CheckReport.lines`, `SyncReport.toJson`,
`SyncReport.lines`, `CleanReport.toJson`, `CleanReport.lines`, `GraphStats.lines`, `Answer.lines`.
-/
import CodeAtlas.Operation
import CodeAtlas.Text.Timestamp

namespace CodeAtlas

namespace ReductionStats

/-- The counts as JSON. -/
def toJson (s : ReductionStats) : Json :=
  .object
    [("input", .nat s.input), ("exact_duplicates", .nat s.exactDuplicates),
     ("semantic_reductions", .nat s.semanticReductions),
     ("quality_filtered", .nat s.qualityFiltered),
     ("hierarchy_reductions", .nat s.hierarchyReductions), ("output", .nat s.output)]

end ReductionStats

namespace Quality

/-- The counts as JSON. -/
def toJson (q : Quality) : Json :=
  .object [("high", .nat q.high), ("medium", .nat q.medium), ("low", .nat q.low)]

end Quality

namespace Reduction

/-- The reduction as JSON. -/
def toJson (r : Reduction) : Json :=
  .object
    [("relationships", .array (r.relationships.map Relationship.toJson)),
     ("by_type", .object (r.byKind.map fun e => (e.1.name, .nat e.2))),
     ("quality", r.quality.toJson), ("stats", r.stats.toJson)]

end Reduction

namespace CheckReport

/-- The time of the last run as text, where it has one. -/
def lastSyncText? (r : CheckReport) : Option String :=
  r.lastSync.bind fun t => Timestamp.text? t.toNat

/-- The report as JSON. -/
def toJson (r : CheckReport) : Json :=
  .object
    [("full_sync_required", .bool r.fullSyncRequired), ("last_sync", .optString r.lastSyncText?),
     ("tracked_files", .nat r.trackedFiles), ("changes", r.changes.toJson)]

/-- The report in lines. -/
def lines (r : CheckReport) : List String :=
  if r.isUpToDate then ["Up to date (" ++ toString r.trackedFiles ++ " files tracked)"]
  else
    let c := r.changes
    (if r.fullSyncRequired then ["Full sync required"] else []) ++
      [toString c.added.length ++ " added, " ++ toString c.changed.length ++ " changed, " ++
        toString c.deleted.length ++ " deleted, " ++ toString c.unchanged.length ++ " unchanged"] ++
      c.added.map ("  + " ++ ·) ++ c.changed.map ("  ~ " ++ ·) ++ c.deleted.map ("  - " ++ ·)

end CheckReport

namespace SyncReport

/-- What a run did, without the time it took. -/
def fields (r : SyncReport) : List (String × Json) :=
  [("full", .bool r.full), ("changes", r.changes.toJson), ("files_parsed", .nat r.filesParsed),
   ("parse_failures", .strings r.parseFailures), ("retired", r.retired.toJson),
   ("dedup", r.reduction.toJson), ("import", r.imported.toJson)]

/-- The report of a run that took so many milliseconds, as JSON. -/
def toJson (elapsed : Nat) (r : SyncReport) : Json :=
  .object (r.fields ++ [("duration_ms", .nat elapsed)])

/-- The report of a run that took so many milliseconds, in lines. -/
def lines (elapsed : Nat) (r : SyncReport) : List String :=
  let c := r.changes
  [(if r.full then "Full" else "Incremental") ++ " sync: " ++ toString c.added ++ " added, " ++
      toString c.changed ++ " changed, " ++ toString c.deleted ++ " deleted, " ++
      toString c.unchanged ++ " unchanged",
    "Parsed " ++ toString r.filesParsed ++ " file(s), " ++ toString r.parseFailures.length ++
      " failed; wrote " ++ toString r.imported.nodesWritten ++ " nodes and " ++
      toString r.imported.relationshipsWritten ++ " relationships in " ++ toString elapsed ++ " ms"] ++
    r.parseFailures.map ("  ! " ++ ·)

end SyncReport

namespace CleanReport

/-- The report as JSON. -/
def toJson (r : CleanReport) : Json :=
  .object
    [("before", .nat r.before), ("after", .nat r.after), ("removed", .nat r.removed),
     ("stats", r.stats.toJson), ("quality", r.quality.toJson)]

/-- The report in lines. -/
def lines (r : CleanReport) : List String :=
  ["Removed " ++ toString r.removed ++ " of " ++ toString r.before ++ " relationships (" ++
      toString r.after ++ " remain)",
    "Quality: " ++ toString r.quality.high ++ " high, " ++ toString r.quality.medium ++ " medium, " ++
      toString r.quality.low ++ " low"]

end CleanReport

namespace GraphStats

/-- A text followed by spaces, at least `width` characters in all. -/
def padded (width : Nat) (s : String) : String :=
  s ++ String.ofList (List.replicate (width - s.length) ' ')

/-- Counts by name in lines. -/
def countLines (counts : SortedMap String Nat) : List String :=
  counts.entries.map fun e => "  " ++ padded 12 e.1 ++ " " ++ toString e.2

/-- The counts in lines. -/
def lines (s : GraphStats) : List String :=
  ["Nodes: " ++ toString s.totalNodes] ++ countLines s.nodesByKind ++
    ["Relationships: " ++ toString s.totalRelationships] ++ countLines s.relationshipsByKind

end GraphStats

namespace Answer

/-- A number with two decimal places. -/
def hundredths (x : Binary64) : String :=
  let n := Binary64.roundDiv (x.ratio.1 * 100) x.ratio.2
  (if x.negative then "-" else "") ++ toString (n / 100) ++ "." ++ Timestamp.padded 2 (n % 100)

/-- A node in a line. -/
def nodeLine (n : Node) : String :=
  let line := "  [" ++ n.kind.name ++ "] " ++ n.name
  match n.filePath? with
  | some path => line ++ "  (" ++ path ++ ")"
  | none => line

/-- A relationship in a line. -/
def relationshipLine (r : Relationship) : String :=
  "  " ++ r.source ++ " -[" ++ r.kind.name ++ "]-> " ++ r.target

/-- The answer in lines. -/
def lines (a : Answer) : List String :=
  [a.explanation,
    "intent: " ++ a.intent.name ++ "  confidence: " ++ hundredths a.confidence ++ "  (" ++
      toString a.elapsed ++ " ms)"] ++
    a.nodes.map nodeLine ++ a.relationships.map relationshipLine ++
    (if a.suggestions.isEmpty then [] else "Suggestions:" :: a.suggestions.map ("  - " ++ ·))

end Answer

end CodeAtlas
