/-
# The command line

Runs the command line on the files below the working directory: they are read, the command is carried
out on them, and what it changed is written back. The library opens no connection of its own, so the
network leads nowhere, and the commands that need the graph say so.

Key definitions: `main`.
-/
import CodeAtlas.Command.Run
import CodeAtlas.Database.Script
import CodeAtlas.Source.Outline
import CodeAtlas.Source.Sample

namespace CodeAtlas.CommandLine

/-- A time of the system in milliseconds. -/
def millis (t : IO.FS.SystemTime) : Int := t.sec * 1000 + t.nsec.toNat / 1000000

/-- The time, as a file has it that is made just now. -/
def currentTime : IO Int := do
  let (_, path) ← IO.FS.createTempFile
  let time := millis (← path.metadata).modified
  IO.FS.removeFile path
  return time

/-- The files below a directory, by the names that lead to them. -/
partial def filesBelow (names : List String) (entries : SortedMap (List String) Entry) :
    IO (SortedMap (List String) Entry) := do
  let here := (← IO.currentDir) / Path.ofNames names
  let info ← here.metadata
  match info.type with
  | .dir =>
    let found ← here.readDir
    found.foldlM (fun entries e => filesBelow (names ++ [e.fileName]) entries)
      (entries.insert names .directory)
  | .file =>
    let content : Content ←
      try pure (.bytes (← IO.FS.readBinFile here).toList)
      catch _ => pure (.withheld info.byteSize.toNat)
    return entries.insert names (.file content (millis info.modified))
  | _ => return entries

/-- The directories that names lead through. -/
def waysTo (names : List String) : List (List String × Entry) :=
  (List.range names.length).map fun n => (names.take (n + 1), .directory)

/-- The variables that settings are read from. -/
def settingNames : List String :=
  ["NEO4J_URI", "NEO4J_USER", "NEO4J_PASSWORD", "NEO4J_DATABASE", "NEO4J_MAX_POOL_SIZE",
   "NEO4J_MAX_TX_RETRY_MS", "CODEGRAPH_STATE_PATH", "CODEGRAPH_CONFIG"]

/-- The environment, as far as settings are read from it. -/
def environment : IO Environment :=
  settingNames.foldlM (fun env name => do
    match ← IO.getEnv name with
    | some value => return env.insert name value
    | none => return env) .empty

/-- Writes the files that were changed. -/
def writeBack (before after : FileSystem) : IO Unit :=
  after.entries.entries.forM fun (names, e) => do
    if before.entry? names ≠ some e then
      match e with
      | .directory => IO.FS.createDirAll (Path.ofNames names)
      | .file (.bytes data) _ => IO.FS.writeBinFile (Path.ofNames names) ⟨data.toArray⟩
      | .file (.withheld _) _ => pure ()

end CodeAtlas.CommandLine

open CodeAtlas CodeAtlas.CommandLine in
/-- Runs the command line with the given arguments. -/
def main (args : List String) : IO UInt32 := do
  let cwd := (Path.pieces (← IO.currentDir).toString).filter (· != "")
  let entries ← filesBelow cwd (.ofList (waysTo cwd))
  let disk : FileSystem := ⟨entries, cwd⟩
  let host : Host Script :=
    ⟨.offline, Script.server, Sample.reader Source.outline [], ← currentTime⟩
  let (outcome, machine) := host.run (← environment) args ⟨disk, { rules := [] }⟩
  writeBack disk machine.files
  (← IO.getStdout).putStr outcome.stdout
  (← IO.getStderr).putStr outcome.stderr
  return UInt32.ofNat outcome.exit
