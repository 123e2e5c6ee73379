/-
# Running a command

A command line is run in a working directory. The environment is first completed from the environment
file of the directory, or of the nearest one above it; then the settings are read, the root of the
project is found, and the command is carried out. What it reports is printed as lines or as JSON.

Key definitions: `Host`, `Machine`, `Outcome`, `Host.run`.
-/
import CodeAtlas.Command.Arguments
import CodeAtlas.Config.EnvFile
import CodeAtlas.Database.Client
import CodeAtlas.Report

namespace CodeAtlas

/-- How a run ends: its exit code and what it printed. -/
structure Outcome where
  exit : Nat
  stdout : String := ""
  stderr : String := ""
  deriving DecidableEq

namespace Outcome

/-- The end of a run that printed lines. -/
def success (lines : List String) : Outcome := ⟨0, Text.join "" (lines.map (· ++ "\n")), ""⟩

/-- The end of a run that failed. -/
def failure (message : String) : Outcome := ⟨1, "", "error: " ++ message ++ "\n"⟩

/-- The exit code of a wrong command line. -/
def usage : Nat := 2

/-- The exit code of a run that a number out of range ended. -/
def broken : Nat := 101

/-- The end of a run that was asked for help. -/
def help : Outcome :=
  .success
    ["Usage: codegraph [OPTIONS] <COMMAND>", "", "Commands: check, sync, clean, reset, stats, query"]

/-- The end of a run for a reason. -/
def ofHalt : Halt → Outcome
  | .failure f => failure f.message
  | .overflow => { exit := broken }

end Outcome

/-- What runs have in common: the network, the server on it, how sources are read, and the time. -/
structure Host (δ : Type) where
  network : Network
  server : Server δ
  reader : Reader
  now : Int

/-- What a run works on. -/
structure Machine (δ : Type) where
  files : FileSystem
  database : δ

namespace Machine

/-- The settings file that is read where none is named. -/
def defaultConfig : String := "codegraph.yaml"

/-- The text of a file. -/
def text? (fs : FileSystem) (path : String) : Option String :=
  match fs.read path with
  | .ok content => FileSystem.textOf? content
  | .error _ => none

/-- The content of the environment file of a directory, or of the nearest one above it. The names lead
to the directory, the last one first. -/
def envFile? (fs : FileSystem) : List String → Option Content
  | [] => fileIn []
  | name :: above => (fileIn (name :: above)).or (envFile? fs above)
where
  /-- The content of the environment file of a directory. -/
  fileIn (reversed : List String) : Option Content :=
    match fs.entry? (reversed.reverse ++ [".env"]) with
    | some (.file content _) => some content
    | _ => none

/-- The environment, completed from the environment file, if that may be read. -/
def environment (fs : FileSystem) (env : Environment) : Environment :=
  match ((envFile? fs fs.cwd.reverse).bind Content.bytes?).bind FileSystem.textOf? with
  | some text => EnvFile.load env text
  | none => env

/-- The absolute path of something that is there. -/
def canonical (fs : FileSystem) (path : String) : Except FileError String := do
  let names ← fs.locate path
  match fs.entry? names with
  | some _ => .ok (Path.ofNames names)
  | none => .error .notFound

end Machine

namespace Host

variable {δ : Type}

/-- The time that reports show for what was done. -/
def elapsed : Nat := 0

/-- What is printed of a report. -/
def printed (json : Bool) (asJson : Json) (lines : List String) : Outcome :=
  .success (if json then [asJson.pretty] else lines)

/-- Carries out an operation on a connection. -/
def operate {α : Type} (o : Operation (Client δ) α) (print : α → Outcome) (client : Client δ)
    (fs : FileSystem) : Outcome × Machine δ :=
  match o ⟨fs, client⟩ with
  | (.ok a, w) => (print a, ⟨w.files, w.backend.server⟩)
  | (.error h, w) => (.ofHalt h, ⟨w.files, w.backend.server⟩)

/-- Carries out a command that needs the graph. -/
def onGraph (h : Host δ) (p : Project) (json : Bool) (command : Command) (client : Client δ)
    (fs : FileSystem) : Outcome × Machine δ :=
  let b := Client.backend h.server
  let printSync := fun (r : SyncReport) => printed json (r.toJson elapsed) (r.lines elapsed)
  match command with
  | .sync full => operate (p.syncNow b h.reader h.now full) printSync client fs
  | .reset => operate (p.reset b h.reader h.now) printSync client fs
  | .clean => operate (Project.clean b) (fun r => printed json r.toJson r.lines) client fs
  | .query text limit =>
    operate (p.ask b text limit) (fun a => printed json a.toJson a.lines) client fs
  | .stats | .check =>
    operate (Project.stats b) (fun s => printed json s.toJson s.lines) client fs

/-- Carries out what a command line asks for. -/
def invoke (h : Host δ) (env : Environment) (i : Invocation) (m : Machine δ) :
    Outcome × Machine δ :=
  let config := Config.load (Machine.text? m.files (i.config.getD Machine.defaultConfig)) env
  match Machine.canonical m.files i.path with
  | .error e => (.failure ("Project root " ++ i.path ++ " not found: " ++ e.message), m)
  | .ok root =>
    let p : Project := ⟨root, config.extraction, config.sync, config.query⟩
    match i.command with
    | .check =>
      match p.check m.files h.now with
      | some r => (printed i.json r.toJson r.lines, m)
      | none => (.ofHalt .overflow, m)
    | command =>
      match Client.connect h.network h.server config.database m.database with
      | (.error fault, db) =>
        (.failure (Failure.mk ["Failed to connect to Neo4j"] fault).message, { m with database := db })
      | (.ok client, _) => h.onGraph p i.json command client m.files

/-- Runs a command line. -/
def run (h : Host δ) (env : Environment) (args : List String) (m : Machine δ) :
    Outcome × Machine δ :=
  let env := Machine.environment m.files env
  match Invocation.ofArgs env args with
  | .error .wrong => ({ exit := Outcome.usage }, m)
  | .error .help => (.help, m)
  | .ok i => h.invoke env i m

end Host

end CodeAtlas
