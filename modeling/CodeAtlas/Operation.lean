/-
# Operations on a project

The operations of a project: to check what changed, to bring the graph up to date, to rebuild it, to
clean it of redundant relationships, to count it, and to answer questions from it. They run on a
backend and a file system. The state of the project is written only after the graph was.

Key definitions: `Project`, `World`, `Operation`, `Project.check`, `Project.syncOn`, `Project.syncNow`,
`Project.reset`, `Project.clean`, `Project.stats`, `Project.ask`.
-/
import CodeAtlas.Graph.Build
import CodeAtlas.Graph.Reduce
import CodeAtlas.Project.Reading
import CodeAtlas.Query.Answer
import CodeAtlas.Store.Backend
import CodeAtlas.Sync.Plan

namespace CodeAtlas

/-- A project: where it is, and its settings. -/
structure Project where
  root : String
  extraction : ExtractionConfig
  sync : SyncConfig
  query : QueryConfig

/-- What operations run on. -/
structure World (σ : Type) where
  files : FileSystem
  backend : σ

/-- How an operation may end without a result: by a failure, or by a number that leaves its range. -/
inductive Halt where
  | failure (f : Failure)
  | overflow
  deriving DecidableEq

/-- A step on worlds that may end without a result, the world it leaves counting all the same. -/
abbrev Operation (σ α : Type) := World σ → Except Halt α × World σ

namespace Operation

variable {σ α β : Type}

/-- The step that does nothing. -/
def pure (a : α) : Operation σ α := fun w => (.ok a, w)

/-- One step and then another. -/
def bind (x : Operation σ α) (f : α → Operation σ β) : Operation σ β := fun w =>
  match x w with
  | (.ok a, w) => f a w
  | (.error h, w) => (.error h, w)

instance : Monad (Operation σ) where
  pure := pure
  bind := bind

/-- The world as it is. -/
def world : Operation σ (World σ) := fun w => (.ok w, w)

/-- Ends without a result. -/
def halt (h : Halt) : Operation σ α := fun w => (.error h, w)

/-- A step of the backend; where it fails, `step` says what was being done. -/
def onBackend (step : String) (a : Action σ α) : Operation σ α := fun w =>
  match a w.backend with
  | (.ok r, s) => (.ok r, { w with backend := s })
  | (.error fault, s) => (.error (.failure ⟨[step], fault⟩), { w with backend := s })

/-- A step of the backend that fails with its own fault alone. -/
def onBackendPlain (a : Action σ α) : Operation σ α := fun w =>
  match a w.backend with
  | (.ok r, s) => (.ok r, { w with backend := s })
  | (.error fault, s) => (.error (.failure (.ofFault fault)), { w with backend := s })

/-- A step of the file system; where it fails, `step` says what was being done. -/
def onFiles (step : String) (a : FileSystem → FileSystem × Except FileError α) :
    Operation σ α := fun w =>
  match a w.files with
  | (fs, .ok r) => (.ok r, { w with files := fs })
  | (fs, .error e) => (.error (.failure ⟨[step], .io e.message⟩), { w with files := fs })

end Operation

/-- What changed since the last run. -/
structure CheckReport where
  fullSyncRequired : Bool
  lastSync : Option Int
  trackedFiles : Nat
  changes : ChangeSet
  deriving DecidableEq

namespace CheckReport

/-- Whether there is nothing to do. -/
def isUpToDate (r : CheckReport) : Bool := !r.fullSyncRequired && r.changes.isEmpty

end CheckReport

/-- What a run did. -/
structure SyncReport where
  full : Bool
  changes : ChangeSummary
  filesParsed : Nat
  parseFailures : List String
  retired : RetireSummary
  reduction : ReductionStats
  imported : ImportSummary
  deriving DecidableEq

/-- What a cleaning did. -/
structure CleanReport where
  before : Nat
  after : Nat
  removed : Nat
  stats : ReductionStats
  quality : Quality
  deriving DecidableEq

namespace Project

/-- The path of the state file. -/
def statePath (p : Project) : String := p.sync.pathIn p.root

/-- The state of the last run. -/
def state (p : Project) (fs : FileSystem) : SyncState := SyncState.load fs p.statePath

/-- The fingerprints of the files as they are. -/
def scan (p : Project) (fs : FileSystem) : FingerprintMap := .scan fs p.root p.extraction

/-- The plan of a run now. -/
def plan? (p : Project) (fs : FileSystem) (now : Int) (force : Bool) : Option SyncPlan :=
  SyncPlan.make p.sync (p.state fs) (p.scan fs) now force

/-- What changed since the last run; nothing where its age is out of range. -/
def check (p : Project) (fs : FileSystem) (now : Int) : Option CheckReport :=
  let state := p.state fs
  (p.plan? fs now false).map fun plan =>
    { fullSyncRequired := plan.full
      lastSync := if 0 < state.lastSync then some state.lastSync else none
      trackedFiles := state.files.size
      changes := plan.changes }

/-- What files declare: for those that were not read again, what was known before. -/
def symbolsOf (plan : SyncPlan) (state : SyncState) (files : List FileFacts) : SymbolMap :=
  let known := if plan.full then .empty else
    state.symbols.filter fun path _ => plan.changes.unchanged.contains path
  files.foldl (fun m f => m.insert f.path (FileSymbols.ofFacts f)) known

/-- The files that a plan reads. -/
def pathsOf (p : Project) (plan : SyncPlan) : List String :=
  plan.changes.toExtract.map (Path.join p.root)

/-- Reads the files of a plan. -/
def extract (p : Project) (reader : Reader) (fs : FileSystem) (plan : SyncPlan) : Extraction :=
  .of reader fs p.extraction p.root (p.pathsOf plan)

variable {σ : Type}

/-- Retires files, if there are any. -/
def retire (b : Backend σ) (paths : List String) : Operation σ RetireSummary :=
  if paths.isEmpty then pure .nothing
  else .onBackend "Failed to retire changed files" (b.retire paths)

/-- Carries out a plan on a system that may refuse to save the state. -/
def runOn (p : Project) (disk : Medium) (b : Backend σ) (reader : Reader) (now : Int)
    (state : SyncState) (plan : SyncPlan) : Operation σ SyncReport := do
  let retired ← retire b plan.retire
  let w ← Operation.world
  let read := p.extract reader w.files plan
  let symbols := symbolsOf plan state read.files
  let batch := Batch.ofFilesWith now (SymbolIndex.ofMap symbols) read.files
  let reduced := Reduction.of batch.relationships
  let imported ← Operation.onBackend "Failed to import graph batch"
    (b.importBatch batch.nodes reduced.relationships)
  let next : SyncState := ⟨now, plan.fingerprints, symbols, SyncState.currentVersion⟩
  Operation.onFiles "Failed to save sync state" fun fs => next.saveOn disk fs p.statePath now
  return {
    full := plan.full
    changes := plan.changes.summary
    filesParsed := read.files.length
    parseFailures := read.failures.map Fault.message
    retired := retired
    reduction := reduced.stats
    imported := imported }

/-- Brings the graph up to date with the files, on a system that may refuse to save the state. -/
def syncOn (p : Project) (disk : Medium) (b : Backend σ) (reader : Reader) (now : Int)
    (force : Bool) : Operation σ SyncReport := do
  let w ← Operation.world
  match p.plan? w.files now force with
  | none => Operation.halt .overflow
  | some plan => p.runOn disk b reader now (p.state w.files) plan

/-- Brings the graph up to date with the files. -/
def syncNow (p : Project) (b : Backend σ) (reader : Reader) (now : Int) (force : Bool) :
    Operation σ SyncReport :=
  p.syncOn .willing b reader now force

/-- Clears the graph and the state, and builds the graph anew. -/
def reset (p : Project) (b : Backend σ) (reader : Reader) (now : Int) : Operation σ SyncReport := do
  Operation.onBackend "Failed to clear the graph" b.clear
  Operation.onFiles "Failed to delete sync state" fun fs =>
    match SyncState.clear fs p.statePath with
    | .ok fs => (fs, .ok ())
    | .error e => (fs, .error e)
  p.syncNow b reader now true

/-- Reduces the relationships of the graph, and removes what is redundant. -/
def clean (b : Backend σ) : Operation σ CleanReport := do
  let stored ← Operation.onBackend "Failed to fetch relationships" b.relationships
  let reduced := Reduction.of stored
  let ids := reduced.removedIds stored
  let removed ← if ids.isEmpty then pure 0 else
    Operation.onBackend "Failed to delete redundant relationships" (b.remove ids)
  return {
    before := stored.length
    after := reduced.relationships.length
    removed := removed
    stats := reduced.stats
    quality := reduced.quality }

/-- The numbers of nodes and relationships. -/
def stats (b : Backend σ) : Operation σ GraphStats :=
  .onBackend "Failed to read graph statistics" b.stats

/-- Answers a question. -/
def ask (p : Project) (b : Backend σ) (text : String) (limit : Option Nat) :
    Operation σ Answer := do
  let q := Question.of p.query text limit
  let g := GraphQuery.of q
  let found ← Operation.onBackendPlain (b.query g.text g.params)
  return .of q g found

end Project

end CodeAtlas
