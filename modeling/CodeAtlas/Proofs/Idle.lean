/-
# A second sync has nothing to do

After a sync that succeeded, the state knows the files as they are (`Project.Synced`). Until the last run
is too long ago, a check then finds nothing to do, and a sync retires nothing, reads nothing, imports
nothing and saves the state with the time of the new run (`Project.Synced.check`,
`Project.Synced.syncNow`). What it keeps of the symbols are those of the scanned paths. They are all of
them where no path has a backslash; where one has, the sync may forget some
(`Project.exists_symbols_forgotten`).

The backend is the graph in memory or a database, on any server: either does nothing with an empty
batch (`Backend.Provided.importBatch_nil`).

Key definitions: `SyncPlan.idle`, `SyncPlan.Recent`, `Backend.Provided`, `SyncReport.IsIdle`,
`Project.Synced`.
Key theorems: `SyncPlan.make_idle`, `Project.runOn_idle`, `Project.synced_of_syncOn`,
`Project.Synced.check`, `Project.Synced.syncNow`, `Project.second_sync_idle`,
`Project.exists_symbols_forgotten`.
-/
import CodeAtlas.Database.Client
import CodeAtlas.Proofs.SavedTree

namespace CodeAtlas

/-! ### The plan of a run with nothing to do -/

/-- Files that can be read and are as they were are unchanged. -/
theorem ChangeSet.between_self {m : FingerprintMap}
    (h : ∀ {path f}, m.get? path = some f → f.readable = true) : between m m = ⟨[], [], [], m.keys⟩ := by
  have hadded : m.filter (fun path _ => !m.contains path) = .empty :=
    SortedMap.filter_eq_empty fun hf => by simp [SortedMap.contains_of_get? hf]
  have hchanged : m.filter (isChanged m) = .empty :=
    SortedMap.filter_eq_empty fun hf => by simp [isChanged, hf, h hf]
  have hunchanged : m.filter (isUnchanged m) = m :=
    SortedMap.filter_eq_self fun hf => by simp [isUnchanged, hf, h hf]
  rw [between, hadded, hchanged, hunchanged]
  rfl

namespace SyncPlan

/-- The plan of a run with nothing to do. -/
def idle (current : FingerprintMap) : SyncPlan := ⟨false, ⟨[], [], [], current.keys⟩, [], current⟩

/-- The last run is not too long ago for a run by the changes, by a limit that fits into a word. -/
structure Recent (config : SyncConfig) (last now : Int) : Prop where
  days : config.fullSyncAfterDays < twoTo 32
  late : last ≤ now
  soon : now - last ≤ config.fullSyncAfterDays * dayMillis

/-- The age of the state of a recent run fits into a word. -/
theorem Recent.inRange {config : SyncConfig} {last now : Int} (h : Recent config last now) :
    SyncPlan.inRange (now - last) = true := by
  have h32 : twoTo 32 = 4294967296 := by decide
  have h63 : (twoTo 63 : Int) = 9223372036854775808 := by decide
  have hdays := h.days
  have hlate := h.late
  have hage : now - last ≤ config.fullSyncAfterDays * 86400000 := h.soon
  rw [SyncPlan.inRange, Word.isSigned, h63]
  simp only [Bool.and_eq_true, decide_eq_true_eq]
  omega

/-- The plan goes by the changes until the last run is too long ago. -/
theorem make_recent {config : SyncConfig} {state : SyncState} {now : Int}
    (hrecent : Recent config state.lastSync now) (hknown : state.isEmpty = false)
    (current : FingerprintMap) :
    make config state current now false = some (.ofChanges state current) := by
  have hsoon := hrecent.soon
  have hstale : isStale config state now = some false := by
    rw [isStale, hknown, if_neg Bool.false_ne_true]
    simp only [hrecent.inRange, if_true, Option.some.injEq, decide_eq_false_iff_not]
    omega
  rw [make, hstale]
  rfl

/-- Where the state knows the files as they are, there is nothing to do. -/
theorem make_idle {config : SyncConfig} {state : SyncState} {now : Int}
    (hrecent : Recent config state.lastSync now) (hknown : state.isEmpty = false)
    (hread : ∀ {path f}, state.files.get? path = some f → f.readable = true) :
    make config state state.files now false = some (idle state.files) := by
  rw [make_recent hrecent hknown, ofChanges, ChangeSet.between_self hread]
  rfl

end SyncPlan

/-! ### Backends -/

/-- The backends that there are: the graph in memory, and a database on a server. -/
inductive Backend.Provided : {σ : Type} → Backend σ → Prop
  | memory : Provided Memory.backend
  | database {δ : Type} (s : Server δ) : Provided (Client.backend s)

theorem Statement.ofBatches_nil {α : Type} (title text : String) (row : α → Properties) (size : Nat) :
    ofBatches title text row size [] = [] := by
  rw [ofBatches, batches, chunks]
  rfl

theorem ImportStrategy.statements_nil (s : ImportStrategy) (size : Nat) : s.statements [] size = [] := by
  cases s with
  | grouped =>
    rw [statements, Statement.grouped, List.flatMap_eq_nil_iff]
    exact fun kind _ => Statement.ofBatches_nil ..
  | accelerated => exact Statement.ofBatches_nil ..

/-- An import of nothing succeeds and does nothing. -/
theorem Backend.Provided.importBatch_nil {σ : Type} {b : Backend σ} (h : b.Provided) (st : σ) :
    ∃ written, b.importBatch [] [] st = (.ok written, st) := by
  cases h with
  | memory => exact ⟨_, rfl⟩
  | database s =>
    have hnodes : Statement.forNodes [] st.config.batchSize = [] := by
      rw [Statement.forNodes, List.flatMap_eq_nil_iff]
      exact fun kind _ => Statement.ofBatches_nil ..
    refine ⟨⟨0, 0, 0, st.strategy.name⟩, ?_⟩
    show Client.importBatch s [] [] st = _
    rw [Client.importBatch]
    simp only [hnodes, ImportStrategy.statements_nil]
    rfl

/-! ### Runs with nothing to do -/

/-- The run went by the changes, and retired and read nothing. -/
structure SyncReport.IsIdle (r : SyncReport) : Prop where
  full : r.full = false
  retired : r.retired = .nothing
  filesParsed : r.filesParsed = 0
  parseFailures : r.parseFailures = []

namespace Project

variable {p : Project} {reader : Reader} {σ : Type} {b : Backend σ}

/-- A run with nothing to do leaves the backend alone and saves the state. -/
theorem runOn_idle {disk : Medium} {now : Int} {state : SyncState} {current : FingerprintMap}
    {w : World σ} {written : ImportSummary} {fs : FileSystem}
    (himport : b.importBatch [] [] w.backend = (.ok written, w.backend))
    (hsave : SyncState.saveOn disk ⟨now, current, symbolsOf (.idle current) state [],
      SyncState.currentVersion⟩ w.files p.statePath now = (fs, .ok ())) :
    ∃ r, p.runOn disk b reader now state (.idle current) w = (.ok r, { w with files := fs }) ∧
      r.IsIdle := by
  have hretire : retire b (SyncPlan.idle current).retire w = (.ok .nothing, w) := rfl
  have hextract : p.extract reader w.files (.idle current) = ⟨[], []⟩ := rfl
  have hnodes : Build.distinctNodes [] = [] := rfl
  have hedges : (Reduction.of []).relationships = [] := rfl
  have hfiles : (SyncPlan.idle current).fingerprints = current := rfl
  unfold runOn
  rw [Operation.bind_eq hretire]
  simp only [bind, Operation.bind, Operation.world, hextract, Batch.ofFilesWith, List.flatMap_nil,
    hnodes, hedges, Operation.onBackend, himport, Operation.onFiles, hfiles, hsave]
  exact ⟨_, rfl, rfl, rfl, rfl, rfl⟩

/-- The state knows the source files as they are, since the given time, and can be saved again. -/
structure Synced (p : Project) (now : Int) (fs : FileSystem) : Prop where
  files : (p.state fs).files = p.scan fs
  lastSync : (p.state fs).lastSync = now
  version : (p.state fs).version = SyncState.currentVersion
  known : (p.scan fs).isEmpty = false
  readable : ∀ {path f}, (p.scan fs).get? path = some f → f.readable = true
  inRange : ∀ {path f}, (p.scan fs).get? path = some f → f.size < twoTo 64 ∧ Word.isSigned f.mtime = true
  directory : fs.isDirectory (SyncState.directoryOf p.statePath) = true
  file : fs.isFile p.statePath = true

/-- After a sync that succeeded, the state is the next one of its pass and knows the files. -/
theorem synced_of_syncOn {disk : Medium} {w w' : World σ} {now : Int} {force : Bool} {r : SyncReport}
    (hs : w.files.Sound) (hnow : Word.isSigned now = true)
    (hne : (p.scan w.files).isEmpty = false)
    (hread : ∀ f ∈ (p.scan w.files).values, f.readable = true)
    (hsync : p.syncOn disk b reader now force w = (.ok r, w')) (hapart : ¬ p.ScansState w'.files) :
    p.Synced now w'.files ∧ ∃ a : Pass p, a.files = w.files ∧ p.state w'.files = a.next reader := by
  rcases syncOn_cases hs hnow hsync with ⟨hhalt, _⟩ | ⟨a, ha, hrun⟩
  · cases hhalt
  obtain ⟨hfiles, htime, _⟩ := of_pass? ha
  rcases runOn_cases hfiles.symm hrun with ⟨_, _, hf⟩ | ⟨_, _, _, saved, _, _, hsave, hend⟩
  · cases hf
  cases saved with
  | error e => cases hend
  | ok _ =>
    have hstate : p.state w'.files = a.next reader :=
      SyncState.load_of_saveOn (a.inRange_next reader) rfl hsave
    rw [hfiles] at hsave
    have hscan : p.scan w'.files = p.scan w.files := scan_of_saveOn hs.rooted hsave hapart hne
    refine ⟨?_, a, hfiles, hstate⟩
    exact {
      files := by rw [hstate, hscan, Pass.next, a.follows.fingerprints, hfiles]
      lastSync := by rw [hstate, Pass.next, htime]
      version := by rw [hstate, Pass.next]
      known := hscan ▸ hne
      readable := fun hf => hread _ (SortedMap.mem_values.mpr ⟨_, hscan ▸ hf⟩)
      inRange := fun hf => inRange_of_scan hs (hscan ▸ hf)
      directory := SyncState.isDirectory_of_saveOn hs.rooted hsave
      file := FileSystem.isFile_of_read (SyncState.read_of_saveOn hsave) }

/-- The symbols that a run with nothing to do keeps. -/
def keptSymbols (p : Project) (fs : FileSystem) : SymbolMap :=
  (p.state fs).symbols.filter fun path _ => (p.scan fs).contains path

theorem symbolsOf_idle (p : Project) (fs : FileSystem) :
    symbolsOf (.idle (p.scan fs)) (p.state fs) [] = p.keptSymbols fs := by
  have hkeys : ∀ path, (p.scan fs).keys.contains path = (p.scan fs).contains path := by
    intro path
    rw [Bool.eq_iff_iff, List.contains_iff_mem, SortedMap.mem_keys]
  show (p.state fs).symbols.filter (fun path _ => (p.scan fs).keys.contains path) = _
  simp only [hkeys]
  rfl

/-- Where no path has a backslash, the symbols of a run are those of the scanned paths. -/
theorem keptSymbols_of_plain {a : Pass p} {fs : FileSystem} (hplain : p.Plain a.files)
    (hstate : p.state fs = a.next reader) (hfiles : (p.state fs).files = p.scan fs) :
    p.keptSymbols fs = (p.state fs).symbols := by
  have hscan : p.scan fs = p.scan a.files := by
    rw [← hfiles, hstate, Pass.next, a.follows.fingerprints]
  refine SortedMap.filter_eq_self fun {path s} hs => ?_
  rw [hstate] at hs
  have hs : (a.symbols reader).get? path = some s := hs
  rw [Pass.get?_symbols hplain] at hs
  rw [hscan]
  split at hs
  · rename_i hu
    obtain ⟨_, f, _, hf, _⟩ := a.follows.unchanged path hu
    exact SortedMap.contains_of_get? hf
  · split at hs
    · assumption
    · cases hs

namespace Synced

variable {fs : FileSystem} {now now' : Int}

theorem plan? (h : p.Synced now fs) (hrecent : SyncPlan.Recent p.sync now now') :
    p.plan? fs now' false = some (.idle (p.scan fs)) := by
  have hknown : (p.state fs).isEmpty = false := by rw [SyncState.isEmpty, h.files, h.known]
  have hidle : SyncPlan.make p.sync (p.state fs) (p.state fs).files now' false =
      some (.idle (p.state fs).files) :=
    SyncPlan.make_idle (h.lastSync ▸ hrecent) hknown fun hf => h.readable (h.files ▸ hf)
  rwa [h.files] at hidle

/-- A check finds nothing to do, and every file known. -/
theorem check (h : p.Synced now fs) (hrecent : SyncPlan.Recent p.sync now now') :
    ∃ c, p.check fs now' = some c ∧ c.isUpToDate = true ∧ c.trackedFiles = (p.scan fs).size ∧
      c.changes.unchanged = (p.scan fs).keys := by
  rw [Project.check, h.plan? hrecent]
  exact ⟨_, rfl, rfl, by rw [h.files], rfl⟩

/-- A sync leaves the backend alone, and the state with the time of the sync and the symbols that are
kept. -/
theorem syncNow {w : World σ} (h : p.Synced now w.files) (reader : Reader) (hb : b.Provided)
    (hnow' : Word.isSigned now' = true) (hrecent : SyncPlan.Recent p.sync now now') :
    ∃ r w', p.syncNow b reader now' false w = (.ok r, w') ∧ r.IsIdle ∧ w'.backend = w.backend ∧
      p.state w'.files =
        { p.state w.files with lastSync := now', symbols := p.keptSymbols w.files } := by
  let next : SyncState := ⟨now', p.scan w.files, p.keptSymbols w.files, SyncState.currentVersion⟩
  obtain ⟨fs, hsave⟩ := SyncState.exists_save h.directory h.file next now'
  obtain ⟨written, himport⟩ := hb.importBatch_nil w.backend
  obtain ⟨r, hrun, hidle⟩ : ∃ r, p.runOn .willing b reader now' (p.state w.files)
      (.idle (p.scan w.files)) w = (.ok r, { w with files := fs }) ∧ r.IsIdle :=
    runOn_idle himport (by rw [symbolsOf_idle]; exact hsave)
  refine ⟨r, { w with files := fs }, ?_, hidle, rfl, ?_⟩
  · unfold Project.syncNow syncOn
    rw [Operation.bind_eq (show Operation.world w = (.ok w, w) from rfl)]
    simp only [h.plan? hrecent]
    exact hrun
  · have hrange : next.InRange := ⟨hnow', h.inRange⟩
    have hnext : p.state fs = next := SyncState.load_of_saveOn hrange rfl hsave
    simp only [hnext, h.files, h.version, next]

end Synced

/-- After a sync that succeeded, on any disk and either backend, until the time for a full sync has come:
a check finds nothing to do and every file known, and a sync retires and reads nothing, leaves the
backend as it is, and saves the state with its time and with the symbols of the scanned paths, which are
all of them where no path has a backslash. -/
theorem second_sync_idle {disk : Medium} {w w' : World σ} {now now' : Int} {force : Bool}
    {r : SyncReport} (hb : b.Provided) (hs : w.files.Sound) (hnow : Word.isSigned now = true)
    (hnow' : Word.isSigned now' = true) (hdays : p.sync.fullSyncAfterDays < twoTo 32)
    (hne : (p.scan w.files).isEmpty = false)
    (hread : ∀ f ∈ (p.scan w.files).values, f.readable = true)
    (hsync : p.syncOn disk b reader now force w = (.ok r, w')) (hapart : ¬ p.ScansState w'.files)
    (hlate : now ≤ now') (hsoon : now' - now ≤ p.sync.fullSyncAfterDays * SyncPlan.dayMillis) :
    (∃ c, p.check w'.files now' = some c ∧ c.isUpToDate = true ∧
      c.trackedFiles = (p.scan w'.files).size ∧ c.changes.unchanged = (p.scan w'.files).keys) ∧
    ∃ r' w'', p.syncNow b reader now' false w' = (.ok r', w'') ∧ r'.IsIdle ∧
      w''.backend = w'.backend ∧
      p.state w''.files =
        { p.state w'.files with lastSync := now', symbols := p.keptSymbols w'.files } ∧
      (p.Plain w.files → p.state w''.files = { p.state w'.files with lastSync := now' }) := by
  obtain ⟨hsynced, a, hfiles, hstate⟩ := synced_of_syncOn hs hnow hne hread hsync hapart
  have hrecent : SyncPlan.Recent p.sync now now' := ⟨hdays, hlate, hsoon⟩
  refine ⟨hsynced.check hrecent, ?_⟩
  obtain ⟨r', w'', hsync', hidle, hbackend, hstate'⟩ :=
    hsynced.syncNow reader hb hnow' hrecent
  refine ⟨r', w'', hsync', hidle, hbackend, hstate', fun hplain => ?_⟩
  rw [hstate', keptSymbols_of_plain (hfiles ▸ hplain) hstate hsynced.files]

end Project

namespace Trial

/-- A file may be scanned that cannot be read. -/
example : ∃ f ∈ (project.scan (tree [(["p", "a.ts"], .file (.withheld 8) 0)])).values,
    f.readable = false := by decide +kernel

/-- The tree that the second sync leaves. -/
def settled : FileSystem := ((after.next reader).save second.files project.statePath 0).1

theorem sync_second : ∃ r, project.syncNow Memory.backend reader 0 false ⟨second.files, .empty⟩ =
    (.ok r, ⟨settled, { Memory.empty with store := after.store reader .empty }⟩) :=
  (Turn.syncNow_eq_ok (t := second) state_second (make_grown "b.ts" source) rfl (by decide +kernel)
    .empty).2

/-- A week after the second sync there is nothing to do. -/
theorem idle_second : ∃ r w r' w',
    project.syncNow Memory.backend reader 0 false ⟨second.files, .empty⟩ = (.ok r, w) ∧
    (∃ c, project.check w.files 604800000 = some c ∧ c.isUpToDate = true ∧
      c.trackedFiles = (project.scan w.files).size ∧
      c.changes.unchanged = (project.scan w.files).keys) ∧
    project.syncNow Memory.backend reader 604800000 false w = (.ok r', w') ∧ r'.IsIdle ∧
    w'.backend = w.backend ∧
    project.state w'.files = { project.state w.files with lastSync := 604800000 } := by
  obtain ⟨r, hsync⟩ := sync_second
  have hlater : Word.isSigned 604800000 = true := by decide
  have hknown : (project.scan second.files).isEmpty = false := by decide +kernel
  have hread : ∀ f ∈ (project.scan second.files).values, f.readable = true := by decide +kernel
  have hapart : ¬ project.ScansState settled := by decide +kernel
  obtain ⟨hcheck, r', w', hsync', hidle, hbackend, _, hstate⟩ :=
    Project.second_sync_idle (w := ⟨second.files, Memory.empty⟩) .memory second.sound second.signed
      hlater (by decide) hknown hread hsync hapart (by decide) (by decide)
  exact ⟨r, _, r', w', hsync, hcheck, hsync', hidle, hbackend, hstate (by decide +kernel)⟩

/-- The tree that the sync of the misleading one leaves. -/
def deceived : FileSystem := ((misread.next reader).save misled.files project.statePath 0).1

theorem sync_misled : project.state deceived = misread.next reader ∧
    ∃ r, project.syncNow Memory.backend reader 0 false ⟨misled.files, .empty⟩ =
      (.ok r, ⟨deceived, { Memory.empty with store := misread.store reader .empty }⟩) :=
  Turn.syncNow_eq_ok (t := misled) (SyncState.load_of_not_isFile (by decide +kernel))
    (SyncPlan.make_fresh project.sync (project.scan misled.files) misled.now false) rfl
    (by decide +kernel) .empty

theorem keptSymbols_deceived : project.keptSymbols deceived ≠ (project.state deceived).symbols := by
  intro h
  have hthere : "node_modules/x.ts" ∈ (project.state deceived).symbols.keys := by
    rw [sync_misled.1]
    decide +kernel
  rw [← h] at hthere
  obtain ⟨_, _, hscanned⟩ := SortedMap.mem_keys_filter.mp hthere
  have hpassed : (project.scan deceived).contains "node_modules/x.ts" = false := by decide +kernel
  rw [hpassed] at hscanned
  cases hscanned

end Trial

/-- The symbols of a file whose name reads as the path of another are forgotten by a second sync. -/
theorem Project.exists_symbols_forgotten : ∃ (p : Project) (reader : Reader) (w w' w'' : World Memory)
    (now now' : Int) (r r' : SyncReport), w.files.Sound ∧ Word.isSigned now = true ∧
      Word.isSigned now' = true ∧ p.sync.fullSyncAfterDays < twoTo 32 ∧
      (p.scan w.files).isEmpty = false ∧ (∀ f ∈ (p.scan w.files).values, f.readable = true) ∧
      p.syncNow Memory.backend reader now false w = (.ok r, w') ∧ ¬ p.ScansState w'.files ∧
      now ≤ now' ∧ now' - now ≤ p.sync.fullSyncAfterDays * SyncPlan.dayMillis ∧
      p.syncNow Memory.backend reader now' false w' = (.ok r', w'') ∧
      (p.state w''.files).symbols ≠ (p.state w'.files).symbols := by
  open Trial in
  obtain ⟨_, r, hsync⟩ := sync_misled
  have hknown : (project.scan misled.files).isEmpty = false := by decide +kernel
  have hread : ∀ f ∈ (project.scan misled.files).values, f.readable = true := by decide +kernel
  have hapart : ¬ project.ScansState deceived := by decide +kernel
  obtain ⟨hsynced, _⟩ := synced_of_syncOn (w := ⟨misled.files, Memory.empty⟩) misled.sound
    misled.signed hknown hread hsync hapart
  have hlater : Word.isSigned 1 = true := by decide
  have hrecent : SyncPlan.Recent project.sync 0 1 := ⟨by decide, by decide, by decide⟩
  obtain ⟨r', w'', hsync', _, _, hstate'⟩ := hsynced.syncNow reader .memory hlater hrecent
  refine ⟨project, reader, ⟨misled.files, .empty⟩, _, w'', 0, 1, r, r', misled.sound, misled.signed,
    hlater, hrecent.days, hknown, hread, hsync, hapart, hrecent.late, hrecent.soon, hsync',
    fun h => ?_⟩
  rw [hstate'] at h
  exact keptSymbols_deceived h

end CodeAtlas
