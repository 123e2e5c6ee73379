/-
# A full sync rebuilds the graph

After any run, a full sync leaves what a reset leaves: the same relationships, the time they were made
at apart, and the same nodes, packages apart (`Run.full_eq_reset`). The full sync retires all files that
the state knows, and of what the state holds only packages are left then; so it imports into a bare
store what the reset imports into the empty one.

The reset also takes out the state file before it looks at the tree. This makes no difference where the
state is apart from the sources and manifests (`Project.scan_cleared`, `Project.factsOf_cleared`), and
it does where the state is a source itself, or has the name of a manifest and so makes a package of its
directory. A name with a backslash makes a difference too, since what is read from a path that the state
does not know is not retired (`Run.exists_full_ne_reset`).

Key definitions: `Project.StateApart`.
Key theorems: `Project.scan_cleared`, `Project.factsOf_cleared`, `Pass.store_full_eq`,
`Run.full_eq_reset`.
-/
import CodeAtlas.Proofs.LastExtraction
import CodeAtlas.Proofs.SymbolCache

namespace CodeAtlas

/-! ### Trees without their state -/

/-- The fingerprint of what a path leads to. -/
theorem Fingerprint.of_eq (fs : FileSystem) (path : String) :
    Fingerprint.of fs path = match (fs.locate path).toOption.bind fs.entry? with
      | none => unreadable 0 0
      | some .directory => unreadable Entry.directorySize 0
      | some (.file (.bytes data) t) => ⟨data.length, t, contentHash data, true⟩
      | some (.file (.withheld size) t) => unreadable size t := by
  unfold Fingerprint.of FileSystem.read FileSystem.find
  cases fs.locate path with
  | error e => rfl
  | ok names =>
    simp only [bind, Except.bind, Except.toOption, Option.bind_some]
    cases fs.entry? names with
    | none => rfl
    | some e =>
      cases e with
      | directory => rfl
      | file content t => cases content <;> rfl

theorem FileSystem.discover_eq (fs : FileSystem) (root : String) (config : ExtractionConfig) :
    fs.discover root config = match (fs.locate root).toOption with
      | none => []
      | some base => match fs.entry? base with
        | none => []
        | some (.file ..) => if config.allows root then [root] else []
        | some .directory =>
          (fs.sourceNames config base).map fun names => Path.join root (Path.ofParts names) := by
  unfold discover
  cases fs.locate root <;> rfl

namespace Project

/-- The state is neither a source nor a manifest. -/
structure StateApart (p : Project) : Prop where
  source : p.extraction.allows p.statePath = false
  manifest : Path.fileName? p.statePath ≠ some "package.json"

/-- The tree without an entry. -/
abbrev without (fs : FileSystem) (gone : List String) : FileSystem :=
  { fs with entries := fs.entries.erase gone }

section Without

variable {p : Project} {fs : FileSystem} {gone : List String} {c : Content} {t : Int}
  (hs : fs.Sound) (ha : p.StateApart) (hl : fs.locate p.statePath = .ok gone)
  (hg : fs.entry? gone = some (.file c t))

include hg in
theorem toOption_locate_without (path : String) :
    ((without fs gone).locate path).toOption = (fs.locate path).toOption := by
  have hiff : ∀ names, (without fs gone).locate path = .ok names ↔ fs.locate path = .ok names :=
    fun names => FileSystem.locate_erase hg
  cases h : fs.locate path with
  | ok names => rw [(hiff names).mpr h]
  | error e =>
    cases h' : (without fs gone).locate path with
    | error e' => rfl
    | ok names =>
      rw [(hiff names).mp h'] at h
      cases h

include hg in
theorem entry?_without {names : List String} (h : names ≠ gone) :
    FileSystem.entry? (without fs gone) names = fs.entry? names := by
  have hne : gone ≠ [] := by
    rintro rfl
    cases hg
  rw [FileSystem.entry?_erase hne, if_neg h]

include hs in
theorem allows_of_mem_discover {path : String} (h : path ∈ fs.discover p.root p.extraction) :
    p.extraction.allows path = true := by
  obtain ⟨base, hroot, ⟨rfl, hallows, _⟩ | ⟨_, names, rfl, hb, c, t, he⟩⟩ :=
    FileSystem.mem_discover h
  · exact hallows
  · rw [FileSystem.belongs, Bool.and_eq_true, Bool.and_eq_true] at hb
    have hne : names ≠ [] := by simpa using hb.1.1
    have hnamed : ∀ s ∈ names, Path.IsName s := fun s hm =>
      hs.named' he s (List.mem_append_right _ hm)
    rw [← hb.2]
    refine ExtractionConfig.allows_congr ?_
    rw [Path.fileName?_join (FileSystem.ne_empty_of_locate hroot) hne hnamed,
      Path.fileName?_ofParts hnamed]

include hs ha hl hg

/-- What leads to the state does not have the name of a source. -/
theorem allows_of_locate {path : String} (h : fs.locate path = .ok gone) :
    p.extraction.allows path = false := by
  rw [← ha.source]
  exact ExtractionConfig.allows_congr
    ((FileSystem.fileName?_of_locate hs h hg).trans (FileSystem.fileName?_of_locate hs hl hg).symm)

theorem contentAt?_without {path : String} (h : p.extraction.allows path = true) :
    (without fs gone).contentAt? path = fs.contentAt? path := by
  rw [FileSystem.contentAt?, FileSystem.contentAt?, toOption_locate_without hg]
  cases hloc : fs.locate path with
  | error e => rfl
  | ok names =>
    have hne : names ≠ gone := by
      rintro rfl
      rw [allows_of_locate hs ha hl hg hloc] at h
      cases h
    show (without fs gone).content? names = fs.content? names
    rw [FileSystem.content?, FileSystem.content?, entry?_without hg hne]

theorem fingerprint_without {path : String} (h : p.extraction.allows path = true) :
    Fingerprint.of (without fs gone) path = Fingerprint.of fs path := by
  rw [Fingerprint.of_eq, Fingerprint.of_eq, toOption_locate_without hg]
  cases hloc : fs.locate path with
  | error e => rfl
  | ok names =>
    have hne : names ≠ gone := by
      rintro rfl
      rw [allows_of_locate hs ha hl hg hloc] at h
      cases h
    simp only [Except.toOption, Option.bind_some, entry?_without hg hne]

theorem isFile_and_allows_without (path : String) :
    ((without fs gone).isFile path && p.extraction.allows path) =
      (fs.isFile path && p.extraction.allows path) := by
  cases h : p.extraction.allows path with
  | false => rw [Bool.and_false, Bool.and_false]
  | true =>
    rw [FileSystem.isFile_eq, FileSystem.isFile_eq, contentAt?_without hs ha hl hg h]

theorem resolvedImports_without (path : String) (facts : FileFacts) :
    (ProjectContext.new (without fs gone) p.root).resolvedImports (without fs gone) p.extraction path
      facts = (ProjectContext.new fs p.root).resolvedImports fs p.extraction path facts := by
  have hanchor : ProjectContext.anchored? (without fs gone) = ProjectContext.anchored? fs := rfl
  rw [ProjectContext.new_eq (show (without fs gone).cwd = fs.cwd from rfl)]
  simp only [ProjectContext.resolvedImports, ProjectContext.resolve?, ProjectContext.importBase?,
    hanchor, isFile_and_allows_without hs ha hl hg]

theorem sourceNames_without (base : List String) :
    (without fs gone).sourceNames p.extraction base = fs.sourceNames p.extraction base := by
  refine FileSystem.sourceNames_congr fun names hbelongs c' t' => ?_
  have hne : base ++ names ≠ gone := by
    rintro rfl
    rw [FileSystem.belongs, Bool.and_eq_true, Bool.and_eq_true] at hbelongs
    have hne : names ≠ [] := by simpa using hbelongs.1.1
    have hnamed : ∀ s ∈ names, Path.IsName s := fun s hm =>
      hs.named' hg s (List.mem_append_right _ hm)
    have hname : Path.fileName? (Path.ofParts names) = Path.fileName? p.statePath := by
      rw [Path.fileName?_ofParts hnamed, FileSystem.fileName?_of_locate hs hl hg,
        List.getLast?_append, Option.or_of_isSome (by simpa using hne)]
    rw [ExtractionConfig.allows_congr hname, ha.source] at hbelongs
    cases hbelongs.2
  rw [entry?_without hg hne]

theorem discover_without :
    (without fs gone).discover p.root p.extraction = fs.discover p.root p.extraction := by
  rw [FileSystem.discover_eq, FileSystem.discover_eq, toOption_locate_without hg]
  cases hloc : fs.locate p.root with
  | error e => rfl
  | ok base =>
    simp only [Except.toOption]
    by_cases hb : base = gone
    · subst hb
      have hne : base ≠ [] := by
        rintro rfl
        cases hg
      rw [hg, FileSystem.entry?_erase hne, if_pos rfl]
      simp only [allows_of_locate hs ha hl hg hloc, Bool.false_eq_true, if_false]
    · rw [entry?_without hg hb, sourceNames_without hs ha hl hg]

theorem scan_without : p.scan (without fs gone) = p.scan fs := by
  rw [scan, scan, FingerprintMap.scan, FingerprintMap.scan, discover_without hs ha hl hg]
  congr 1
  refine List.map_congr_left fun path hpath => ?_
  rw [fingerprint_without hs ha hl hg (allows_of_mem_discover hs hpath)]

theorem sameManifests_without : (without fs gone).SameManifests fs := by
  refine ⟨rfl, fun dir => ?_⟩
  have hne : dir ++ ["package.json"] ≠ gone := by
    rintro rfl
    have := FileSystem.fileName?_of_locate hs hl hg
    rw [List.getLast?_concat] at this
    exact ha.manifest this
  rw [FileSystem.content?, FileSystem.content?, entry?_without hg hne]

/-- Without the state, what is known of the scanned files is the same. -/
theorem factsOf_without (reader : Reader) (hp : p.Plain fs) {rel : String}
    (hc : (p.scan fs).contains rel = true) :
    p.factsOf reader (without fs gone) rel = p.factsOf reader fs rel := by
  have hread : ((without fs gone).read (Path.join p.root rel)).toOption =
      (fs.read (Path.join p.root rel)).toOption := by
    obtain ⟨f, hf⟩ := SortedMap.contains_iff.mp hc
    rcases scan_cases hs hp hf with ⟨base, names, hsrc, _⟩ | ⟨rfl, base, c', t', hroot, he⟩
    · have hallows : p.extraction.allows (Path.join p.root rel) = true := by
        rw [← hsrc.allowed]
        refine ExtractionConfig.allows_congr ?_
        rw [hsrc.path, Path.fileName?_join hsrc.root_ne hsrc.nonempty hsrc.named,
          Path.fileName?_ofParts hsrc.named]
      rw [FileSystem.toOption_read, FileSystem.toOption_read, contentAt?_without hs ha hl hg hallows]
    · -- what leads nowhere leads nowhere without the state either
      rw [FileSystem.toOption_read, FileSystem.toOption_read, FileSystem.contentAt?,
        FileSystem.contentAt?, toOption_locate_without hg, locate_root_file hroot he]
      rfl
  have hplain : p.Plain (without fs gone) := by
    rw [Plain, discover_without hs ha hl hg]
    exact hp
  rw [factsOf_eq, factsOf_eq]
  simp only [resolvedImports_without hs ha hl hg]
  rcases package_congr (hs.erase hg) hs hplain hp (sameManifests_without hs ha hl hg)
    (by rwa [scan_without hs ha hl hg]) hc hread with hnone | hpackage
  · rw [← hread, hnone]
    simp only [Option.filter_none, Option.bind_none, Option.map_none]
  · rw [hread, hpackage]

end Without

section Cleared

variable {p : Project} {fs : FileSystem} (hs : fs.Sound) (ha : p.StateApart)
include hs ha

theorem scan_cleared : p.scan (p.cleared fs) = p.scan fs := by
  rcases p.cleared_cases fs with ⟨gone, c, t, hl, hg, he⟩ | he
  · rw [he]
    exact scan_without hs ha hl hg
  · rw [he]

theorem factsOf_cleared (reader : Reader) (hp : p.Plain fs) {rel : String}
    (hc : (p.scan fs).contains rel = true) :
    p.factsOf reader (p.cleared fs) rel = p.factsOf reader fs rel := by
  rcases p.cleared_cases fs with ⟨gone, c, t, hl, hg, he⟩ | he
  · rw [he]
    exact factsOf_without hs ha hl hg reader hp hc
  · rw [he]

end Cleared

end Project

/-! ### Full passes -/

theorem Relationship.stamp_stamp (time time' : Int) (r : Relationship) :
    (r.stamp time').stamp time = r.stamp time := by
  have : (r.properties.insert "created_at" (.int time')).insert "created_at" (.int time) =
      r.properties.insert "created_at" (.int time) := by
    refine SortedMap.ext_get? fun k => ?_
    rw [SortedMap.get?_insert_eq, SortedMap.get?_insert_eq, SortedMap.get?_insert_eq]
    split <;> rfl
  rw [stamp, stamp, withProperty, withProperty, this]
  rfl

namespace Pass

variable {p : Project} {reader : Reader} {a b : Pass p} {s : Store}

theorem symbols_of_full (h : a.plan.full = true) : a.symbols reader =
    SortedMap.writes FileFacts.path FileSymbols.ofFacts .empty (a.facts reader) := by
  rw [symbols, Project.symbolsOf, h]
  rfl

section Stamp

variable (hfacts : a.facts reader = b.facts reader) (hsym : a.symbols reader = b.symbols reader)
include hfacts hsym

omit hsym in
theorem nodes_eq : (a.batch reader).nodes = (b.batch reader).nodes := by
  rw [batch, batch, Batch.ofFilesWith, Batch.ofFilesWith, hfacts]

/-- The relationships of two passes over the same facts differ in the time alone. -/
theorem batch_stamp : (a.batch reader).relationships =
    (b.batch reader).relationships.map (.stamp a.now) := by
  rw [batch, batch, Batch.ofFilesWith, Batch.ofFilesWith, hfacts, hsym, List.map_flatMap]
  simp only [Build.fileRelationships_stamp]

theorem imported_stamp : a.imported reader = (b.imported reader).map (.stamp a.now) := by
  rw [imported, imported, batch_stamp hfacts hsym]
  have hself : (b.batch reader).relationships = (b.batch reader).relationships.map (.stamp b.now) :=
    batch_stamp (a := b) rfl rfl
  have hstamp : ∀ r ∈ (b.batch reader).relationships, r.stamp b.now = r := by
    intro r hr
    rw [hself] at hr
    obtain ⟨r', _, rfl⟩ := List.mem_map.mp hr
    exact Relationship.stamp_stamp ..
  exact Reduction.relationships_stamp a.now hstamp

end Stamp

theorem foldl_addEnds_stamp (time : Int) (rs : List Relationship)
    (m : SortedMap String StoredNode) :
    (rs.map (.stamp time)).foldl Store.addEnds m = rs.foldl Store.addEnds m := by
  rw [List.foldl_map]
  rfl

/-- A full pass over what its state holds leaves what a full pass over the same facts leaves that
starts from nothing, the times and the packages apart. -/
theorem store_full_eq (h : Held a.state s) (ha : a.plan.full = true)
    (hu : a.plan.changes.unchanged = []) (hb : b.plan.full = true) (hr : b.plan.retire = [])
    (hfacts : a.facts reader = b.facts reader) :
    (a.store reader s).relationships.mapValues (fun _ => Store.timeless) =
      (b.store reader .empty).relationships.mapValues (fun _ => Store.timeless) ∧
    (a.store reader s).nodes.filter (fun _ n => n.node.kind ≠ .module) =
      (b.store reader .empty).nodes.filter fun _ n => n.node.kind ≠ .module := by
  have hsym : a.symbols reader = b.symbols reader := by
    rw [symbols_of_full ha, symbols_of_full hb, hfacts]
  have hbare : (a.retired s).Bare := h.bare_retired hu
  have hempty : b.retired .empty = .empty := by
    rw [retired, hr]
    rfl
  have hself : b.imported reader = (b.imported reader).map (.stamp b.now) :=
    imported_stamp (a := b) rfl rfl
  constructor
  · have hnone : (a.retired s).relationships = .empty :=
      SortedMap.ext_get? fun i => hbare.relationships i
    rw [relationships_store, relationships_store, hempty, hnone, imported_stamp hfacts hsym]
    have := Store.mergeRelationships_stamp a.now b.now (b.imported reader) .empty
    rwa [← hself] at this
  · have himport : Store.Importable (a.batch reader).nodes (a.imported reader) :=
      importable h.symbols
    rw [store, Store.importBatch_bare hbare himport, store, hempty, nodes_eq hfacts,
      imported_stamp hfacts hsym, Store.importBatch, Store.importBatch, foldl_addEnds_stamp]

end Pass

/-! ### Runs -/

section Runs

variable {p : Project} {reader : Reader} {ts : List Turn} {w w₁ w₂ : World Memory}
  {fs : FileSystem} {now now' : Int} {r r' : SyncReport}

theorem Project.plan?_forced {a : Pass p} {hs : fs.Sound} {hnow : Word.isSigned now = true}
    (h : p.pass? hs hnow true = some a) :
    a.files = fs ∧ a.state = p.state fs ∧ a.plan = .ofFull a.state (p.scan fs) := by
  obtain ⟨hfiles, _, hstate, hplan⟩ := Project.of_pass? h
  refine ⟨hfiles, hstate, ?_⟩
  rcases SyncPlan.make_cases hplan with hfull | ⟨hfalse, _⟩
  · rw [hfull, hstate]
  · cases hfalse

/-- After a run, a full sync of a tree leaves the relationships that a reset leaves, up to the time they
were made at, and the same nodes, packages apart. -/
theorem Run.full_eq_reset (h : Run p reader ts w) (hp : ∀ u ∈ ts, p.Plain (u.seen p))
    (ha : p.StateApart) (hs : fs.Sound) (hplain : p.Plain fs)
    (hstate : p.state fs = p.state w.files) (hnow : Word.isSigned now = true)
    (hnow' : Word.isSigned now' = true)
    (hfull : p.syncNow Memory.backend reader now true ⟨fs, w.backend⟩ = (.ok r, w₁))
    (hreset : p.reset Memory.backend reader now' ⟨fs, w.backend⟩ = (.ok r', w₂)) :
    w₁.backend.store.relationships.mapValues (fun _ => Store.timeless) =
      w₂.backend.store.relationships.mapValues (fun _ => Store.timeless) ∧
    w₁.backend.store.nodes.filter (fun _ n => n.node.kind ≠ .module) =
      w₂.backend.store.nodes.filter fun _ n => n.node.kind ≠ .module := by
  obtain ⟨hheld, _⟩ := h.cached hp
  obtain ⟨a, hpass, hstore, _⟩ := Project.syncNow_ok (w := ⟨fs, w.backend⟩) hs hnow hfull
  obtain ⟨hclear, hreset⟩ := Project.reset_ok hreset
  obtain ⟨b, hpass', hstore', _⟩ := Project.syncNow_ok
    (w := ⟨p.cleared fs, { w.backend with store := .empty }⟩) (p.sound_cleared hs) hnow' hreset
  obtain ⟨hfiles, hfrom, hplan⟩ := Project.plan?_forced hpass
  obtain ⟨hfiles', hfrom', hplan'⟩ := Project.plan?_forced hpass'
  have hfresh : b.state = .fresh := hfrom'.trans (Project.state_cleared hclear)
  have hextract : a.plan.changes.toExtract = b.plan.changes.toExtract := by
    rw [hplan, hplan', Project.scan_cleared hs ha]
    rfl
  have hfacts : a.facts reader = b.facts reader := by
    have hmap := List.map_congr_left fun q hq =>
      (Project.factsOf_cleared hs ha reader hplain (hfiles ▸ Pass.contains_of_mem hq)).symm
    rw [Pass.facts, Pass.facts, Project.files_extract, Project.files_extract, hfiles, hfiles',
      ← hextract]
    simpa only [List.filterMap_map, Function.id_comp] using congrArg (List.filterMap id) hmap
  rw [hstore, hstore']
  refine Pass.store_full_eq (hfrom.trans hstate ▸ hheld) ?_ ?_ ?_ ?_ hfacts
  · rw [hplan]; rfl
  · rw [hplan]; rfl
  · rw [hplan']; rfl
  · rw [hplan', hfresh]; rfl

end Runs

namespace Trial

theorem apart : project.StateApart := ⟨by decide +kernel, by decide +kernel⟩

/-- After the sync of one file, a full sync and a reset of the tree with one more succeed and leave the
same. -/
theorem full_second : ∃ w r r' w₁ w₂, (Run project reader [first] w ∧
      (∀ u ∈ [first], project.Plain (u.seen project)) ∧ project.StateApart ∧ second.files.Sound ∧
      project.Plain second.files ∧ project.state second.files = project.state w.files ∧
      project.syncNow Memory.backend reader 0 true ⟨second.files, w.backend⟩ = (.ok r, w₁) ∧
      project.reset Memory.backend reader 1 ⟨second.files, w.backend⟩ = (.ok r', w₂)) ∧
    w₁.backend.store.relationships.values ≠ [] ∧
    w₁.backend.store.relationships.mapValues (fun _ => Store.timeless) =
      w₂.backend.store.relationships.mapValues (fun _ => Store.timeless) ∧
    w₁.backend.store.nodes.filter (fun _ n => n.node.kind ≠ .module) =
      w₂.backend.store.nodes.filter fun _ n => n.node.kind ≠ .module := by
  obtain ⟨_, fs, hstate, hrun⟩ := run_first
  obtain ⟨_, r, hfull⟩ := leads_full { Memory.empty with store := before.store reader .empty }
  obtain ⟨r', w₂, hreset⟩ : ∃ r' w₂, project.reset Memory.backend reader 1 ⟨second.files,
      { Memory.empty with store := before.store reader .empty }⟩ = (.ok r', w₂) :=
    Operation.exists_ok (by decide +kernel)
  have hplain : ∀ u ∈ [first], project.Plain (u.seen project) := fun u hu =>
    plain_second u (List.mem_cons_of_mem _ hu)
  have hplain' : project.Plain second.files := plain_second second List.mem_cons_self
  have hsame : project.state second.files = project.state fs := state_second.trans hstate.symm
  refine ⟨_, r, r', _, w₂, ⟨hrun, hplain, apart, second.sound, hplain', hsame, hfull, hreset⟩, ?_,
    hrun.full_eq_reset hplain apart second.sound hplain' hsame (by decide) (by decide) hfull hreset⟩
  show (rebuilt.store reader (before.store reader .empty)).relationships.values ≠ []
  rw [Pass.store, Pass.imported, Pass.batch, Pass.symbols, facts_rebuilt]
  decide +kernel

/-- The sync of no file. -/
def idle : Turn := sync (tree []) (by decide +kernel) false

/-- A project whose state is one of its sources. -/
def inward : Project := ⟨"/p", {}, { statePath := "state.ts" }, {}⟩

/-- The pass of the sync of no file. -/
def nothing : Pass inward := opening inward idle

theorem run_idle : ∃ fs, inward.state fs = nothing.next reader ∧ Run inward reader [idle]
    ⟨fs, { Memory.empty with store := nothing.store reader .empty }⟩ :=
  (run_opening rfl (by decide +kernel) (by decide +kernel)).2

/-- The full sync of the tree afterwards, with the state as its one file. -/
def alone : Turn :=
  sync (tree [(["p", "state.ts"], .file (.bytes (Ident.bytes (nothing.next reader).text)) 0)])
    (by decide +kernel) true

theorem state_alone : inward.state alone.files = nothing.next reader :=
  SyncState.load_of_read (nothing.inRange_next reader) rfl rfl

/-- A project whose state has the name of a manifest. -/
def posing : Project := ⟨"/p", {}, { statePath := "src/package.json" }, {}⟩

/-- The pass of the sync of no file in it. -/
def vacant : Pass posing := opening posing idle

theorem run_posing : ∃ fs, posing.state fs = vacant.next reader ∧ Run posing reader [idle]
    ⟨fs, { Memory.empty with store := vacant.store reader .empty }⟩ :=
  (run_opening rfl (by decide +kernel) (by decide +kernel)).2

/-- The full sync of the tree afterwards, with a file alongside the state. -/
def alongside : Turn :=
  sync (tree [(["p", "src"], .directory), (["p", "src", "a.ts"], blank),
    (["p", "src", "package.json"], .file (.bytes (Ident.bytes (vacant.next reader).text)) 0)])
    (by decide +kernel) true

theorem state_alongside : posing.state alongside.files = vacant.next reader :=
  SyncState.load_of_read (vacant.inRange_next reader) rfl rfl

end Trial

/-- After the run, a full sync of the tree leaves the one graph and a reset the other. -/
def Run.Rebuilds (p : Project) (reader : Reader) (ts : List Turn) (fs : FileSystem)
    (full reset : Store) : Prop :=
  ∃ w r r' w₁ w₂, Run p reader ts w ∧ fs.Sound ∧ p.state fs = p.state w.files ∧
    p.syncNow Memory.backend reader 0 true ⟨fs, w.backend⟩ = (.ok r, w₁) ∧
    p.reset Memory.backend reader 0 ⟨fs, w.backend⟩ = (.ok r', w₂) ∧
    w₁.backend.store = full ∧ w₂.backend.store = reset

open Trial in
theorem Run.Rebuilds.of_state {p : Project} {ts : List Turn} {fs : FileSystem} {state : SyncState}
    {m : Memory} (h : fs.Sound) (hrun : ∃ fs', p.state fs' = state ∧ Run p reader ts ⟨fs', m⟩)
    (hstate : p.state fs = state)
    (hsave : (((forcing p state (sync fs h true)).next reader).save fs p.statePath 0).2.toOption =
      some ())
    (hreset : (p.reset Memory.backend reader 0 ⟨fs, m⟩).1.toOption.isSome = true) :
    Rebuilds p reader ts fs ((forcing p state (sync fs h true)).store reader m.store)
      (p.reset Memory.backend reader 0 ⟨fs, m⟩).2.backend.store := by
  obtain ⟨fs', hsame, hrun⟩ := hrun
  obtain ⟨_, r, hsync⟩ := leads_forcing (t := sync fs h true) rfl hstate hsave m
  obtain ⟨r', w₂, hok⟩ := Operation.exists_ok hreset
  exact ⟨_, r, r', _, w₂, hrun, h, hstate.trans hsame.symm, hsync, hok, rfl, by rw [hok]⟩

/-- Where a name has a backslash, a relationship outlives the full sync. Where the state is a source of
the project, the full sync finds it as a file, and the reset takes it out first. Where the state has
the name of a manifest, the full sync takes its directory for a package, and the reset finds no manifest
there. -/
theorem Run.exists_full_ne_reset :
    (∃ p reader ts fs s s', p.StateApart ∧ Rebuilds p reader ts fs s s' ∧
      s.relationships.values ≠ [] ∧ s'.relationships.values = []) ∧
    (∃ p reader ts fs s s', Path.fileName? p.statePath ≠ some "package.json" ∧
      (∀ u ∈ ts, p.Plain (u.seen p)) ∧ p.Plain fs ∧ Rebuilds p reader ts fs s s' ∧
      (∃ n ∈ s.nodes.values, n.node.kind = .file ∧ n.node.id = Ident.file p.sync.statePath) ∧
      s'.nodes.values = []) ∧
    ∃ p reader ts fs s s', p.extraction.allows p.statePath = false ∧
      (∀ u ∈ ts, p.Plain (u.seen p)) ∧ p.Plain fs ∧ Rebuilds p reader ts fs s s' ∧
      s.nodes.filter (fun _ n => n.node.kind ≠ .module) ≠
        s'.nodes.filter fun _ n => n.node.kind ≠ .module := by
  open Trial in
  refine ⟨?_, ?_, ?_⟩
  · have h := Rebuilds.of_state retry.sound run_misled.2 state_retry (by decide +kernel)
      (by decide +kernel)
    exact ⟨project, reader, [misled], retry.files, _, _, apart, h, by decide +kernel,
      by decide +kernel⟩
  · have h := Rebuilds.of_state alone.sound run_idle state_alone (by decide +kernel)
      (by decide +kernel)
    exact ⟨inward, reader, [idle], alone.files, _, _, by decide +kernel, by decide +kernel,
      by decide +kernel, h, by decide +kernel, by decide +kernel⟩
  · have h := Rebuilds.of_state alongside.sound run_posing state_alongside (by decide +kernel)
      (by decide +kernel)
    refine ⟨posing, reader, [idle], alongside.files, _, _, by decide +kernel, by decide +kernel,
      by decide +kernel, h, fun heq => ?_⟩
    -- the packages that the nodes name differ
    have hpackages := congrArg (·.values.map (·.node.properties.get? "package")) heq
    revert hpackages
    decide +kernel

end CodeAtlas
