/-
# Runs from an empty graph

A turn is one operation on a tree at a time: a sync, a cleaning or a reset. A run is a list of turns
that succeed, the newest first, from an empty graph and no state; between two turns the tree changes
in any way that leaves the state readable as it was.

After every run the graph is orderly (`Orderly`): its relationships are proper and stored at their ids,
so that cleaning changes nothing. Over trees without backslashes it is also held by the state
(`Held`): its relationships and its resolved nodes, packages apart, come from files that the state
knows, so that retiring all files that are known leaves packages alone (`Held.bare_retired`).

Key definitions: `Act`, `Turn`, `Turn.seen`, `Turn.pass?`, `Run`, `Orderly`, `Held`.
Key theorems: `Turn.leads_cases`, `Turn.syncOn_eq`, `Pass.stored_cases`, `Orderly.store`,
`Run.orderly_induction`, `Held.store`, `Run.induction`.
-/
import CodeAtlas.Proofs.Extraction
import CodeAtlas.Proofs.Syncing

namespace CodeAtlas

/-! ### Trees without their state -/

namespace FileSystem

theorem Sound.erase {fs : FileSystem} (h : fs.Sound) {gone : List String} {c : Content} {t : Int}
    (hg : fs.entry? gone = some (.file c t)) :
    ({ fs with entries := fs.entries.erase gone } : FileSystem).Sound := by
  have hget : ∀ {names e}, (fs.entries.erase gone).get? names = some e →
      fs.entries.get? names = some e := by
    intro names e he
    rw [SortedMap.get?_erase_eq] at he
    split at he
    · cases he
    · exact he
  exact ⟨fun he => h.named (hget he), fun he => (directory_erase hg _).mpr (h.parent (hget he)),
    (directory_erase hg _).mpr h.cwd, fun he => h.size (hget he)⟩

end FileSystem

namespace Project

variable {p : Project} {fs : FileSystem}

/-- Clearing the state takes out a file, or finds none. -/
theorem cleared_cases (p : Project) (fs : FileSystem) :
    (∃ gone c t, fs.locate p.statePath = .ok gone ∧ fs.entry? gone = some (.file c t) ∧
      p.cleared fs = { fs with entries := fs.entries.erase gone }) ∨ p.cleared fs = fs := by
  unfold cleared SyncState.clear FileSystem.removeFile
  cases hl : fs.locate p.statePath with
  | error e =>
    refine .inr ?_
    cases e <;> rfl
  | ok gone =>
    simp only [bind, Except.bind]
    cases he : fs.entry? gone with
    | none => exact .inr rfl
    | some entry =>
      cases entry with
      | directory => exact .inr rfl
      | file c t => exact .inl ⟨gone, c, t, rfl, he, rfl⟩

theorem sound_cleared (p : Project) (h : fs.Sound) : (p.cleared fs).Sound := by
  rcases p.cleared_cases fs with ⟨gone, c, t, _, hg, he⟩ | he
  · rw [he]
    exact h.erase hg
  · rw [he]
    exact h

theorem state_cleared (h : SyncState.clear fs p.statePath = .ok (p.cleared fs)) :
    p.state (p.cleared fs) = .fresh := by
  refine SyncState.load_of_not_isFile ?_
  rw [Bool.eq_false_iff]
  intro hfile
  obtain ⟨names, c, t, hl, he⟩ := FileSystem.isFile_iff.mp hfile
  rcases p.cleared_cases fs with ⟨gone, c', t', hloc, hg, hfs⟩ | hfs
  · -- the path still leads to where the file was
    rw [hfs] at hl he
    rw [FileSystem.locate_erase hg, hloc] at hl
    have hl : gone = names := Except.ok.inj hl
    subst hl
    have hne : gone ≠ [] := by
      rintro rfl
      cases hg
    rw [FileSystem.entry?_erase hne, if_pos rfl] at he
    cases he
  · rw [hfs] at hl he
    rw [SyncState.clear, FileSystem.removeFile, hl] at h
    simp only [bind, Except.bind, he] at h
    rw [hfs] at h
    have hne : names ≠ [] := by
      rintro rfl
      cases he
    have := congrArg (fun f => f.entry? names) (Except.ok.inj h)
    simp only [FileSystem.entry?_erase hne, if_pos, he] at this
    cases this

end Project

/-! ### Turns and runs -/

/-- An operation that changes the graph or the state. -/
inductive Act where
  | sync (force : Bool)
  | clean
  | reset

/-- An operation on a sound tree at a time. -/
structure Turn where
  files : FileSystem
  now : Int
  act : Act
  sound : files.Sound
  signed : Word.isSigned now = true

namespace Turn

/-- The tree that the operation goes by: a reset looks at the files without the state. -/
def seen (p : Project) (t : Turn) : FileSystem :=
  match t.act with
  | .reset => p.cleared t.files
  | .sync _ | .clean => t.files

/-- The pass of the operation, unless it is a cleaning. -/
def pass? (p : Project) (t : Turn) : Option (Pass p) :=
  match t.act with
  | .sync force => p.pass? t.sound t.signed force
  | .clean => none
  | .reset => p.pass? (p.sound_cleared t.sound) t.signed true

/-- The operation, on a graph, succeeds and leaves a world. -/
def Leads (p : Project) (reader : Reader) (t : Turn) (m : Memory) (w : World Memory) : Prop :=
  match t.act with
  | .sync force => ∃ r, p.syncNow Memory.backend reader t.now force ⟨t.files, m⟩ = (.ok r, w)
  | .clean => ∃ r, Project.clean Memory.backend ⟨t.files, m⟩ = (.ok r, w)
  | .reset => ∃ r, p.reset Memory.backend reader t.now ⟨t.files, m⟩ = (.ok r, w)

variable {p : Project} {reader : Reader} {t : Turn} {m : Memory} {w : World Memory}

theorem files_of_pass? {a : Pass p} (h : t.pass? p = some a) : a.files = t.seen p := by
  unfold pass? at h
  unfold seen
  split at h
  · rename_i hact
    rw [hact]
    exact (Project.of_pass? h).1
  · cases h
  · rename_i hact
    rw [hact]
    exact (Project.of_pass? h).1

/-- What a turn leaves: what its pass leaves, from the graph and its state or, after a reset, from
nothing; or else it is a cleaning. -/
theorem leads_cases (h : t.Leads p reader m w) :
    (∃ a s, t.pass? p = some a ∧
      ((a.state = p.state t.files ∧ s = m.store) ∨ (a.state = .fresh ∧ s = .empty)) ∧
      w.backend.store = a.store reader s ∧ p.state w.files = a.next reader) ∨
    (t.act = .clean ∧ ∃ r, Project.clean Memory.backend ⟨t.files, m⟩ = (.ok r, w)) := by
  unfold Leads at h
  unfold pass?
  split at h
  · rename_i force hact
    obtain ⟨r, h⟩ := h
    obtain ⟨a, ha, hstore, hstate⟩ :=
      Project.syncNow_ok (w := ⟨t.files, m⟩) t.sound t.signed h
    rw [hact]
    exact .inl ⟨a, m.store, ha, .inl ⟨(Project.of_pass? ha).2.2.1, rfl⟩, hstore, hstate⟩
  · rename_i hact
    exact .inr ⟨hact, h⟩
  · rename_i hact
    obtain ⟨r, h⟩ := h
    obtain ⟨hclear, h⟩ := Project.reset_ok h
    obtain ⟨a, ha, hstore, hstate⟩ := Project.syncNow_ok
      (w := ⟨p.cleared t.files, { m with store := .empty }⟩) (p.sound_cleared t.sound) t.signed h
    rw [hact]
    refine .inl ⟨a, .empty, ha, .inr ⟨?_, rfl⟩, hstore, hstate⟩
    rw [(Project.of_pass? ha).2.2.1, Project.state_cleared hclear]

/-- What a sync leaves. -/
theorem sync_ok {force : Bool} (hact : t.act = .sync force) (h : t.Leads p reader m w) :
    ∃ a, t.pass? p = some a ∧ a.files = t.files ∧ a.state = p.state t.files ∧
      p.plan? t.files t.now force = some a.plan ∧ w.backend.store = a.store reader m.store := by
  rw [Leads, hact] at h
  obtain ⟨r, h⟩ := h
  obtain ⟨a, ha, hstore, _⟩ := Project.syncNow_ok (w := ⟨t.files, m⟩) t.sound t.signed h
  obtain ⟨hfiles, _, hstate, hplan⟩ := Project.of_pass? ha
  rw [pass?, hact]
  exact ⟨a, ha, hfiles, hstate, hplan, hstore⟩

/-- The pass of a sync that has a plan from a state. -/
def passFrom (t : Turn) {force : Bool} {state : SyncState} {plan : SyncPlan}
    (hplan : SyncPlan.make p.sync state (p.scan t.files) t.now force = some plan) : Pass p :=
  ⟨t.files, t.now, state, plan, t.sound, t.signed, SyncPlan.follows_of_make hplan⟩

theorem pass?_sync {force : Bool} (hact : t.act = .sync force) {state : SyncState}
    (hstate : p.state t.files = state) {plan : SyncPlan}
    (hplan : SyncPlan.make p.sync state (p.scan t.files) t.now force = some plan) :
    t.pass? p = some (t.passFrom hplan) := by
  subst hstate
  rw [pass?, hact]
  exact Option.map_eq_some_iff.mpr ⟨⟨plan, hplan⟩, Option.attach_eq_some_iff.mpr hplan, rfl⟩

/-- A sync that has a plan from the state leaves the graph of its pass, and ends as saving the next
state does. -/
theorem syncOn_eq {disk : Medium} {force : Bool} {state : SyncState}
    (hstate : p.state t.files = state) {plan : SyncPlan}
    (hplan : SyncPlan.make p.sync state (p.scan t.files) t.now force = some plan) {fs : FileSystem}
    {saved : Except FileError Unit}
    (hsave : ((t.passFrom hplan).next reader).saveOn disk t.files p.statePath t.now = (fs, saved))
    (m : Memory) : ∃ result, Project.EndsAs saved result ∧
      p.syncOn disk Memory.backend reader t.now force ⟨t.files, m⟩ =
        (result, ⟨fs, { m with store := (t.passFrom hplan).store reader m.store }⟩) := by
  subst hstate
  obtain ⟨result, hend, hrun⟩ := Project.runOn_memory (t.passFrom hplan) m hsave
  refine ⟨result, hend, ?_⟩
  unfold Project.syncOn
  rw [Operation.bind_eq (show Operation.world (⟨t.files, m⟩ : World Memory) = (.ok _, _) from rfl)]
  dsimp only
  rw [show p.plan? t.files t.now force = some plan from hplan]
  exact hrun

/-- A sync succeeds where there is a plan from the state and the next state can be saved, and leaves the
tree with that state. -/
theorem syncNow_eq_ok {force : Bool} {state : SyncState} (hstate : p.state t.files = state)
    {plan : SyncPlan}
    (hplan : SyncPlan.make p.sync state (p.scan t.files) t.now force = some plan) {fs : FileSystem}
    (hfs : (((t.passFrom hplan).next reader).save t.files p.statePath t.now).1 = fs)
    (hsave : (((t.passFrom hplan).next reader).save t.files p.statePath t.now).2.toOption =
      some ()) (m : Memory) :
    p.state fs = (t.passFrom hplan).next reader ∧
      ∃ r, p.syncNow Memory.backend reader t.now force ⟨t.files, m⟩ =
        (.ok r, ⟨fs, { m with store := (t.passFrom hplan).store reader m.store }⟩) := by
  cases hs : ((t.passFrom hplan).next reader).save t.files p.statePath t.now with
  | mk fs' saved =>
    rw [hs] at hfs hsave
    subst hfs
    cases saved with
    | error e => cases hsave
    | ok _ =>
      obtain ⟨_, ⟨r, rfl⟩, hsync⟩ := syncOn_eq hstate hplan hs m
      exact ⟨SyncState.load_of_saveOn ((t.passFrom hplan).inRange_next reader) rfl hs, r, hsync⟩

theorem leads_sync {force : Bool} (hact : t.act = .sync force) {state : SyncState}
    (hstate : p.state t.files = state) {plan : SyncPlan}
    (hplan : SyncPlan.make p.sync state (p.scan t.files) t.now force = some plan)
    (hsave : (((t.passFrom hplan).next reader).save t.files p.statePath t.now).2.toOption =
      some ()) (m : Memory) :
    ∃ fs, p.state fs = (t.passFrom hplan).next reader ∧
      t.Leads p reader m ⟨fs, { m with store := (t.passFrom hplan).store reader m.store }⟩ := by
  obtain ⟨hnext, hsync⟩ := syncNow_eq_ok hstate hplan rfl hsave m
  refine ⟨_, hnext, ?_⟩
  rw [Leads, hact]
  exact hsync

end Turn

/-- The turns, the newest first, succeed one after the other from an empty graph and no state, and
leave a world. -/
inductive Run (p : Project) (reader : Reader) : List Turn → World Memory → Prop where
  | start {fs : FileSystem} (none : fs.isFile p.statePath = false) : Run p reader [] ⟨fs, .empty⟩
  | turn {ts : List Turn} {w w' : World Memory} {t : Turn} (before : Run p reader ts w)
      (state : p.state t.files = p.state w.files) (leads : t.Leads p reader w.backend w') :
      Run p reader (t :: ts) w'

/-! ### What one pass does to a store -/

theorem Relationship.filePath?_of {r : Relationship} {q : String}
    (h : r.properties.get? "file_path" = some (.string q)) : r.filePath? = some q := by
  rw [filePath?, h]
  rfl

theorem Relationship.Proper.exists_filePath {r : Relationship} (h : r.Proper) :
    ∃ q, r.filePath? = some q := by
  obtain ⟨q, hq⟩ := h.filed
  exact ⟨q, filePath?_of hq⟩

namespace Pass

variable {p : Project} {reader : Reader} {a : Pass p} {s : Store} {i q : String} {r : Relationship}

/-- A file that is known and not retired is unchanged. -/
theorem unchanged_of_kept (hq : a.state.files.contains q = true)
    (hk : Store.isOf a.plan.retire (some q) = false) : q ∈ a.plan.changes.unchanged := by
  by_cases hu : q ∈ a.plan.changes.unchanged
  · exact hu
  · have hof : Store.isOf a.plan.retire (some q) = true :=
      Store.isOf_iff.mpr ⟨q, rfl, (a.follows.retire q).mpr ⟨hq, hu⟩⟩
    rw [hof] at hk
    cases hk

/-- An unchanged file is still there. -/
theorem contains_of_unchanged (hu : q ∈ a.plan.changes.unchanged) :
    (a.next reader).files.contains q = true := by
  obtain ⟨_, f, _, hf, _⟩ := a.follows.unchanged q hu
  rw [next, a.follows.fingerprints]
  exact SortedMap.contains_of_get? hf

theorem mem_unchanged_of_contains (h : (a.next reader).files.contains q = true)
    (hx : q ∉ a.plan.changes.toExtract) : q ∈ a.plan.changes.unchanged := by
  by_cases hu : q ∈ a.plan.changes.unchanged
  · exact hu
  · rw [next, a.follows.fingerprints] at h
    exact absurd ((a.follows.extract q).mpr ⟨h, hu⟩) hx

theorem contains_next_of_mem (h : q ∈ a.plan.changes.toExtract) :
    (a.next reader).files.contains q = true := by
  rw [next, a.follows.fingerprints]
  exact contains_of_mem h

theorem get?_retired_relationships : (a.retired s).relationships.get? i = some r ↔
    s.relationships.get? i = some r ∧ Store.isOf a.plan.retire r.filePath? = false := by
  rw [retired]
  split
  · rename_i he
    simp [List.isEmpty_iff.mp he, Store.isOf_nil]
  · exact Store.get?_retire_relationships

theorem get?_retired_nodes {n : StoredNode} (h : (a.retired s).nodes.get? i = some n) :
    ∃ old, s.nodes.get? i = some old ∧ n.node = old.node := by
  rw [retired] at h
  split at h
  · exact ⟨n, h, rfl⟩
  · obtain ⟨⟨old, hold, hnode, _⟩, _⟩ := Store.get?_retire_nodes h
    exact ⟨old, hold, hnode⟩

theorem relationships_store : (a.store reader s).relationships =
    (a.imported reader).foldl Store.mergeRelationship (a.retired s).relationships := by
  rw [store, Store.importBatch]

theorem nodes_store : (a.store reader s).nodes = (a.imported reader).foldl Store.addEnds
    ((a.batch reader).nodes.foldl Store.mergeNode (a.retired s).nodes) := by
  rw [store, Store.importBatch]

/-- A resolved node is left as it is, unless its file is retired. -/
theorem get?_retired_resolved {n : StoredNode} (hr : n.resolved = true) :
    (a.retired s).nodes.get? i = some n ↔
      s.nodes.get? i = some n ∧ Store.isOf a.plan.retire n.node.filePath? = false := by
  rw [retired]
  split
  · rename_i he
    simp [List.isEmpty_iff.mp he, Store.isOf_nil]
  · exact Store.get?_retire_resolved hr

/-- Adding the ends of relationships leaves the resolved nodes as they are. -/
theorem get?_store_resolved {n : StoredNode} (hr : n.resolved = true) :
    (a.store reader s).nodes.get? i = some n ↔
      ((a.batch reader).nodes.foldl Store.mergeNode (a.retired s).nodes).get? i = some n := by
  rw [nodes_store]
  constructor
  · intro h
    rcases Store.of_get?_addAllEnds h with h | ⟨_, rfl, _⟩
    · exact h
    · cases hr
  · intro h
    obtain ⟨hend, hnot⟩ := Store.get?_addAllEnds i (a.imported reader)
      ((a.batch reader).nodes.foldl Store.mergeNode (a.retired s).nodes)
    by_cases he : ∃ r ∈ a.imported reader, Store.EndOf i r
    · rw [hend he, h, Option.some_or]
    · rw [hnot fun r hr hre => he ⟨r, hr, hre⟩, h]

/-- What is stored after a pass: what was there and was neither retired nor written; or else it has the
properties of one that was imported, and says what one of them or one that was not retired says. -/
theorem stored_cases (hk : Store.Keyed s.relationships)
    (h : (a.store reader s).relationships.get? i = some r) :
    (s.relationships.get? i = some r ∧ Store.isOf a.plan.retire r.filePath? = false ∧
      ∀ c ∈ a.imported reader, c.id ≠ i) ∨
    ∃ c ∈ a.imported reader, c.id = i ∧ Store.Overlays r c ∧
      ∃ o, (s.relationships.get? i = some o ∨ o ∈ a.imported reader) ∧ Store.Same r o := by
  have hk' : Store.Keyed (a.retired s).relationships := fun h => hk (get?_retired_relationships.mp h).1
  rw [relationships_store] at h
  rcases Store.get?_mergeRelationships (a.imported reader) hk' h with
    ⟨hold, hnone⟩ | ⟨c, hc, hid, hover, o, ho, hsame⟩
  · obtain ⟨hs, hof⟩ := get?_retired_relationships.mp hold
    exact .inl ⟨hs, hof, hnone⟩
  · exact .inr ⟨c, hc, hid, hover, o, ho.imp_left fun h => (get?_retired_relationships.mp h).1, hsame⟩

end Pass

/-! ### What every run keeps -/

/-- Every relationship of the store is proper and stored at its id, and the symbols of the state are
tagged. -/
structure Orderly (state : SyncState) (s : Store) : Prop where
  keyed : Store.Keyed s.relationships
  proper : ∀ {i r}, s.relationships.get? i = some r → r.Proper
  symbols : state.symbols.IsTagged

namespace Orderly

variable {p : Project} {reader : Reader} {a : Pass p} {s : Store}

theorem fresh : Orderly .fresh .empty where
  keyed h := by cases h
  proper h := by cases h
  symbols h := by cases h

theorem proper_of_mem {state : SyncState} (h : Orderly state s) :
    ∀ r ∈ s.relationships.values, r.Proper := by
  intro r hr
  obtain ⟨i, hi⟩ := SortedMap.mem_values.mp hr
  exact h.proper hi

theorem proper_of_overlay {r c o : Relationship} (hc : c.Proper) (ho : o.Proper)
    (hover : Store.Overlays r c) (hsame : Store.Same r o) : r.Proper := by
  obtain ⟨hk, hs, ht⟩ : r.kind = o.kind ∧ r.source = o.source ∧ r.target = o.target := by
    simpa [Relationship.triple] using hsame.triple
  refine ⟨?_, ?_, ?_, ?_⟩
  · rw [hsame.id, ho.id_eq, hk, hs, ht]
  · rw [hk, hs, ht]
    exact ho.ends
  · obtain ⟨v, hv, hpass⟩ := hc.confident
    exact ⟨v, hover hv, hpass⟩
  · obtain ⟨q, hq⟩ := hc.filed
    exact ⟨q, hover hq⟩

section Store

variable (h : Orderly a.state s)
include h

theorem proper_of_imported {c : Relationship} (hc : c ∈ a.imported reader) : c.Proper := by
  obtain ⟨q, hq⟩ := Pass.built_of_imported hc
  exact Pass.proper_of_built h.symbols hq

theorem proper_store {i : String} {r : Relationship}
    (hr : (a.store reader s).relationships.get? i = some r) : r.Proper := by
  rcases Pass.stored_cases h.keyed hr with ⟨hold, _⟩ | ⟨c, hc, _, hover, o, ho, hsame⟩
  · exact h.proper hold
  · refine proper_of_overlay (h.proper_of_imported hc) ?_ hover hsame
    exact ho.elim h.proper h.proper_of_imported

/-- A pass leaves an orderly store. -/
theorem store : Orderly (a.next reader) (a.store reader s) where
  keyed := by
    rw [Pass.relationships_store]
    exact Store.keyed_mergeRelationships _ fun h' => h.keyed (Pass.get?_retired_relationships.mp h').1
  proper := h.proper_store
  symbols := Pass.isTagged_symbols h.symbols

end Store

end Orderly

/-- What holds of nothing, and is kept by every pass, holds after every run, together with `Orderly`. -/
theorem Run.orderly_induction {p : Project} {reader : Reader}
    {P : List Turn → SyncState → Store → Prop} (fresh : ∀ ts, P ts .fresh .empty)
    (pass : ∀ {t ts a s}, t.pass? p = some a → Orderly a.state s → P ts a.state s →
      P (t :: ts) (a.next reader) (a.store reader s))
    (clean : ∀ {t ts state s}, t.pass? p = none → P ts state s → P (t :: ts) state s)
    {ts : List Turn} {w : World Memory} (h : Run p reader ts w) :
    Orderly (p.state w.files) w.backend.store ∧ P ts (p.state w.files) w.backend.store := by
  induction h with
  | @start fs hnone =>
    have : p.state fs = .fresh := SyncState.load_of_not_isFile hnone
    rw [this]
    exact ⟨.fresh, fresh []⟩
  | @turn ts w w' t _ hstate hleads ih =>
    obtain ⟨horderly, hP⟩ := ih
    rcases Turn.leads_cases hleads with ⟨a, s, ha, hfrom, hstore, hnext⟩ | ⟨hact, r, hclean⟩
    · obtain ⟨horderly, hP⟩ : Orderly a.state s ∧ P ts a.state s := by
        rcases hfrom with ⟨hs, rfl⟩ | ⟨hs, rfl⟩
        · rw [hs, hstate]
          exact ⟨horderly, hP⟩
        · rw [hs]
          exact ⟨.fresh, fresh ts⟩
      rw [hstore, hnext]
      exact ⟨horderly.store, pass ha horderly hP⟩
    · have hnone : t.pass? p = none := by rw [Turn.pass?, hact]
      rw [Project.clean_eq (w := ⟨t.files, w.backend⟩) horderly.proper_of_mem] at hclean
      cases hclean
      show Orderly (p.state t.files) w.backend.store ∧
        P (t :: ts) (p.state t.files) w.backend.store
      rw [hstate]
      exact ⟨horderly, clean hnone hP⟩

theorem Run.orderly {p : Project} {reader : Reader} {ts : List Turn} {w : World Memory}
    (h : Run p reader ts w) : Orderly (p.state w.files) w.backend.store :=
  (Run.orderly_induction (P := fun _ _ _ => True) (fun _ => trivial) (fun _ _ _ => trivial)
    (fun _ _ => trivial) h).1

/-! ### What a state holds -/

/-- The relationships of the store are proper, and they and its resolved nodes, packages apart, come
from files that the state knows; where it knows none, there are packages only. -/
structure Held (state : SyncState) (s : Store) : Prop where
  keyed : Store.Keyed s.relationships
  proper : ∀ {i r}, s.relationships.get? i = some r → r.Proper
  filed : ∀ {i r q}, s.relationships.get? i = some r → r.filePath? = some q →
    state.files.contains q = true
  package : ∀ {i n}, s.nodes.get? i = some n → NodeKind.Tagged .module i →
    n.node.kind = .module ∧ n.node.properties.get? "file_path" = none
  declared : ∀ {i n}, s.nodes.get? i = some n → ¬ NodeKind.Tagged .module i → n.resolved = true →
    ∃ q, n.node.filePath? = some q ∧ state.files.contains q = true
  bare : state.files.isEmpty = true → s.Bare
  symbols : state.symbols.IsTagged

namespace Held

variable {p : Project} {reader : Reader} {a : Pass p} {s : Store}

theorem fresh : Held .fresh .empty where
  keyed h := by cases h
  proper h := by cases h
  filed h := by cases h
  package h := by cases h
  declared h := by cases h
  bare _ := Store.bare_empty
  symbols h := by cases h

theorem orderly {state : SyncState} (h : Held state s) : Orderly state s :=
  ⟨h.keyed, h.proper, h.symbols⟩

/-- Where no file is unchanged, retiring leaves packages only. -/
theorem bare_retired (h : Held a.state s) (hu : a.plan.changes.unchanged = []) :
    (a.retired s).Bare := by
  have hretire : ∀ q, q ∈ a.plan.retire ↔ a.state.files.contains q = true := by
    intro q
    rw [a.follows.retire, hu]
    simp
  unfold Pass.retired
  split
  · rename_i he
    refine h.bare (SortedMap.isEmpty_iff.mpr fun q => ?_)
    rw [List.isEmpty_iff] at he
    cases hq : a.state.files.get? q with
    | none => rfl
    | some f =>
      have := (hretire q).mpr (SortedMap.contains_of_get? hq)
      rw [he] at this
      cases this
  · have hrel : ∀ i, (s.retire a.plan.retire).relationships.get? i = none := by
      intro i
      cases hi : (s.retire a.plan.retire).relationships.get? i with
      | none => rfl
      | some r =>
        obtain ⟨hr, hof⟩ := Store.get?_retire_relationships.mp hi
        obtain ⟨q, hq⟩ := (h.proper hr).exists_filePath
        rw [hq, Store.isOf_iff.mpr ⟨q, rfl, (hretire q).mpr (h.filed hr hq)⟩] at hof
        cases hof
    refine ⟨hrel, fun {i n} hn => ?_⟩
    obtain ⟨⟨old, hold, hnode, hres⟩, hkeep⟩ := Store.get?_retire_nodes hn
    have hresolved : n.resolved = true := by
      refine hkeep.resolve_right ?_
      rintro ⟨j, r, hr, _⟩
      rw [hrel j] at hr
      cases hr
    by_cases ht : NodeKind.Tagged .module i
    · exact ⟨ht, by rw [hnode]; exact (h.package hold ht).1⟩
    · obtain ⟨q, hq, hc⟩ := h.declared hold ht (hres hresolved).1
      have hof := (hres hresolved).2
      rw [hq, Store.isOf_iff.mpr ⟨q, rfl, (hretire q).mpr hc⟩] at hof
      cases hof

section Store

variable (h : Held a.state s) (hp : p.Plain a.files)
include h

/-- A package stays one through an import, and comes from no file. -/
theorem package_store {i : String} {n : StoredNode}
    (hn : (a.store reader s).nodes.get? i = some n) (ht : NodeKind.Tagged .module i) :
    n.node.kind = .module ∧ n.node.properties.get? "file_path" = none := by
  rw [Pass.nodes_store] at hn
  have hmerged : ((a.batch reader).nodes.foldl Store.mergeNode (a.retired s).nodes).get? i =
      some n := by
    rcases Store.of_get?_addAllEnds hn with hn | ⟨hnone, _, hend⟩
    · exact hn
    · -- the package at the end of an edge is built with it, so that no stub stands for it
      obtain ⟨m, hm, hid⟩ := (Pass.importable h.symbols).packages ht hend
      have := Store.isSome_mergeNodes (a.batch reader).nodes (m := (a.retired s).nodes)
        (.inr ⟨m, hm, hid⟩)
      rw [hnone] at this
      cases this
  refine Store.mergeNodes_induction
    (P := fun n => n.node.kind = .module ∧ n.node.properties.get? "file_path" = none)
    (a.batch reader).nodes (fun n hn => ?_) (fun m hm hid old hold => ?_) n hmerged
  · obtain ⟨old, hold, hnode⟩ := Pass.get?_retired_nodes hn
    rw [hnode]
    exact h.package hold ht
  · obtain ⟨f, _, hof⟩ := Pass.node_cases hm
    have hkind : m.kind = .module := NodeKind.tagged_unique hof.tagged (hid ▸ ht)
    have hpath : m.properties.get? "file_path" = none :=
      (hof.filed.resolve_right fun hne => hne.1 hkind).2
    cases old with
    | none => exact ⟨hkind, hpath⟩
    | some o =>
      refine ⟨hkind, ?_⟩
      show (o.node.properties.union m.properties).get? "file_path" = none
      rw [SortedMap.get?_union, hpath, (hold o rfl).2]
      rfl

include hp

theorem filed_store {i q : String} {r : Relationship}
    (hr : (a.store reader s).relationships.get? i = some r) (hq : r.filePath? = some q) :
    (a.next reader).files.contains q = true := by
  rcases Pass.stored_cases h.keyed hr with ⟨hold, hof, _⟩ | ⟨c, hc, _, hover, _⟩
  · rw [hq] at hof
    exact Pass.contains_of_unchanged (Pass.unchanged_of_kept (h.filed hold hq) hof)
  · obtain ⟨q', hb⟩ := Pass.built_of_imported hc
    have := Relationship.filePath?_of (hover (Pass.filePath_of_built h.symbols hb))
    rw [this] at hq
    cases hq
    exact Pass.contains_next_of_mem (Pass.mem_toExtract_of_built hp hb)

theorem declared_store {i : String} {n : StoredNode}
    (hn : (a.store reader s).nodes.get? i = some n) (ht : ¬ NodeKind.Tagged .module i)
    (hr : n.resolved = true) :
    ∃ q, n.node.filePath? = some q ∧ (a.next reader).files.contains q = true := by
  have hmerged := (Pass.get?_store_resolved hr).mp hn
  refine Store.mergeNodes_induction (P := fun n => n.resolved = true →
    ∃ q, n.node.filePath? = some q ∧ (a.next reader).files.contains q = true)
    (a.batch reader).nodes (fun n hn hr => ?_) (fun m hm hid old _ _ => ?_) n hmerged hr
  · obtain ⟨hold, hof⟩ := (Pass.get?_retired_resolved hr).mp hn
    obtain ⟨q, hq, hc⟩ := h.declared hold ht hr
    rw [hq] at hof
    exact ⟨q, hq, Pass.contains_of_unchanged (Pass.unchanged_of_kept hc hof)⟩
  · obtain ⟨f, hf, hof⟩ := Pass.node_cases hm
    have hkind : m.kind ≠ .module := fun hk => ht (by rw [← hid, ← hk]; exact hof.tagged)
    exact ⟨f.path, Store.filePath?_mergeNodeInto hof hkind old,
      Pass.contains_next_of_mem (Pass.path_of_mem hp hf).1⟩

omit hp in
/-- Where no file is left, there is nothing to import, and all that was known is retired. -/
theorem bare_store (he : (a.next reader).files.isEmpty = true) : (a.store reader s).Bare := by
  rw [Pass.next, a.follows.fingerprints, SortedMap.isEmpty_iff] at he
  have hextract : a.plan.changes.toExtract = [] := by
    refine List.eq_nil_iff_forall_not_mem.mpr fun q hq => ?_
    obtain ⟨f, hf⟩ := SortedMap.contains_iff.mp (Pass.contains_of_mem hq)
    rw [he q] at hf
    cases hf
  have hunchanged : a.plan.changes.unchanged = [] := by
    refine List.eq_nil_iff_forall_not_mem.mpr fun q hq => ?_
    obtain ⟨_, f, _, hf, _⟩ := a.follows.unchanged q hq
    rw [he q] at hf
    cases hf
  have hfacts : a.facts reader = [] := by
    rw [Pass.facts, Project.files_extract, hextract]
    rfl
  have hstore : a.store reader s = a.retired s := by
    rw [Pass.store, Pass.imported, Pass.batch, hfacts]
    rfl
  rw [hstore]
  exact h.bare_retired hunchanged

/-- A pass leaves what its state holds. -/
theorem store : Held (a.next reader) (a.store reader s) where
  keyed := h.orderly.store.keyed
  proper := h.orderly.store.proper
  filed := h.filed_store hp
  package := h.package_store
  declared := h.declared_store hp
  bare := h.bare_store
  symbols := h.orderly.store.symbols

end Store

end Held

/-- What holds of nothing, and is kept by every pass on trees without backslashes, holds after every
run of them, together with `Held`. -/
theorem Run.induction {p : Project} {reader : Reader} {P : List Turn → SyncState → Store → Prop}
    (fresh : ∀ ts, P ts .fresh .empty)
    (pass : ∀ {t ts a s}, t.pass? p = some a → p.Plain a.files → Held a.state s →
      P ts a.state s → P (t :: ts) (a.next reader) (a.store reader s))
    (clean : ∀ {t ts state s}, t.pass? p = none → P ts state s → P (t :: ts) state s)
    {ts : List Turn} {w : World Memory} (h : Run p reader ts w)
    (hp : ∀ t ∈ ts, p.Plain (t.seen p)) :
    Held (p.state w.files) w.backend.store ∧ P ts (p.state w.files) w.backend.store := by
  refine (Run.orderly_induction
    (P := fun ts state s => (∀ t ∈ ts, p.Plain (t.seen p)) → Held state s ∧ P ts state s)
    (fun ts _ => ⟨.fresh, fresh ts⟩) (fun {t ts a s} ha _ ih hp => ?_)
    (fun {t ts state s} hnone ih hp => ?_) h).2 hp
  · have hplain : p.Plain a.files := Turn.files_of_pass? ha ▸ hp t List.mem_cons_self
    obtain ⟨hheld, hP⟩ := ih fun u hu => hp u (List.mem_cons_of_mem _ hu)
    exact ⟨hheld.store hplain, pass ha hplain hheld hP⟩
  · obtain ⟨hheld, hP⟩ := ih fun u hu => hp u (List.mem_cons_of_mem _ hu)
    exact ⟨hheld, clean hnone hP⟩

/-! ### Small runs

Runs on fixed trees, which show that what is said of runs is not said of none, and where it ends. -/

namespace Trial

/-- A project at `/p` with the standard settings. -/
def project : Project := ⟨"/p", {}, {}, {}⟩

/-- A statement that imports. -/
def importStatement (module : String) : Tree :=
  branch "import_statement" [("source", 1)] [token "import", leaf "string" module]

/-- A statement that exports a function `f`. -/
def exportStatement : Tree :=
  branch "export_statement" [("declaration", 1)] [token "export",
    branch "function_declaration" [("name", 1), ("parameters", 2), ("body", 3)] [token "function",
      leaf "identifier" "f", branch "formal_parameters" [] [token "(", token ")"],
      branch "statement_block" [] [token "\x7b", token "\x7d"]]]

/-- The text that imports what is beside the directory of its file. -/
def importUp : Sample :=
  ⟨.typeScript, "import '../up'", branch "program" [] [importStatement "'../up'"]⟩

/-- The text that imports a package. -/
def importPad : Sample :=
  ⟨.typeScript, "import 'left-pad'", branch "program" [] [importStatement "'left-pad'"]⟩

/-- The text that exports a function. -/
def exportFunction : Sample :=
  ⟨.typeScript, "export function f ( ) \x7b \x7d", branch "program" [] [exportStatement]⟩

/-- Reads three texts, and finds nothing in any other. -/
def reader : Reader :=
  Sample.reader (leaf "program") [importUp, importPad, exportFunction]

example : ∀ s ∈ [importUp, importPad, exportFunction], s.tree.text = s.text := by decide +kernel

/-- The directory `/p` and what is below it. -/
def tree (entries : List (List String × Entry)) : FileSystem where
  entries := .ofList ((["p"], .directory) :: entries)
  cwd := []

/-- A source of a text. -/
def written (s : Sample) : Entry := .file (.bytes (Ident.bytes s.text)) 0

/-- A source that imports. -/
def source : Entry := written importUp

/-- The entries of a state that was saved. -/
def saved (state : SyncState) : List (List String × Entry) :=
  [(["p", ".codegraph"], .directory),
   (["p", ".codegraph", "sync-state.json"], .file (.bytes (Ident.bytes state.text)) 0)]

/-- A sync at time 0. -/
def sync (fs : FileSystem) (h : fs.Sound) (force : Bool) : Turn := ⟨fs, 0, .sync force, h, by decide⟩

/-- The pass of a first sync. -/
def opening (p : Project) (t : Turn) : Pass p :=
  t.passFrom (SyncPlan.make_fresh p.sync (p.scan t.files) t.now false)

theorem run_opening {p : Project} {read : Reader} {t : Turn} (hact : t.act = .sync false)
    (hnone : t.files.isFile p.statePath = false)
    (hsave : (((opening p t).next read).save t.files p.statePath t.now).2.toOption = some ()) :
    t.pass? p = some (opening p t) ∧
    ∃ fs, p.state fs = (opening p t).next read ∧ Run p read [t]
      ⟨fs, { Memory.empty with store := (opening p t).store read .empty }⟩ := by
  have hstate : p.state t.files = .fresh := SyncState.load_of_not_isFile hnone
  obtain ⟨fs, hstate', hleads⟩ := Turn.leads_sync hact hstate
    (SyncPlan.make_fresh p.sync (p.scan t.files) t.now false) hsave .empty
  exact ⟨Turn.pass?_sync hact hstate _, fs, hstate', .turn (.start hnone) rfl hleads⟩

/-- The pass of a full sync from a state. -/
def forcing (p : Project) (state : SyncState) (t : Turn) : Pass p :=
  t.passFrom (SyncPlan.make_forced p.sync state (p.scan t.files) t.now)

theorem leads_forcing {p : Project} {state : SyncState} {t : Turn} (hact : t.act = .sync true)
    (hstate : p.state t.files = state)
    (hsave : (((forcing p state t).next reader).save t.files p.statePath t.now).2.toOption = some ())
    (m : Memory) : ∃ fs, t.Leads p reader m
      ⟨fs, { m with store := (forcing p state t).store reader m.store }⟩ := by
  obtain ⟨fs, _, hleads⟩ := Turn.leads_sync hact hstate
    (SyncPlan.make_forced p.sync state (p.scan t.files) t.now) hsave m
  exact ⟨fs, hleads⟩

/-- A sync soon after another goes by the changes. -/
theorem make_soon {state : SyncState} (hknown : state.isEmpty = false) (hl : state.lastSync = 0)
    (current : FingerprintMap) :
    SyncPlan.make project.sync state current 0 false = some (.ofChanges state current) := by
  have hstale : SyncPlan.isStale project.sync state 0 = some false := by
    rw [SyncPlan.isStale, hknown, hl]
    decide
  rw [SyncPlan.make, hstale]
  rfl

/-- The source `src/a.ts`. -/
def importer : List (List String × Entry) :=
  [(["p", "src"], .directory), (["p", "src", "a.ts"], source)]

/-- The sync of the source. -/
def first : Turn := sync (tree importer) (by decide +kernel) false

/-- The pass of the sync of the source. -/
def before : Pass project := opening project first

theorem run_first : first.pass? project = some before ∧
    ∃ fs, project.state fs = before.next reader ∧
      Run project reader [first] ⟨fs, { Memory.empty with store := before.store reader .empty }⟩ :=
  run_opening rfl (by decide +kernel) (by decide +kernel)

/-- The tree afterwards, with one more source. -/
def grown (name : String) (e : Entry) : FileSystem :=
  tree (importer ++ (["p", name], e) :: saved (before.next reader))

theorem make_grown (name : String) (e : Entry) :
    SyncPlan.make project.sync (before.next reader) (project.scan (grown name e)) 0 false =
      some (.ofChanges (before.next reader) (project.scan (grown name e))) :=
  make_soon (by decide +kernel) rfl _

/-- The sync of the tree with a second source that imports. -/
def second : Turn := sync (grown "b.ts" source) (by decide +kernel) false

/-- The pass of the sync of the tree with both sources. -/
def after : Pass project := second.passFrom (make_grown "b.ts" source)

theorem state_second : project.state second.files = before.next reader :=
  SyncState.load_of_read (before.inRange_next reader) rfl rfl

theorem pass?_second : second.pass? project = some after :=
  Turn.pass?_sync rfl state_second (make_grown "b.ts" source)

theorem leads_second (m : Memory) : ∃ fs, project.state fs = after.next reader ∧
    second.Leads project reader m ⟨fs, { m with store := after.store reader m.store }⟩ :=
  Turn.leads_sync rfl state_second (make_grown "b.ts" source) (by decide +kernel) m

theorem plain_second : ∀ u ∈ [second, first], project.Plain (u.seen project) := by decide +kernel

/-- The full sync of the tree with both sources. -/
def full : Turn := { second with act := .sync true }

/-- The pass of the full sync of the tree with both sources. -/
def rebuilt : Pass project := forcing project (before.next reader) full

theorem facts_rebuilt : rebuilt.facts reader =
    ["b.ts", "src/a.ts"].filterMap (project.factsOf reader (grown "b.ts" source)) := by
  have hfiles : rebuilt.plan.changes.toExtract = ["b.ts", "src/a.ts"] := by decide +kernel
  rw [Pass.facts, Project.files_extract, hfiles]
  rfl

theorem leads_full (m : Memory) : ∃ fs, full.Leads project reader m
    ⟨fs, { m with store := rebuilt.store reader m.store }⟩ :=
  leads_forcing (t := full) rfl state_second (by decide +kernel) m

/-- A source in a directory that is passed over. -/
def hidden : List (List String × Entry) :=
  [(["p", "node_modules"], .directory), (["p", "node_modules", "x.ts"], source)]

/-- An empty source whose name reads as the path of that one. -/
def mask : List String × Entry := (["p", ".\\node_modules\\x.ts"], blank)

/-- The sync of a tree with both. -/
def misled : Turn := sync (tree (mask :: hidden)) (by decide +kernel) false

/-- The pass of the sync of a tree with both. -/
def misread : Pass project := opening project misled

theorem run_misled : misled.pass? project = some misread ∧
    ∃ fs, project.state fs = misread.next reader ∧
      Run project reader [misled]
        ⟨fs, { Memory.empty with store := misread.store reader .empty }⟩ :=
  run_opening rfl (by decide +kernel) (by decide +kernel)

theorem make_misread (fs : FileSystem) :
    SyncPlan.make project.sync (misread.next reader) (project.scan fs) 0 false =
      some (.ofChanges (misread.next reader) (project.scan fs)) :=
  make_soon (by decide +kernel) rfl _

end Trial

end CodeAtlas
