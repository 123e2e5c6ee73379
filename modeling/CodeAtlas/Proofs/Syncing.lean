/-
# What a run leaves

A pass is a run under way: a sound tree, the time, the state of the last run, and a plan that goes from
that state to the files of the tree. On any backend a run fails there and leaves the files alone, or it
imports what the pass builds and ends as saving the next state does (`Project.runOn_cases`). On a graph
in memory only saving can fail, and a run that succeeds leaves the graph of the pass (`Pass.store`) and
its state (`Pass.next`); no other effect of it is looked at here.

Where no path has a backslash, a pass reads each of its files under the path it was scanned by, so
that what it knows of a path is what was known of it, if it is unchanged, or else what its file declares
now (`Pass.get?_symbols`), and what it builds for a path comes from one file (`Pass.built_eq`).

Key definitions: `Pass`, `Pass.facts`, `Pass.symbols`, `Pass.store`, `Pass.next`, `Pass.built`,
`Project.EndsAs`.
Key theorems: `Project.runOn_cases`, `Project.runOn_memory`, `Project.syncOn_cases`,
`Project.syncNow_ok`, `Project.reset_ok`, `Project.clean_memory`, `Pass.get?_symbols`, `Pass.built_eq`,
`Pass.exists_imported`.
-/
import CodeAtlas.Proofs.Building
import CodeAtlas.Proofs.Plans
import CodeAtlas.Proofs.Reducing
import CodeAtlas.Proofs.Scan
import CodeAtlas.Proofs.Storing

namespace CodeAtlas

/-- A run under way. -/
structure Pass (p : Project) where
  files : FileSystem
  now : Int
  state : SyncState
  plan : SyncPlan
  sound : files.Sound
  signed : Word.isSigned now = true
  follows : plan.Follows state (p.scan files)

namespace Pass

variable {p : Project} (reader : Reader) (a : Pass p)

/-- What is known of the files that the plan reads. -/
def facts : List FileFacts := (p.extract reader a.files a.plan).files

/-- What all files declare. -/
def symbols : SymbolMap := Project.symbolsOf a.plan a.state (a.facts reader)

/-- The graph of the files that the plan reads. -/
def batch : Batch := .ofFilesWith a.now (.ofMap (a.symbols reader)) (a.facts reader)

/-- What is imported of the relationships. -/
def imported : List Relationship := (Reduction.of (a.batch reader).relationships).relationships

/-- The store without what was extracted from the files to retire. -/
def retired (s : Store) : Store := if a.plan.retire.isEmpty then s else s.retire a.plan.retire

/-- The store after the run. -/
def store (s : Store) : Store :=
  (a.retired s).importBatch (a.batch reader).nodes (a.imported reader)

/-- The state after the run. -/
def next : SyncState :=
  ⟨a.now, a.plan.fingerprints, a.symbols reader, SyncState.currentVersion⟩

/-- The relationships that are built for a path. -/
def built (path : String) : List Relationship :=
  ((a.facts reader).filter fun f => f.path = path).flatMap
    (Build.fileRelationships a.now (.ofMap (a.symbols reader)))

/-- Reading the state that a run leaves gives it back. -/
theorem inRange_next : (a.next reader).InRange where
  lastSync := a.signed
  files h := by
    rw [next, a.follows.fingerprints] at h
    exact Project.inRange_of_scan a.sound h

end Pass

/-! ### Operations that succeed -/

namespace Operation

variable {σ α β : Type} {w w' : World σ}

/-- Two steps, one after the other: the first fails, or it succeeds and the second says how they end. -/
theorem bind_cases {x : Operation σ α} {f : α → Operation σ β} {result : Except Halt β}
    (h : (x >>= f) w = (result, w')) : (∃ e, x w = (.error e, w') ∧ result = .error e) ∨
      ∃ a v, x w = (.ok a, v) ∧ f a v = (result, w') := by
  have h : Operation.bind x f w = (result, w') := h
  unfold Operation.bind at h
  split at h
  · rename_i a v hx
    exact .inr ⟨a, v, hx, h⟩
  · rename_i e v hx
    cases h
    exact .inl ⟨e, hx, rfl⟩

/-- Two steps that succeed, one after the other. -/
theorem bind_ok {x : Operation σ α} {f : α → Operation σ β} {b : β}
    (h : (x >>= f) w = (.ok b, w')) : ∃ a v, x w = (.ok a, v) ∧ f a v = (.ok b, w') := by
  rcases bind_cases h with ⟨_, _, he⟩ | h
  · cases he
  · exact h

theorem exists_ok {x : Operation σ α} (h : (x w).1.toOption.isSome = true) :
    ∃ a w', x w = (.ok a, w') := by
  cases hx : x w with
  | mk result w' =>
    cases result with
    | error e =>
      rw [hx] at h
      cases h
    | ok a => exact ⟨a, w', rfl⟩

theorem bind_eq {x : Operation σ α} {f : α → Operation σ β} {a : α} (h : x w = (.ok a, w')) :
    (x >>= f) w = f a w' := by
  show Operation.bind x f w = f a w'
  rw [Operation.bind, h]

theorem onBackend_ok {step : String} {act : Action σ α} {a : α}
    (h : onBackend step act w = (.ok a, w')) :
    ∃ s, act w.backend = (.ok a, s) ∧ w' = { w with backend := s } := by
  unfold onBackend at h
  split at h
  · rename_i r s hs
    cases h
    exact ⟨s, hs, rfl⟩
  · cases h

/-- A step of the backend succeeds or fails, and leaves the files alone. -/
theorem onBackend_cases {step : String} {act : Action σ α} {result : Except Halt α}
    (h : onBackend step act w = (result, w')) : w'.files = w.files ∧
      ((∃ a, act w.backend = (.ok a, w'.backend) ∧ result = .ok a) ∨
        ∃ f, result = .error (.failure f)) := by
  unfold onBackend at h
  split at h
  · rename_i a s hs
    cases h
    exact ⟨rfl, .inl ⟨a, hs, rfl⟩⟩
  · cases h
    exact ⟨rfl, .inr ⟨_, rfl⟩⟩

/-- A step of the file system ends as it does there, and leaves the backend alone. -/
theorem onFiles_cases {step : String} {act : FileSystem → FileSystem × Except FileError α}
    {result : Except Halt α} (h : onFiles step act w = (result, w')) : w'.backend = w.backend ∧
      ∃ ended, act w.files = (w'.files, ended) ∧ ((∃ a, ended = .ok a ∧ result = .ok a) ∨
        ∃ e, ended = .error e ∧ result = .error (.failure ⟨[step], .io e.message⟩)) := by
  unfold onFiles at h
  split at h
  · rename_i fs a hs
    cases h
    exact ⟨rfl, _, hs, .inl ⟨a, rfl, rfl⟩⟩
  · rename_i fs e hs
    cases h
    exact ⟨rfl, _, hs, .inr ⟨e, rfl, rfl⟩⟩

theorem onFiles_ok {step : String} {act : FileSystem → FileSystem × Except FileError α} {a : α}
    (h : onFiles step act w = (.ok a, w')) :
    ∃ fs, act w.files = (fs, .ok a) ∧ w' = { w with files := fs } := by
  unfold onFiles at h
  split at h
  · rename_i fs r hs
    cases h
    exact ⟨fs, hs, rfl⟩
  · cases h

end Operation

namespace Project

variable {p : Project} {reader : Reader} {r : SyncReport} {w w' : World Memory}

/-- Retiring files succeeds or fails, and leaves the files alone. -/
theorem retire_cases {σ : Type} {b : Backend σ} {paths : List String} {w w' : World σ}
    {result : Except Halt RetireSummary} (h : retire b paths w = (result, w')) :
    w'.files = w.files ∧ ((∃ summary, result = .ok summary) ∨ ∃ f, result = .error (.failure f)) := by
  unfold retire at h
  split at h
  · cases h
    exact ⟨rfl, .inl ⟨_, rfl⟩⟩
  · obtain ⟨hfiles, ⟨a, _, rfl⟩ | ⟨f, rfl⟩⟩ := Operation.onBackend_cases h
    · exact ⟨hfiles, .inl ⟨a, rfl⟩⟩
    · exact ⟨hfiles, .inr ⟨f, rfl⟩⟩

/-- A run ends as saving the state did. -/
def EndsAs (saved : Except FileError Unit) (result : Except Halt SyncReport) : Prop :=
  match saved with
  | .ok () => ∃ r, result = .ok r
  | .error e => result = .error (.failure ⟨["Failed to save sync state"], .io e.message⟩)

/-- How carrying out a plan ends on any backend: it fails there and leaves the files alone; or else it
retires and imports what the pass says, and ends as saving the next state does. -/
theorem runOn_cases {σ : Type} {b : Backend σ} {disk : Medium} {w w' : World σ} {a : Pass p}
    {result : Except Halt SyncReport} (hw : w.files = a.files)
    (h : p.runOn disk b reader a.now a.state a.plan w = (result, w')) :
    (w'.files = a.files ∧ ∃ f, result = .error (.failure f)) ∨
    ∃ summary v written saved, retire b a.plan.retire w = (.ok summary, v) ∧
      b.importBatch (a.batch reader).nodes (a.imported reader) v.backend =
        (.ok written, w'.backend) ∧
      (a.next reader).saveOn disk a.files p.statePath a.now = (w'.files, saved) ∧
      EndsAs saved result := by
  rcases Operation.bind_cases h with ⟨e, hretire, rfl⟩ | ⟨summary, v, hretire, h⟩
  · obtain ⟨hfiles, ⟨_, hok⟩ | ⟨f, hf⟩⟩ := retire_cases hretire
    · cases hok
    · cases hf
      exact .inl ⟨hfiles.trans hw, f, rfl⟩
  have hv : v.files = a.files := (retire_cases hretire).1.trans hw
  obtain ⟨_, hworld, _⟩ | ⟨_, _, hworld, h⟩ := Operation.bind_cases h
  · cases hworld
  cases hworld
  rw [hv] at h
  rcases Operation.bind_cases h with ⟨e, himport, rfl⟩ | ⟨written, u, himport, h⟩
  · obtain ⟨hfiles, ⟨_, _, hok⟩ | ⟨f, hf⟩⟩ := Operation.onBackend_cases himport
    · cases hok
    · cases hf
      exact .inl ⟨hfiles.trans hv, f, rfl⟩
  obtain ⟨hu, ⟨_, himported, hok⟩ | ⟨_, hf⟩⟩ := Operation.onBackend_cases himport
  · cases hok
    refine .inr ⟨summary, v, written, ?_⟩
    rcases Operation.bind_cases h with ⟨e, hsave, rfl⟩ | ⟨_, x, hsave, h⟩
    · obtain ⟨hbackend, saved, hsaved, ⟨_, _, hok⟩ | ⟨e, he, hf⟩⟩ := Operation.onFiles_cases hsave
      · cases hok
      · cases hf
        rw [hu, hv] at hsaved
        exact ⟨saved, hretire, hbackend ▸ himported, hsaved, he ▸ rfl⟩
    · obtain ⟨hbackend, saved, hsaved, ⟨_, hok, _⟩ | ⟨_, _, hf⟩⟩ := Operation.onFiles_cases hsave
      · cases h
        rw [hu, hv] at hsaved
        exact ⟨saved, hretire, hbackend ▸ himported, hsaved, hok ▸ ⟨_, rfl⟩⟩
      · cases hf
  · cases hf

/-- On a graph in memory, carrying out a plan leaves the graph of the pass, and ends as saving the next
state does. -/
theorem runOn_memory {disk : Medium} (a : Pass p) (m : Memory) {fs : FileSystem}
    {saved : Except FileError Unit}
    (h : (a.next reader).saveOn disk a.files p.statePath a.now = (fs, saved)) :
    ∃ result, EndsAs saved result ∧
      p.runOn disk Memory.backend reader a.now a.state a.plan ⟨a.files, m⟩ =
        (result, ⟨fs, { m with store := a.store reader m.store }⟩) := by
  have hretire : ∃ summary, retire Memory.backend a.plan.retire ⟨a.files, m⟩ =
      (.ok summary, (⟨a.files, { m with store := a.retired m.store }⟩ : World Memory)) := by
    unfold retire Pass.retired
    split
    · exact ⟨.nothing, rfl⟩
    · exact ⟨_, rfl⟩
  obtain ⟨summary, hretire⟩ := hretire
  have h : SyncState.saveOn disk ⟨a.now, a.plan.fingerprints,
      symbolsOf a.plan a.state (p.extract reader a.files a.plan).files, SyncState.currentVersion⟩
      a.files p.statePath a.now = (fs, saved) := h
  unfold runOn
  rw [Operation.bind_eq hretire]
  simp only [bind, Operation.bind, Operation.world, Operation.onBackend, Memory.backend,
    Operation.onFiles, h]
  cases saved with
  | ok _ => exact ⟨_, ⟨_, rfl⟩, rfl⟩
  | error e => exact ⟨_, rfl, rfl⟩

/-- What carrying out a plan leaves. -/
theorem runOn_ok {disk : Medium} {a : Pass p} (hw : w.files = a.files)
    (h : p.runOn disk Memory.backend reader a.now a.state a.plan w = (.ok r, w')) :
    w'.backend.store = a.store reader w.backend.store ∧ p.state w'.files = a.next reader := by
  obtain ⟨_, m⟩ := w
  subst hw
  cases hsave : (a.next reader).saveOn disk a.files p.statePath a.now with
  | mk fs saved =>
    obtain ⟨result, hend, hrun⟩ := runOn_memory a m hsave
    rw [hrun] at h
    cases h
    cases saved with
    | error e => cases hend
    | ok _ => exact ⟨rfl, SyncState.load_of_saveOn (a.inRange_next reader) rfl hsave⟩

/-- The pass of a sync on a tree, if it has a plan. -/
def pass? (p : Project) {fs : FileSystem} {now : Int} (hs : fs.Sound)
    (hnow : Word.isSigned now = true) (force : Bool) : Option (Pass p) :=
  (p.plan? fs now force).attach.map fun plan =>
    ⟨fs, now, p.state fs, plan.1, hs, hnow, SyncPlan.follows_of_make plan.2⟩

theorem of_pass? {fs : FileSystem} {now : Int} {hs : fs.Sound} {hnow : Word.isSigned now = true}
    {force : Bool} {a : Pass p} (h : p.pass? hs hnow force = some a) :
    a.files = fs ∧ a.now = now ∧ a.state = p.state fs ∧ p.plan? fs now force = some a.plan := by
  obtain ⟨plan, _, rfl⟩ := Option.map_eq_some_iff.mp h
  exact ⟨rfl, rfl, rfl, plan.2⟩

/-- A sync carries out the plan of its pass, or else it has none. -/
theorem syncOn_cases {σ : Type} {b : Backend σ} {disk : Medium} {w w' : World σ} {now : Int}
    {force : Bool} {result : Except Halt SyncReport} (hs : w.files.Sound)
    (hnow : Word.isSigned now = true) (h : p.syncOn disk b reader now force w = (result, w')) :
    (result = .error .overflow ∧ w' = w) ∨
    ∃ a, p.pass? hs hnow force = some a ∧
      p.runOn disk b reader a.now a.state a.plan w = (result, w') := by
  rcases Operation.bind_cases h with ⟨_, hworld, _⟩ | ⟨_, _, hworld, h⟩
  · cases hworld
  cases hworld
  cases hplan : p.plan? w.files now force with
  | none =>
    rw [hplan] at h
    cases h
    exact .inl ⟨rfl, rfl⟩
  | some plan =>
    rw [hplan] at h
    let a : Pass p :=
      ⟨w.files, now, p.state w.files, plan, hs, hnow, SyncPlan.follows_of_make hplan⟩
    have ha : p.pass? hs hnow force = some a :=
      Option.map_eq_some_iff.mpr ⟨⟨plan, hplan⟩, Option.attach_eq_some_iff.mpr hplan, rfl⟩
    exact .inr ⟨a, ha, h⟩

/-- What a sync that succeeds leaves: the graph and the state of its pass. -/
theorem syncNow_ok {now : Int} {force : Bool} (hs : w.files.Sound)
    (hnow : Word.isSigned now = true)
    (h : p.syncNow Memory.backend reader now force w = (.ok r, w')) :
    ∃ a, p.pass? hs hnow force = some a ∧
      w'.backend.store = a.store reader w.backend.store ∧ p.state w'.files = a.next reader := by
  rcases syncOn_cases hs hnow h with ⟨hhalt, _⟩ | ⟨a, ha, hrun⟩
  · cases hhalt
  · exact ⟨a, ha, runOn_ok (of_pass? ha).1.symm hrun⟩

/-- The tree without the state file. -/
def cleared (p : Project) (fs : FileSystem) : FileSystem :=
  (SyncState.clear fs p.statePath).toOption.getD fs

/-- What a reset that succeeds leaves is what a sync leaves that starts from nothing. -/
theorem reset_ok {now : Int} (h : p.reset Memory.backend reader now w = (.ok r, w')) :
    SyncState.clear w.files p.statePath = .ok (p.cleared w.files) ∧
    p.syncNow Memory.backend reader now true
      ⟨p.cleared w.files, { w.backend with store := .empty }⟩ = (.ok r, w') := by
  obtain ⟨_, v, hclear, h⟩ := Operation.bind_ok h
  obtain ⟨s, hs, rfl⟩ := Operation.onBackend_ok hclear
  cases hs
  obtain ⟨_, v', hfiles, h⟩ := Operation.bind_ok h
  obtain ⟨fs, hfs, rfl⟩ := Operation.onFiles_ok hfiles
  cases hc : SyncState.clear w.files p.statePath with
  | error e =>
    simp only [hc] at hfs
    cases hfs
  | ok fs' =>
    obtain rfl : fs' = fs := by simpa only [hc, Prod.mk.injEq, and_true] using hfs
    have : p.cleared w.files = fs' := by
      rw [cleared, hc]
      rfl
    rw [this]
    exact ⟨rfl, h⟩

/-- Cleaning a graph in memory removes the ids that reducing its relationships leaves out. -/
theorem clean_memory (fs : FileSystem) (m : Memory) {ids : List String}
    (hids : (Reduction.of m.store.relationships.values).removedIds m.store.relationships.values = ids) :
    clean Memory.backend ⟨fs, m⟩ =
      (.ok
        { before := m.store.relationships.values.length
          after := (Reduction.of m.store.relationships.values).relationships.length
          removed := Memory.countPresent m.store.relationships ids
          stats := (Reduction.of m.store.relationships.values).stats
          quality := (Reduction.of m.store.relationships.values).quality },
        ⟨fs, { m with store := m.store.remove ids }⟩) := by
  have hfetch : Operation.onBackend "Failed to fetch relationships" Memory.backend.relationships
      (⟨fs, m⟩ : World Memory) = (.ok m.store.relationships.values, ⟨fs, m⟩) := rfl
  unfold clean
  rw [Operation.bind_eq hfetch]
  simp only [hids]
  cases ids with
  | nil => rfl
  | cons id ids => rfl

/-- Cleaning a graph of proper relationships succeeds and changes nothing. -/
theorem clean_eq (hp : ∀ c ∈ w.backend.store.relationships.values, c.Proper) :
    clean Memory.backend w =
      (.ok
        { before := w.backend.store.relationships.values.length
          after := (Reduction.of w.backend.store.relationships.values).relationships.length
          removed := 0
          stats := (Reduction.of w.backend.store.relationships.values).stats
          quality := (Reduction.of w.backend.store.relationships.values).quality }, w) :=
  clean_memory w.files w.backend (Reduction.removedIds_eq_nil hp)

end Project

/-! ### What a pass reads and builds -/

theorem filter_filterMap_of_nodup {α β : Type} [DecidableEq α] {g : α → Option β} {key : β → α}
    (q : α) : ∀ {l : List α}, l.Nodup → (∀ x ∈ l, ∀ b, g x = some b → key b = x) →
    (l.filterMap g).filter (fun b => key b = q) = if q ∈ l then (g q).toList else []
  | [], _, _ => rfl
  | x :: l, hn, hk => by
    obtain ⟨hx, hn⟩ := List.nodup_cons.mp hn
    have ih := filter_filterMap_of_nodup q hn fun y hy => hk y (List.mem_cons_of_mem _ hy)
    by_cases hq : q = x
    · subst hq
      rw [if_neg hx] at ih
      rw [if_pos List.mem_cons_self]
      cases hg : g q with
      | none => rw [List.filterMap_cons_none hg, ih]; rfl
      | some b =>
        have hb : key b = q := hk q List.mem_cons_self b hg
        rw [List.filterMap_cons_some hg, List.filter_cons_of_pos (by simpa using hb), ih]
        rfl
    · have hmem : q ∈ x :: l ↔ q ∈ l := by simp [hq]
      simp only [hmem]
      rw [← ih]
      cases hg : g x with
      | none => rw [List.filterMap_cons_none hg]
      | some b =>
        rw [List.filterMap_cons_some hg, List.filter_cons_of_neg]
        simpa [hk x List.mem_cons_self b hg] using Ne.symm hq

namespace Pass

variable {p : Project} {reader : Reader} {a : Pass p} {q : String} {f : FileFacts}
  {r : Relationship}

theorem mem_facts : f ∈ a.facts reader ↔
    ∃ q ∈ a.plan.changes.toExtract, p.factsOf reader a.files q = some f := by
  rw [facts, Project.files_extract, List.mem_filterMap]

/-- A path that is read is one of the scan. -/
theorem contains_of_mem (h : q ∈ a.plan.changes.toExtract) : (p.scan a.files).contains q = true :=
  ((a.follows.extract q).mp h).1

section Plain

variable (hp : p.Plain a.files)
include hp

theorem path_of_mem (h : f ∈ a.facts reader) :
    f.path ∈ a.plan.changes.toExtract ∧ p.factsOf reader a.files f.path = some f := by
  obtain ⟨q, hq, hf⟩ := mem_facts.mp h
  have := Project.path_of_factsOf a.sound hp (contains_of_mem hq) hf
  exact this ▸ ⟨hq, hf⟩

/-- For each path one file is read. -/
theorem facts_filter (q : String) : (a.facts reader).filter (fun f => f.path = q) =
    if q ∈ a.plan.changes.toExtract then (p.factsOf reader a.files q).toList else [] := by
  rw [facts, Project.files_extract]
  exact filter_filterMap_of_nodup q a.follows.nodup fun x hx b hb =>
    Project.path_of_factsOf a.sound hp (contains_of_mem hx) hb

/-- What is known of a path: what was, if it is unchanged, or else what its file declares. -/
theorem get?_symbols (q : String) : (a.symbols reader).get? q =
    if q ∈ a.plan.changes.unchanged then a.state.symbols.get? q
    else if (p.scan a.files).contains q then (p.factsOf reader a.files q).map FileSymbols.ofFacts
    else none := by
  have hknown : (if a.plan.full then SortedMap.empty else
      a.state.symbols.filter fun path _ => a.plan.changes.unchanged.contains path).get? q =
      if q ∈ a.plan.changes.unchanged then a.state.symbols.get? q else none := by
    by_cases hu : q ∈ a.plan.changes.unchanged
    · rw [if_pos hu, if_neg (by simp [(a.follows.unchanged q hu).1]), SortedMap.get?_filter]
      cases a.state.symbols.get? q <;> simp [hu]
    · rw [if_neg hu]
      split
      · rfl
      · rw [SortedMap.get?_filter]
        cases a.state.symbols.get? q <;> simp [hu]
  show (SortedMap.writes FileFacts.path FileSymbols.ofFacts _ (a.facts reader)).get? q = _
  have hextract := a.follows.extract q
  have hnone : (q ∈ a.plan.changes.toExtract → p.factsOf reader a.files q = none) →
      ∀ f ∈ a.facts reader, f.path ≠ q := by
    rintro h f hf rfl
    obtain ⟨hmem, hfacts⟩ := path_of_mem hp hf
    rw [h hmem] at hfacts
    cases hfacts
  by_cases hu : q ∈ a.plan.changes.unchanged
  · rw [SortedMap.get?_writes_of_not_mem (hnone fun h => absurd hu (hextract.mp h).2), hknown,
      if_pos hu, if_pos hu]
  · rw [if_neg hu]
    rw [if_neg hu] at hknown
    by_cases hc : (p.scan a.files).contains q = true
    · rw [if_pos hc]
      cases hf : p.factsOf reader a.files q with
      | none =>
        rw [SortedMap.get?_writes_of_not_mem (hnone fun _ => hf), hknown]
        rfl
      | some f =>
        have hfacts : ∀ g ∈ a.facts reader, g.path = q → g = f := by
          rintro g hg rfl
          rw [(path_of_mem hp hg).2] at hf
          exact Option.some.inj hf
        have hmem : f ∈ a.facts reader := mem_facts.mpr ⟨q, hextract.mpr ⟨hc, hu⟩, hf⟩
        exact SortedMap.get?_writes_of_mem hmem (Project.path_of_factsOf a.sound hp hc hf)
          fun g hg hgq => by rw [hfacts g hg hgq]
    · rw [if_neg hc, SortedMap.get?_writes_of_not_mem
        (hnone fun h => absurd (hextract.mp h).1 hc), hknown]

/-- What is built for a path that is read is built from its file. -/
theorem built_eq (q : String) : a.built reader q =
    if q ∈ a.plan.changes.toExtract then (p.factsOf reader a.files q).toList.flatMap
      (Build.fileRelationships a.now (.ofMap (a.symbols reader))) else [] := by
  rw [built, facts_filter hp]
  split <;> rfl

theorem mem_toExtract_of_built (h : r ∈ a.built reader q) : q ∈ a.plan.changes.toExtract := by
  rw [built_eq hp] at h
  split at h
  · assumption
  · cases h

end Plain

/-- What is built is built for some path. -/
theorem mem_batch : r ∈ (a.batch reader).relationships ↔ ∃ q, r ∈ a.built reader q := by
  have hb : r ∈ (a.batch reader).relationships ↔ ∃ f ∈ a.facts reader,
      r ∈ Build.fileRelationships a.now (.ofMap (a.symbols reader)) f := List.mem_flatMap
  simp only [hb, built, List.mem_flatMap, List.mem_filter, decide_eq_true_eq]
  constructor
  · rintro ⟨f, hf, hr⟩
    exact ⟨f.path, f, ⟨hf, rfl⟩, hr⟩
  · rintro ⟨q, f, ⟨hf, _⟩, hr⟩
    exact ⟨f, hf, hr⟩

theorem isTagged_symbols (hm : a.state.symbols.IsTagged) : (a.symbols reader).IsTagged := by
  intro path s h
  have h : (SortedMap.writes FileFacts.path FileSymbols.ofFacts _ (a.facts reader)).get? path =
    some s := h
  rw [SortedMap.get?_writes, Option.or_eq_some_iff] at h
  rcases h with h | ⟨_, h⟩
  · obtain ⟨f, _, rfl⟩ := Option.map_eq_some_iff.mp h
    exact FileSymbols.isTagged_ofFacts f
  · split at h
    · cases h
    · rw [SortedMap.get?_filter, Option.filter_eq_some_iff] at h
      exact hm h.1

section Tagged

variable (hm : a.state.symbols.IsTagged)
include hm

/-- What is built for a path is an edge of a file of that path. -/
theorem edgeOf_of_built (h : r ∈ a.built reader q) :
    ∃ f ∈ a.facts reader, f.path = q ∧ Build.EdgeOf a.now f r := by
  obtain ⟨f, hf, hr⟩ := List.mem_flatMap.mp h
  obtain ⟨hf, hq⟩ := List.mem_filter.mp hf
  exact ⟨f, hf, of_decide_eq_true hq,
    Build.exists_edge (SymbolIndex.isTagged_ofMap (isTagged_symbols hm)) hr⟩

theorem proper_of_built (h : r ∈ a.built reader q) : r.Proper := by
  obtain ⟨f, _, _, he⟩ := edgeOf_of_built hm h
  exact he.proper

theorem filePath_of_built (h : r ∈ a.built reader q) :
    r.properties.get? "file_path" = some (.string q) := by
  obtain ⟨f, _, rfl, he⟩ := edgeOf_of_built hm h
  exact he.filePath

theorem proper_of_batch (h : r ∈ (a.batch reader).relationships) : r.Proper := by
  obtain ⟨q, hq⟩ := mem_batch.mp h
  exact proper_of_built hm hq

/-- What is built is imported, up to what it says. -/
theorem exists_imported (h : r ∈ a.built reader q) : ∃ c ∈ a.imported reader, c.triple = r.triple :=
  Reduction.exists_mem_of_proper (fun _ hc => proper_of_batch hm hc) (mem_batch.mpr ⟨q, h⟩)

omit hm in
theorem built_of_imported (h : r ∈ a.imported reader) : ∃ q, r ∈ a.built reader q :=
  mem_batch.mp (Reduction.mem_of_mem h)

omit hm in
theorem node_cases {n : Node} (h : n ∈ (a.batch reader).nodes) :
    ∃ f ∈ a.facts reader, Build.NodeOf f n := by
  obtain ⟨f, hf, hn⟩ := List.mem_flatMap.mp (Build.mem_of_mem_distinctNodes h)
  exact ⟨f, hf, Build.nodeOf_of_mem hn⟩

theorem importable : Store.Importable (a.batch reader).nodes (a.imported reader) where
  tagged n hn := by
    obtain ⟨f, _, hof⟩ := node_cases hn
    exact hof.tagged
  packages := by
    rintro i hi ⟨r, hr, he⟩
    obtain ⟨q, hq⟩ := built_of_imported hr
    obtain ⟨f, hf, _, hedge⟩ := edgeOf_of_built hm hq
    obtain ⟨n, hn, rfl⟩ := hedge.package_mem (he.imp Eq.symm Eq.symm) hi
    exact Build.exists_mem_distinctNodes (List.mem_flatMap.mpr ⟨f, hf, hn⟩)

end Tagged

end Pass

end CodeAtlas
