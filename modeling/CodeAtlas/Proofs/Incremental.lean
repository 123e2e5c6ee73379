/-
# When an incremental sync is a full one

An incremental sync keeps what the graph has of unchanged files, and builds anew what it has of the
others. What it builds is what a full sync builds for the same files, since it looks names up in the
same symbols. So it leaves what a full sync of the tree leaves, up to what relationships say, exactly
where two things hold of the unchanged files (`Run.incremental_eq_full_iff`): what was kept of them a
full sync still builds, and what a full sync builds for them was kept or is built for another file.

The first fails where a name that an unchanged file refers to is found elsewhere now. The second fails
where an import of an unchanged file leads to a file that was added (`Run.exists_incremental_ne_full`),
and where a relationship of several files is retired with the one it was stored for.

Key definitions: `Store.Says`, `Pass.Settled`, `Pass.Covered`.
Key theorems: `Pass.says_store_iff`, `Pass.says_full_iff`, `Run.incremental_eq_full_iff`.
-/
import CodeAtlas.Proofs.LastExtraction
import CodeAtlas.Proofs.SymbolCache

namespace CodeAtlas

/-- Some relationship of the store says it. -/
def Store.Says (s : Store) (x : RelationKind × String × String) : Prop :=
  x ∈ s.relationships.values.map (·.triple)

theorem Store.says_iff {s : Store} {x : RelationKind × String × String} :
    s.Says x ↔ ∃ i r, s.relationships.get? i = some r ∧ r.triple = x := by
  rw [Says, List.mem_map]
  constructor
  · rintro ⟨r, hr, hx⟩
    obtain ⟨i, hi⟩ := SortedMap.mem_values.mp hr
    exact ⟨i, r, hi, hx⟩
  · rintro ⟨i, r, hi, hx⟩
    exact ⟨r, SortedMap.mem_values.mpr ⟨i, hi⟩, hx⟩

/-- A state whose symbols are tagged holds the empty store. -/
theorem Held.empty {state : SyncState} (h : state.symbols.IsTagged) : Held state .empty where
  keyed h := by cases h
  proper h := by cases h
  filed h := by cases h
  package h := by cases h
  declared h := by cases h
  bare _ := Store.bare_empty
  symbols := h

namespace Pass

variable {p : Project} {reader : Reader} {t : Turn} {ts : List Turn} {a b : Pass p} {s : Store}
  {x : RelationKind × String × String} {q : String}

/-- Something that is built for the path says it. -/
def Builds (a : Pass p) (reader : Reader) (path : String) (x : RelationKind × String × String) :
    Prop := x ∈ (a.built reader path).map (·.triple)

/-- The store has it from an unchanged file. -/
def Keeps (a : Pass p) (s : Store) (x : RelationKind × String × String) : Prop :=
  ∃ r ∈ s.relationships.values, r.triple = x ∧
    ∃ path ∈ a.plan.changes.unchanged, r.filePath? = some path

/-- What the store has from unchanged files, a full pass builds too. -/
def Settled (a : Pass p) (reader : Reader) (s : Store) : Prop :=
  ∀ x, a.Keeps s x → ∃ path, a.whole.Builds reader path x

/-- What a full pass builds for unchanged files, it also builds for a file that is read now, or the
store has it from an unchanged file. -/
def Covered (a : Pass p) (reader : Reader) (s : Store) : Prop :=
  ∀ path ∈ a.plan.changes.unchanged, ∀ x, a.whole.Builds reader path x →
    (∃ other ∈ a.plan.changes.toExtract, a.whole.Builds reader other x) ∨ a.Keeps s x

/-- What a store says after a pass: what it has from unchanged files, and what was built. -/
theorem says_store_iff (h : Current p reader ts s) (hheld : Held a.state s) (ha : t.pass? p = some a)
    (hp : p.Plain a.files) (hfree : CollisionFree p reader (t :: ts)) :
    (a.store reader s).Says x ↔ a.Keeps s x ∨ ∃ path, a.Builds reader path x := by
  rw [Store.says_iff]
  constructor
  · rintro ⟨i, r, hr, rfl⟩
    rcases stored_cases hheld.keyed hr with ⟨hold, hof, _⟩ | ⟨c, hc, rfl, _⟩
    · obtain ⟨q, hq⟩ := (hheld.proper hold).exists_filePath
      rw [hq] at hof
      exact .inl ⟨r, SortedMap.mem_values.mpr ⟨i, hold⟩, rfl, q,
        unchanged_of_kept (hheld.filed hold hq) hof, hq⟩
    · obtain ⟨q, hb⟩ := built_of_imported hc
      exact .inr ⟨q, List.mem_map.mpr ⟨c, hb, (h.triple_of_imported hheld ha hp hfree hc hr).symm⟩⟩
  · rintro (⟨r, hr, rfl, q, hu, hq⟩ | ⟨q, hb⟩)
    · obtain ⟨i, hi⟩ := SortedMap.mem_values.mp hr
      have hof : Store.isOf a.plan.retire r.filePath? = false := by
        rw [hq, Bool.eq_false_iff]
        intro hof
        obtain ⟨_, hsome, hmem⟩ := Store.isOf_iff.mp hof
        cases hsome
        exact ((a.follows.retire q).mp hmem).2 hu
      obtain ⟨r', hr', ht⟩ := Store.triple_of_old (a.imported reader)
        (get?_retired_relationships.mpr ⟨hi, hof⟩)
      rw [← relationships_store] at hr'
      exact ⟨i, r', hr', ht⟩
    · obtain ⟨b, hmem, rfl⟩ := List.mem_map.mp hb
      obtain ⟨c, hc, ht⟩ := exists_imported hheld.symbols hmem
      obtain ⟨r, hr⟩ := Store.exists_of_mem (a.imported reader) (m := (a.retired s).relationships) hc
      rw [← relationships_store] at hr
      exact ⟨c.id, r, hr, (h.triple_of_imported hheld ha hp hfree hc hr).trans ht⟩

/-- What is built for a path says the same at any time. -/
theorem builds_congr (hfacts : a.facts reader = b.facts reader)
    (hsym : a.symbols reader = b.symbols reader) : a.Builds reader q x ↔ b.Builds reader q x := by
  have hbuilt : a.built reader q = (b.built reader q).map (.stamp a.now) := by
    rw [built, built, hfacts, hsym, List.map_flatMap]
    simp only [Build.fileRelationships_stamp]
  rw [Builds, Builds, hbuilt, List.map_map]
  rfl

/-- What a full pass into the empty store says is what the full pass in place of another builds. -/
theorem says_full_iff (hfull : b.plan = a.whole.plan) (hfiles : b.files = a.files)
    (hstate : b.state = a.state) (hm : a.state.symbols.IsTagged) (hb : t.pass? p = some b)
    (hp : p.Plain a.files) (hfree : CollisionFree p reader [t]) :
    (b.store reader .empty).Says x ↔ ∃ path, a.whole.Builds reader path x := by
  have hfacts : b.facts reader = a.whole.facts reader := by
    rw [facts, facts, hfull, hfiles]
    rfl
  have hsym : b.symbols reader = a.whole.symbols reader := by
    rw [symbols, symbols, hfacts, hfull, hstate]
    rfl
  rw [says_store_iff (.empty []) (.empty (hstate ▸ hm)) hb (hfiles ▸ hp) hfree]
  have hkeeps : ¬ b.Keeps .empty x := by
    rintro ⟨r, hr, _⟩
    cases hr
  simp only [hkeeps, false_or, builds_congr hfacts hsym]

/-- A file that a full pass builds something for is unchanged or read. -/
theorem mem_toExtract_of_builds (hp : p.Plain a.files) (hx : a.whole.Builds reader q x)
    (hu : q ∉ a.plan.changes.unchanged) : q ∈ a.plan.changes.toExtract := by
  obtain ⟨r, hr, _⟩ := List.mem_map.mp hx
  exact (a.follows.extract q).mpr
    ⟨mem_toExtract_whole.mp (mem_toExtract_of_built (a := a.whole) hp hr), hu⟩

/-- With the symbols of a full pass, what is built is what the full one builds for the files read. -/
theorem builds_iff_read (hp : p.Plain a.files) (hsym : a.symbols reader = a.whole.symbols reader) :
    (∃ path, a.Builds reader path x) ↔
      ∃ path ∈ a.plan.changes.toExtract, a.whole.Builds reader path x := by
  constructor
  · rintro ⟨q, hx⟩
    obtain ⟨r, hr, _⟩ := List.mem_map.mp hx
    have hq := mem_toExtract_of_built hp hr
    rw [Builds, built_eq_whole hp hsym hq] at hx
    exact ⟨q, hq, hx⟩
  · rintro ⟨q, hq, hx⟩
    refine ⟨q, ?_⟩
    rwa [Builds, built_eq_whole hp hsym hq]

end Pass

/-! ### Runs -/

section Runs

variable {p : Project} {reader : Reader} {ts : List Turn} {w w' v : World Memory} {t u : Turn}
  {a : Pass p}

/-- After a run over trees with the same manifests, an incremental sync leaves a graph that says what the
graph of a full sync of the tree into an empty store says, exactly where what it keeps of unchanged
files is settled and what a full sync builds for them is covered. -/
theorem Run.incremental_eq_full_iff (h : Run p reader ts w) (hact : t.act = .sync false)
    (hstate : p.state t.files = p.state w.files) (hleads : t.Leads p reader w.backend w')
    (ha : t.pass? p = some a) (hact' : u.act = .sync true) (hfiles : u.files = t.files)
    (hfull : u.Leads p reader .empty v) (hp : ∀ x ∈ t :: ts, p.Plain (x.seen p))
    (hsteady : Steady p (t :: ts)) (hfree : CollisionFree p reader (t :: ts))
    (hfree' : CollisionFree p reader [u]) :
    (∀ x, w'.backend.store.Says x ↔ v.backend.store.Says x) ↔
      a.Settled reader w.backend.store ∧ a.Covered reader w.backend.store := by
  have hp' : ∀ x ∈ ts, p.Plain (x.seen p) := fun x hx => hp x (List.mem_cons_of_mem _ hx)
  have hplain : p.Plain a.files := Turn.files_of_pass? ha ▸ hp t List.mem_cons_self
  obtain ⟨hheld, hcurrent⟩ := h.current hp' hfree.of_cons
  obtain ⟨_, hcached⟩ := h.cached hp'
  obtain ⟨a', ha', hafiles, hfrom, _, hstore⟩ := Turn.sync_ok hact hleads
  obtain rfl : a' = a := Option.some.inj (ha'.symm.trans ha)
  obtain ⟨b, hb, hbfiles, hbfrom, hbplan, hstore'⟩ := Turn.sync_ok hact' hfull
  rw [hfiles] at hbfiles hbfrom
  have hstates : a'.state = p.state w.files := hfrom.trans hstate
  rw [← hstates] at hheld hcached
  have hbwhole : b.plan = a'.whole.plan := by
    rcases SyncPlan.make_cases hbplan with hwhole | ⟨hfalse, _⟩
    · rw [hwhole, hfiles, ← hfrom, ← hafiles]
      rfl
    · cases hfalse
  have hsym : a'.symbols reader = a'.whole.symbols reader :=
    Pass.symbols_eq_of_cached hcached ha hp hsteady
  -- both graphs say what is built for the files that are read
  have hpartial : ∀ x, w'.backend.store.Says x ↔
      a'.Keeps w.backend.store x ∨ ∃ path ∈ a'.plan.changes.toExtract, a'.whole.Builds reader path x := by
    intro x
    rw [hstore, Pass.says_store_iff hcurrent hheld ha hplain hfree, Pass.builds_iff_read hplain hsym]
  have hwhole : ∀ x, v.backend.store.Says x ↔ ∃ path, a'.whole.Builds reader path x := by
    intro x
    rw [hstore']
    exact Pass.says_full_iff hbwhole (hbfiles.trans hafiles.symm) (hbfrom.trans hfrom.symm)
      hheld.symbols hb hplain hfree'
  constructor
  · intro hsame
    refine ⟨fun x hx => (hwhole x).mp ((hsame x).mp ((hpartial x).mpr (.inl hx))), ?_⟩
    intro path _ x hx
    exact ((hpartial x).mp ((hsame x).mpr ((hwhole x).mpr ⟨path, hx⟩))).symm
  · rintro ⟨hsettled, hcovered⟩ x
    rw [hpartial, hwhole]
    constructor
    · rintro (hx | ⟨path, _, hx⟩)
      · exact hsettled x hx
      · exact ⟨path, hx⟩
    · rintro ⟨path, hx⟩
      by_cases hu : path ∈ a'.plan.changes.unchanged
      · exact (hcovered path hu x hx).symm
      · exact .inr ⟨path, Pass.mem_toExtract_of_builds hplain hx hu, hx⟩

end Runs

namespace Trial

theorem free_full : CollisionFree project reader [full] := by
  have hpass : full.pass? project = some rebuilt :=
    Turn.pass?_sync (t := full) rfl state_second (SyncPlan.make_forced ..)
  rw [CollisionFree, List.flatMap_cons, Turn.builds_eq hpass, Pass.batch, Pass.symbols, facts_rebuilt]
  decide +kernel

/-- What is stored of the source is what a full sync builds for it once there is another beside it. -/
theorem stored_eq_built :
    (before.store reader .empty).relationships.values.map (fun r => (r.triple, r.filePath?)) =
      (after.whole.built reader "src/a.ts").map fun r => (r.triple, some "src/a.ts") := by
  have hfacts : after.whole.facts reader = rebuilt.facts reader := rfl
  rw [Pass.built, Pass.symbols, hfacts, facts_rebuilt]
  decide +kernel

theorem settled_after : after.Settled reader (before.store reader .empty) := by
  rintro x ⟨r, hr, rfl, _⟩
  have hmem := List.mem_map_of_mem (f := fun r => (r.triple, r.filePath?)) hr
  rw [stored_eq_built] at hmem
  obtain ⟨b, hb, heq⟩ := List.mem_map.mp hmem
  exact ⟨"src/a.ts", List.mem_map.mpr ⟨b, hb, congrArg Prod.fst heq⟩⟩

theorem covered_after : after.Covered reader (before.store reader .empty) := by
  intro path hpath x hx
  have hunchanged : after.plan.changes.unchanged = ["src/a.ts"] := by decide +kernel
  obtain rfl : path = "src/a.ts" := List.mem_singleton.mp (hunchanged ▸ hpath)
  obtain ⟨b, hb, rfl⟩ := List.mem_map.mp hx
  have hmem := List.mem_map_of_mem (f := fun r => (r.triple, some "src/a.ts")) hb
  rw [← stored_eq_built] at hmem
  obtain ⟨r, hr, heq⟩ := List.mem_map.mp hmem
  exact .inr ⟨r, hr, congrArg Prod.fst heq, _, hpath, congrArg Prod.snd heq⟩

/-- A source is added that no import leads to, and the incremental sync leaves what a full one leaves. -/
theorem incremental_second : ∃ w w' v, (Run project reader [first] w ∧ second.act = .sync false ∧
      project.state second.files = project.state w.files ∧
      second.Leads project reader w.backend w' ∧ second.pass? project = some after ∧
      full.act = .sync true ∧ full.files = second.files ∧ full.Leads project reader .empty v ∧
      (∀ u ∈ [second, first], project.Plain (u.seen project)) ∧ Steady project [second, first] ∧
      CollisionFree project reader [second, first] ∧ CollisionFree project reader [full]) ∧
    "src/a.ts" ∈ after.plan.changes.unchanged ∧ "b.ts" ∈ after.plan.changes.toExtract ∧
    ∀ x, w'.backend.store.Says x ↔ v.backend.store.Says x := by
  obtain ⟨_, fs, hstate, hrun⟩ := run_first
  obtain ⟨_, _, hleads⟩ := leads_second { Memory.empty with store := before.store reader .empty }
  obtain ⟨_, hfull⟩ := leads_full .empty
  have hsame : project.state second.files = project.state fs := state_second.trans hstate.symm
  exact ⟨_, _, _, ⟨hrun, rfl, hsame, hleads, pass?_second, rfl, rfl, hfull, plain_second,
      steady_second, free_second, free_full⟩, by decide +kernel, by decide +kernel,
    (hrun.incremental_eq_full_iff (u := full) rfl hsame hleads pass?_second rfl rfl hfull plain_second
      steady_second free_second free_full).mpr ⟨settled_after, covered_after⟩⟩

/-- The sync of the tree with the file that the source imports. -/
def late : Turn := sync (grown "up.ts" blank) (by decide +kernel) false

/-- The pass of the sync of the tree with the file that the source imports. -/
def passing : Pass project := late.passFrom (make_grown "up.ts" blank)

theorem state_late : project.state late.files = before.next reader :=
  SyncState.load_of_read (before.inRange_next reader) rfl rfl

/-- The full sync of the tree with the file that the source imports. -/
def fresh : Turn := { late with act := .sync true }

/-- The pass of the full sync of the tree with the file that the source imports. -/
def thorough : Pass project := forcing project (before.next reader) fresh

theorem kinds_passing :
    (passing.store reader (before.store reader .empty)).relationships.values.map (·.kind) =
      [.imports] := by
  decide +kernel

theorem kinds_thorough :
    (thorough.store reader .empty).relationships.values.map (·.kind) = [.imports, .dependsOn] := by
  have hfiles : thorough.plan.changes.toExtract = ["src/a.ts", "up.ts"] := by decide +kernel
  have hfacts : thorough.facts reader =
      ["src/a.ts", "up.ts"].filterMap (project.factsOf reader (grown "up.ts" blank)) := by
    rw [Pass.facts, Project.files_extract, hfiles]
    rfl
  rw [Pass.store, Pass.imported, Pass.batch, Pass.symbols, hfacts]
  decide +kernel

theorem dependency_missed : ∃ x, (thorough.store reader .empty).Says x ∧
    ¬ (passing.store reader (before.store reader .empty)).Says x := by
  have hmem : RelationKind.dependsOn ∈
      (thorough.store reader .empty).relationships.values.map (·.kind) := by simp [kinds_thorough]
  obtain ⟨r, hr, hkind⟩ := List.mem_map.mp hmem
  refine ⟨r.triple, List.mem_map_of_mem hr, fun hsaid => ?_⟩
  obtain ⟨r', hr', htriple⟩ := List.mem_map.mp hsaid
  have hkind' : r'.kind = .dependsOn := (congrArg Prod.fst htriple).trans hkind
  have himports := List.mem_map_of_mem (f := (·.kind)) hr'
  rw [kinds_passing, hkind'] at himports
  simp at himports

end Trial

/-- Where an import leads to a file that was added, the incremental sync leaves out the dependency. -/
theorem Run.exists_incremental_ne_full : ∃ (p : Project) (reader : Reader) (ts : List Turn)
    (w : World Memory) (t : Turn) (w' : World Memory) (u : Turn) (v : World Memory),
      Run p reader ts w ∧ (∀ x ∈ t :: ts, x.act = .sync false) ∧
      p.state t.files = p.state w.files ∧ t.Leads p reader w.backend w' ∧ u.act = .sync true ∧
      u.files = t.files ∧ u.Leads p reader .empty v ∧ (∀ x ∈ t :: ts, p.Plain (x.seen p)) ∧
      Steady p (t :: ts) ∧ CollisionFree p reader (t :: ts) ∧
      ∃ x, v.backend.store.Says x ∧ ¬ w'.backend.store.Says x := by
  open Trial in
  obtain ⟨hpass, fs, hstate, hrun⟩ := run_first
  have hsave : ((passing.next reader).save late.files project.statePath 0).2.toOption = some () := by
    decide +kernel
  obtain ⟨_, _, hleads⟩ := Turn.leads_sync (t := late) rfl state_late (make_grown "up.ts" blank) hsave
    { Memory.empty with store := before.store reader .empty }
  obtain ⟨_, hfull⟩ := leads_forcing (t := fresh) rfl state_late (by decide +kernel) .empty
  have hpass' : late.pass? project = some passing := Turn.pass?_sync rfl state_late _
  have hsteady : Steady project [late, first] :=
    .pair (FileSystem.sameManifests_of_none rfl (by decide +kernel) (by decide +kernel))
      (by decide +kernel)
  refine ⟨project, reader, [first], _, late, _, fresh, _, hrun,
    by simp [late, first, sync], state_late.trans hstate.symm, hleads, rfl, rfl, hfull,
    by decide +kernel, hsteady, ?_, ?_⟩
  · refine collisionFree_of_length ?_
    rw [List.flatMap_cons, List.flatMap_cons, Turn.builds_eq hpass', Turn.builds_eq hpass]
    decide +kernel
  · exact dependency_missed

end CodeAtlas
