/-
# A sync that has lost its state

Where the state file is gone or refused, a sync reads every file, but it knows of no file that it could
retire. What it builds comes from files that are there; all else in the graph stays. So of the
relationships whose file is gone it leaves exactly those that it does not build again for another file
(`Run.unfiled_after_loss`), and a graph with a relationship of a deleted file keeps it
(`Run.exists_unfiled_after_loss`), however the state was lost.

Key definitions: `Project.isFiled`.
Key theorems: `Pass.get?_store_of_not_built`, `Pass.isFiled_of_imported`, `Run.unfiled_after_loss`.
-/
import CodeAtlas.Proofs.LastExtraction

namespace CodeAtlas

/-- Whether the relationship comes from a file of the project as it is. -/
def Project.isFiled (p : Project) (fs : FileSystem) (r : Relationship) : Bool :=
  r.filePath?.any (p.scan fs).contains

namespace Pass

variable {p : Project} {reader : Reader} {a : Pass p} {s : Store} {i : String} {r : Relationship}

/-- Where no file is known, nothing is retired. -/
theorem retired_of_fresh (h : a.state = .fresh) : a.retired s = s := by
  have hnone : a.plan.retire = [] := by
    refine List.eq_nil_iff_forall_not_mem.mpr fun q hq => ?_
    have hknown := ((a.follows.retire q).mp hq).1
    rw [h] at hknown
    cases hknown
  rw [retired, hnone]
  rfl

/-- The ids that are imported are those that are built. -/
theorem exists_imported_id (hm : a.state.symbols.IsTagged)
    (h : r ∈ (a.batch reader).relationships) : ∃ c ∈ a.imported reader, c.id = r.id := by
  obtain ⟨q, hq⟩ := mem_batch.mp h
  obtain ⟨c, hc, htriple⟩ := exists_imported hm hq
  have hproper : c.Proper := proper_of_batch hm (Reduction.mem_of_mem hc)
  exact ⟨c, hc, Reduction.id_eq_of_triple hproper (proper_of_batch hm h) htriple⟩

/-- What is stored at an id that is not built is what was there, unless it is retired. -/
theorem get?_store_of_not_built (hk : Store.Keyed s.relationships)
    (hi : ∀ b ∈ (a.batch reader).relationships, b.id ≠ i) :
    (a.store reader s).relationships.get? i = some r ↔ (a.retired s).relationships.get? i = some r := by
  have hback : ∀ {r}, (a.store reader s).relationships.get? i = some r →
      (a.retired s).relationships.get? i = some r := by
    intro r hr
    rcases stored_cases hk hr with ⟨hold, hof, _⟩ | ⟨c, hc, hid, _⟩
    · exact get?_retired_relationships.mpr ⟨hold, hof⟩
    · exact absurd hid (hi c (Reduction.mem_of_mem hc))
  refine ⟨hback, fun hr => ?_⟩
  -- an import takes nothing out, so there is something, and it is what was there
  obtain ⟨r', hr', _⟩ := Store.triple_of_old (a.imported reader) hr
  rw [← relationships_store] at hr'
  have hsame := hback hr'
  rw [hr] at hsame
  rw [hr', hsame]

/-- What is written over comes from a file that is there. -/
theorem isFiled_of_imported (hm : a.state.symbols.IsTagged) (hp : p.Plain a.files) {c : Relationship}
    (hc : c ∈ a.imported reader) (hover : Store.Overlays r c) : p.isFiled a.files r = true := by
  obtain ⟨q, hq⟩ := built_of_imported hc
  have hpath : r.filePath? = some q := Relationship.filePath?_of (hover (filePath_of_built hm hq))
  rw [Project.isFiled, hpath]
  exact contains_of_mem (mem_toExtract_of_built hp hq)

end Pass

section Runs

variable {p : Project} {reader : Reader} {t : Turn} {ts : List Turn} {w w' : World Memory}
  {force : Bool}

/-- After any run, a sync that has lost the state is full, and of the relationships whose file is gone it
leaves exactly those whose id it does not build. -/
theorem Run.unfiled_after_loss (h : Run p reader ts w) (hact : t.act = .sync force)
    (hlost : SyncState.Lost t.files p.statePath) (hp : p.Plain t.files)
    (hleads : t.Leads p reader w.backend w') :
    (p.plan? t.files t.now force).map (·.full) = some true ∧
    ∀ r, (r ∈ w'.backend.store.relationships.values ∧ p.isFiled t.files r = false) ↔
      (r ∈ w.backend.store.relationships.values ∧ p.isFiled t.files r = false ∧
        ∀ b ∈ t.builds p reader, b.id ≠ r.id) := by
  have hfresh : p.state t.files = .fresh := SyncState.load_of_lost hlost
  obtain ⟨a, ha, hfiles, hstate, _, hstore⟩ := Turn.sync_ok hact hleads
  rw [hfresh] at hstate
  have hm : a.state.symbols.IsTagged := by
    rw [hstate]
    exact Orderly.fresh.symbols
  have horderly := h.orderly
  refine ⟨?_, fun r => ?_⟩
  · rw [Project.plan?, hfresh, SyncPlan.make_fresh]
    rfl
  · rw [Turn.builds_eq ha, hstore]
    constructor
    · rintro ⟨hr, hgone⟩
      obtain ⟨i, hi⟩ := SortedMap.mem_values.mp hr
      rcases Pass.stored_cases horderly.keyed hi with ⟨hold, _, hnone⟩ | ⟨c, hc, _, hover, _⟩
      · refine ⟨SortedMap.mem_values.mpr ⟨i, hold⟩, hgone, fun b hb hid => ?_⟩
        obtain ⟨c, hc, hcid⟩ := Pass.exists_imported_id hm hb
        exact hnone c hc (hcid.trans (hid.trans (horderly.keyed hold)))
      · rw [← hfiles] at hgone hp
        rw [Pass.isFiled_of_imported hm hp hc hover] at hgone
        cases hgone
    · rintro ⟨hr, hgone, hnone⟩
      obtain ⟨i, hi⟩ := SortedMap.mem_values.mp hr
      have hid : r.id = i := horderly.keyed hi
      refine ⟨SortedMap.mem_values.mpr ⟨i, ?_⟩, hgone⟩
      rw [Pass.get?_store_of_not_built horderly.keyed (hid ▸ hnone), Pass.retired_of_fresh hstate]
      exact hi

end Runs

namespace Trial

/-- A state file with a text. -/
def noted (text : String) : List (List String × Entry) :=
  [(["p", ".codegraph"], .directory),
   (["p", ".codegraph", "sync-state.json"], .file (.bytes (Ident.bytes text)) 0)]

/-- The state after the sync of the source, in another version. -/
def older : SyncState := { before.next reader with version := "1" }

theorem sound_cleared : (tree []).Sound := by decide +kernel

/-- Syncs when all sources are gone, and the state file is gone with them, or it has a text that is no
state, or a state of another version. -/
def losses : List Turn :=
  [sync (tree []) sound_cleared false,
   sync (tree (noted "\x7b")) (by decide +kernel) false,
   sync (tree (noted older.text)) (by decide +kernel) false]

theorem lost_of_mem_losses : ∀ t ∈ losses, SyncState.Lost t.files project.statePath := by
  simp only [losses, List.forall_mem_cons]
  refine ⟨?_, ?_, ?_, by simp⟩
  · exact SyncState.lost_of_not_isFile (by decide +kernel)
  · exact SyncState.lost_of_refused rfl (by decide +kernel : _ = Except.error .malformed)
  · have hrange := before.inRange_next reader
    exact SyncState.lost_of_refused rfl
      (SyncState.ofText_of_version (s := older) ⟨hrange.lastSync, hrange.files⟩ (by decide))

theorem act_of_mem_losses : ∀ t ∈ losses, t.act = .sync false := by simp [losses, sync]

theorem plain_of_mem_losses : ∀ t ∈ losses, project.Plain t.files := by decide +kernel

theorem leads_of_mem_losses {t : Turn} (h : t ∈ losses) (m : Memory) : ∃ fs, t.Leads project reader m
    ⟨fs, { m with store := (opening project t).store reader m.store }⟩ := by
  have hsave : ∀ t ∈ losses, (((opening project t).next reader).save t.files project.statePath
      t.now).2.toOption = some () := by decide +kernel
  obtain ⟨fs, _, hleads⟩ := Turn.leads_sync (act_of_mem_losses t h)
    (SyncState.load_of_lost (lost_of_mem_losses t h))
    (SyncPlan.make_fresh project.sync (project.scan t.files) t.now false) (hsave t h) m
  exact ⟨fs, hleads⟩

/-- The relationship of the source is left when the source is gone. -/
theorem unfiled_of_mem_losses : ∀ t ∈ losses,
    ∃ r ∈ ((opening project t).store reader (before.store reader .empty)).relationships.values,
      project.isFiled t.files r = false := by decide +kernel

/-- Each of the syncs is full, and leaves the relationship of the source that is gone. -/
theorem unfiled_losses : ∃ w, Run project reader [first] w ∧
    w.backend.store.relationships.values.all (project.isFiled first.files) = true ∧
    ∀ t ∈ losses, ∃ w', (t.act = .sync false ∧ SyncState.Lost t.files project.statePath ∧
        project.Plain t.files ∧ t.Leads project reader w.backend w') ∧
      (project.plan? t.files t.now false).map (·.full) = some true ∧
      ∀ r, (r ∈ w'.backend.store.relationships.values ∧ project.isFiled t.files r = false) ↔
        (r ∈ w.backend.store.relationships.values ∧ project.isFiled t.files r = false ∧
          ∀ b ∈ t.builds project reader, b.id ≠ r.id) := by
  obtain ⟨_, fs, _, hrun⟩ := run_first
  refine ⟨_, hrun, ?_, fun t ht => ?_⟩
  · show (before.store reader .empty).relationships.values.all (project.isFiled first.files) = true
    decide +kernel
  · obtain ⟨fs', hleads⟩ := leads_of_mem_losses ht { Memory.empty with store := before.store reader .empty }
    exact ⟨_, ⟨act_of_mem_losses t ht, lost_of_mem_losses t ht, plain_of_mem_losses t ht, hleads⟩,
      hrun.unfiled_after_loss (act_of_mem_losses t ht) (lost_of_mem_losses t ht) (plain_of_mem_losses t ht) hleads⟩

end Trial

/-- However the state is lost, a relationship can outlive its file: with the state file, by a text that is
no state, and by a state of another version. -/
theorem Run.exists_unfiled_after_loss : ∃ (p : Project) (reader : Reader) (ts : List Turn)
    (w : World Memory), Run p reader ts w ∧ ∀ t ∈ Trial.losses, ∃ w', t.act = .sync false ∧
      SyncState.Lost t.files p.statePath ∧ t.Leads p reader w.backend w' ∧
      ∃ r ∈ w'.backend.store.relationships.values, p.isFiled t.files r = false := by
  open Trial in
  obtain ⟨_, fs, _, hrun⟩ := run_first
  refine ⟨project, reader, [first], _, hrun, fun t ht => ?_⟩
  obtain ⟨fs', hleads⟩ := leads_of_mem_losses ht { Memory.empty with store := before.store reader .empty }
  exact ⟨_, act_of_mem_losses t ht, lost_of_mem_losses t ht, hleads, unfiled_of_mem_losses t ht⟩

end CodeAtlas
