/-
# The state is written last

A sync on any backend, each of whose operations may fail, and on any system, which may refuse to save,
writes the state as its last step. If it ends without a result, all it can have done to the files is to
make directories on the way to the state (`FileSystem.Grows`): every file is as it was, and none is new.
If it succeeds, the state that is read back is that of its pass (`Project.state_written_last`).

One thing is said of places and not of paths: a path that goes through a directory that is missing and
back up again leads to a file that was there only when the directory is made.

Key definitions: `FileSystem.Grows`, `FileSystem.Untouched`.
Key theorems: `FileSystem.makeDirsFrom_rel`, `FileSystem.Grows.follow_back`,
`FileSystem.Grows.untouched`, `SyncState.grows_of_saveOn`, `Project.state_written_last`.
-/
import CodeAtlas.Proofs.Runs

namespace CodeAtlas

namespace FileSystem

/-! ### Making directories -/

/-- Directories may have been made, and nothing else was changed. -/
structure Grows (fs fs' : FileSystem) : Prop where
  cwd : fs'.cwd = fs.cwd
  kept : ∀ {names e}, fs.entry? names = some e → fs'.entry? names = some e
  made : ∀ {names e}, fs'.entry? names = some e → fs.entry? names = some e ∨ e = .directory

namespace Grows

variable {fs fs' fs'' : FileSystem} {names : List String} {path : String} {c : Content} {t : Int}

theorem refl (fs : FileSystem) : fs.Grows fs := ⟨rfl, id, .inl⟩

theorem trans (h : fs.Grows fs') (h' : fs'.Grows fs'') : fs.Grows fs'' where
  cwd := h'.cwd.trans h.cwd
  kept he := h'.kept (h.kept he)
  made he := (h'.made he).elim h.made .inr

theorem put (h : fs.entry? names = none) : fs.Grows (fs.put names .directory) := by
  have hne : names ≠ [] := by
    rintro rfl
    cases h
  refine ⟨rfl, fun {q e} he => ?_, fun {q e} he => ?_⟩
  · rw [entry?_put hne, if_neg, he]
    rintro rfl
    rw [h] at he
    cases he
  · rw [entry?_put hne] at he
    split at he
    · exact .inr (Option.some.inj he).symm
    · exact .inl he

end Grows

section Make

variable {m : Medium} {fs fs' : FileSystem} {path : String}

/-- What making a directory does: the path leads to nothing in a directory, and the new one is put
there. -/
theorem makeDir_eq_ok (h : fs.makeDir path = .ok fs') : ∃ names,
    fs.locate (Path.trimmed (Path.pieces path)) = .ok names ∧ fs.entry? names = none ∧
      fs.entry? names.dropLast = some .directory ∧ fs' = fs.put names .directory := by
  unfold makeDir at h
  simp only [bind, Except.bind] at h
  split at h
  · cases h
  · rename_i names hl
    split at h
    · cases h
    · rename_i hnone
      split at h
      · cases h
      · rename_i hparent
        cases h
        exact ⟨names, hl, hnone, checkParent_eq_ok_iff.mp hparent, rfl⟩

theorem grows_makeDir (h : fs.makeDir path = .ok fs') : fs.Grows fs' := by
  obtain ⟨names, _, hnone, _, rfl⟩ := makeDir_eq_ok h
  exact .put hnone

/-- A directory that there is now was made, or it was there. -/
theorem ensureDir_eq_ok (h : ensureDir m fs path = .ok fs') :
    fs.makeDir path = .ok fs' ∨ fs' = fs ∧ fs.isDirectory path = true := by
  unfold ensureDir at h
  split at h
  · rename_i made
    cases h
    cases hc : m.check fs (.makeDir path) with
    | error e =>
      rw [hc] at made
      cases made
    | ok _ =>
      rw [hc] at made
      exact .inl made
  · split at h
    · rename_i hdir
      cases h
      exact .inr ⟨rfl, hdir⟩
    · cases h

/-- What holds of making one directory holds of making a directory and those it is in, whether all of
them could be made or not. -/
theorem makeDirsFrom_rel {R : FileSystem → FileSystem → Prop} (hrefl : ∀ fs, R fs fs)
    (htrans : ∀ {a b c}, R a b → R b c → R a c)
    (hmake : ∀ {fs fs' path}, fs.makeDir path = .ok fs' → R fs fs') (m : Medium) :
    ∀ (fuel : Nat) (fs : FileSystem) (path : String), R fs (makeDirsFrom m fuel fs path).1
  | 0, fs, _ => hrefl fs
  | fuel + 1, fs, path => by
    have hensure : ∀ {fs fs' path}, ensureDir m fs path = .ok fs' → R fs fs' := by
      intro fs fs' path h
      rcases ensureDir_eq_ok h with hmade | ⟨rfl, _⟩
      · exact hmake hmade
      · exact hrefl _
    unfold makeDirsFrom
    split
    · exact hrefl fs
    · split
      · rename_i hmade
        exact hensure hmade
      · split
        · exact hrefl fs
        · -- the parent first, then the directory itself
          rename_i parent _
          have ih := makeDirsFrom_rel hrefl htrans hmake m fuel fs parent
          split
          · rename_i hparent
            rw [hparent] at ih
            exact ih
          · rename_i hparent
            rw [hparent] at ih
            split
            · rename_i hmade
              exact htrans ih (hensure hmade)
            · exact ih
      · exact hrefl fs

/-- Whether all directories could be made or not, nothing else was changed. -/
theorem grows_makeDirsFrom (m : Medium) (fuel : Nat) (fs : FileSystem) (path : String) :
    fs.Grows (makeDirsFrom m fuel fs path).1 :=
  makeDirsFrom_rel Grows.refl Grows.trans grows_makeDir m fuel fs path

end Make

/-! ### Paths where directories were made -/

/-- No file was changed, made or removed, and the path leads to what it led to, if that was there or the
path does not go back up. -/
structure Untouched (path : String) (fs fs' : FileSystem) : Prop where
  files : ∀ names content mtime, fs'.entry? names = some (.file content mtime) ↔
    fs.entry? names = some (.file content mtime)
  read : fs.isFile path = true ∨ ".." ∉ Path.pieces path →
    (fs'.read path).toOption = (fs.read path).toOption

/-- Without steps back up, pieces lead below where they start. -/
theorem exists_foldl_nextNames : ∀ {ps : List String} (s : List String), ".." ∉ ps →
    ∃ rest, ps.foldl nextNames s = s ++ rest
  | [], s, _ => ⟨[], (List.append_nil s).symm⟩
  | p :: ps, s, h => by
    rw [List.mem_cons, not_or] at h
    obtain ⟨rest, hrest⟩ := exists_foldl_nextNames (nextNames s p) h.2
    have hp : (p == "..") = false := by simpa using Ne.symm h.1
    rw [List.foldl_cons, hrest, nextNames, hp]
    split
    · exact ⟨rest, rfl⟩
    · exact ⟨p :: rest, by simp⟩

namespace Grows

variable {fs fs' : FileSystem} {names : List String} {path : String} {c : Content} {t : Int}

theorem file_iff (h : fs.Grows fs') :
    fs'.entry? names = some (.file c t) ↔ fs.entry? names = some (.file c t) :=
  ⟨fun he => (h.made he).resolve_right nofun, h.kept⟩

theorem contentAt? (h : fs.Grows fs') (hc : fs.contentAt? path = some c) :
    fs'.contentAt? path = some c := by
  obtain ⟨names, t, hl, he⟩ := contentAt?_eq_some_iff.mp hc
  exact contentAt?_eq_some_iff.mpr
    ⟨names, t, locate_mono (fun _ => h.kept) h.cwd hl, h.file_iff.mpr he⟩

theorem isFile (h : fs.Grows fs') (hf : fs.isFile path = true) : fs'.isFile path = true := by
  rw [isFile_eq, Option.isSome_iff_exists] at hf ⊢
  obtain ⟨c, hc⟩ := hf
  exact ⟨c, h.contentAt? hc⟩

/-- Pieces that do not go back up and lead to a file led to it before, since a file that was there was in
directories that were there. -/
theorem follow_back (h : fs.Grows fs') (hs : fs.Sound) : ∀ {ps s r : List String}, ".." ∉ ps →
    fs'.follow s ps = .ok r → fs.entry? r = some (.file c t) → fs.follow s ps = .ok r
  | [], _, _, _, hf, _ => hf
  | p :: ps, s, r, hup, hf, hr => by
    have hdir := entry?_of_follow hf
    have hdir' : fs.entry? s = some .directory := by
      obtain ⟨rest, hrest⟩ := exists_foldl_nextNames s hup
      rw [← eq_foldl_of_follow hf] at hrest
      by_cases hne : rest = []
      · -- a file is no directory
        rw [hne, List.append_nil] at hrest
        rw [← hrest, h.kept hr] at hdir
        cases hdir
      · exact hs.directory_of_append rest s (hrest ▸ hr) hne
    rw [follow_cons hdir] at hf
    rw [follow_cons hdir']
    exact follow_back h hs (fun hmem => hup (List.mem_cons_of_mem _ hmem)) hf hr

theorem contentAt?_back (h : fs.Grows fs') (hs : fs.Sound) (hup : ".." ∉ Path.pieces path)
    (hc : fs'.contentAt? path = some c) : fs.contentAt? path = some c := by
  obtain ⟨names, t, hl, he⟩ := contentAt?_eq_some_iff.mp hc
  have he := h.file_iff.mp he
  have hpath := ne_empty_of_locate hl
  have hstart : fs'.startOf path = fs.startOf path := by rw [startOf, startOf, h.cwd]
  rw [locate_eq hpath, hstart] at hl
  refine contentAt?_eq_some_iff.mpr ⟨names, t, ?_, he⟩
  rw [locate_eq hpath]
  exact h.follow_back hs hup hl he

theorem untouched (h : fs.Grows fs') (hs : fs.Sound) (path : String) : Untouched path fs fs' where
  files _ _ _ := h.file_iff
  read hpath := by
    have hsame : fs'.contentAt? path = fs.contentAt? path := by
      cases hc : fs.contentAt? path with
      | some c => exact h.contentAt? hc
      | none =>
        cases hc' : fs'.contentAt? path with
        | none => rfl
        | some c =>
          rcases hpath with hfile | hup
          · rw [isFile_eq, hc] at hfile
            cases hfile
          · exact (h.contentAt?_back hs hup hc').symm.trans hc
    rw [toOption_read, toOption_read, hsame]

end Grows

end FileSystem

/-! ### Saving -/

/-- Where a state could not be saved, at most directories were made. -/
theorem SyncState.grows_of_saveOn {disk : Medium} {s : SyncState} {fs fs' : FileSystem}
    {path : String} {now : Int} {e : FileError} (h : s.saveOn disk fs path now = (fs', .error e)) :
    fs.Grows fs' := by
  unfold saveOn FileSystem.makeDirsOn at h
  have hdirs := FileSystem.grows_makeDirsFrom disk ((directoryOf path).length + 1) fs
    (directoryOf path)
  split at h
  · rename_i hmake
    rw [hmake] at hdirs
    cases h
    exact hdirs
  · rename_i hmake
    rw [hmake] at hdirs
    split at h
    · cases h
    · cases h
      exact hdirs

namespace Project

variable {p : Project} {reader : Reader} {σ : Type} {b : Backend σ} {disk : Medium} {now : Int}
  {force : Bool} {w w' : World σ} {result : Except Halt SyncReport}

/-- Whatever fails, a sync that ends without a result leaves the files alone, directories apart. -/
theorem grows_of_syncOn {e : Halt} (hs : w.files.Sound) (hnow : Word.isSigned now = true)
    (h : p.syncOn disk b reader now force w = (.error e, w')) : w.files.Grows w'.files := by
  rcases syncOn_cases hs hnow h with ⟨_, rfl⟩ | ⟨a, ha, hrun⟩
  · exact .refl _
  · obtain ⟨hfiles, _⟩ := of_pass? ha
    rw [← hfiles]
    rcases runOn_cases hfiles.symm hrun with ⟨hsame, _⟩ | ⟨_, _, _, saved, _, _, hsave, hend⟩
    · rw [hsame]
      exact .refl _
    · cases saved with
      | ok _ =>
        obtain ⟨_, hok⟩ := hend
        cases hok
      | error e => exact SyncState.grows_of_saveOn hsave

/-- The state is written by a sync that succeeds and by no other. One that ends without a result leaves
every file as it was. After one that succeeds the state reads: the time of the sync, the files as they
were scanned at its start, the symbols by which the graph was built that was imported, and the version. -/
theorem state_written_last (hs : w.files.Sound) (hnow : Word.isSigned now = true)
    (h : p.syncOn disk b reader now force w = (result, w')) :
    (∀ e, result = .error e → w.files.Untouched p.statePath w'.files) ∧
    ∀ r, result = .ok r → ∃ a, p.pass? hs hnow force = some a ∧
      (∃ before written, b.importBatch (a.batch reader).nodes (a.imported reader) before =
        (.ok written, w'.backend)) ∧
      SyncState.load w'.files p.statePath = ⟨now, p.scan w.files, a.symbols reader, "2"⟩ := by
  constructor
  · rintro e rfl
    exact (grows_of_syncOn hs hnow h).untouched hs _
  · rintro r rfl
    rcases syncOn_cases hs hnow h with ⟨hhalt, _⟩ | ⟨a, ha, hrun⟩
    · cases hhalt
    · obtain ⟨hfiles, htime, _⟩ := of_pass? ha
      rcases runOn_cases hfiles.symm hrun with
        ⟨_, _, hf⟩ | ⟨_, v, written, saved, _, himport, hsave, hend⟩
      · cases hf
      · cases saved with
        | error e => cases hend
        | ok _ =>
          refine ⟨a, ha, ⟨v.backend, written, himport⟩, ?_⟩
          rw [SyncState.load_of_saveOn (a.inRange_next reader) rfl hsave, Pass.next,
            a.follows.fingerprints, hfiles, htime]
          rfl

end Project

namespace Trial

/-- A disk on which no file takes the place of another. -/
def worn : Medium where
  refusal? _
    | .rename _ => some .storageFull
    | _ => none

/-- On that disk the second sync imports what it would, and fails and leaves the tree as it was. -/
theorem fails_second (m : Memory) : ∃ f,
    project.syncOn worn Memory.backend reader 0 false ⟨second.files, m⟩ =
      (.error (.failure f), ⟨second.files, { m with store := after.store reader m.store }⟩) := by
  have hrefused : ((after.next reader).saveOn worn second.files project.statePath 0).1 =
      second.files ∧ ((after.next reader).saveOn worn second.files project.statePath 0).2.toOption =
      none := by decide +kernel
  cases hsave : (after.next reader).saveOn worn second.files project.statePath 0 with
  | mk fs saved =>
    rw [hsave] at hrefused
    cases saved with
    | ok _ => cases hrefused.2
    | error e =>
      obtain ⟨_, rfl, hsync⟩ := Turn.syncOn_eq state_second (make_grown "b.ts" source) hsave m
      obtain rfl : fs = second.files := hrefused.1
      exact ⟨_, hsync⟩

/-- The second sync fails on the worn disk and leaves the state that is there; where it can be saved, it
leaves its own. -/
theorem written_second : ∃ f r w w', second.files.isFile project.statePath = true ∧
    project.syncOn worn Memory.backend reader 0 false ⟨second.files, .empty⟩ =
      (.error (.failure f), w) ∧
    second.files.Untouched project.statePath w.files ∧
    project.syncOn .willing Memory.backend reader 0 false ⟨second.files, .empty⟩ = (.ok r, w') ∧
    ∃ a, project.pass? second.sound second.signed false = some a ∧
      (∃ before written, Memory.backend.importBatch (a.batch reader).nodes (a.imported reader) before =
        (.ok written, w'.backend)) ∧
      SyncState.load w'.files project.statePath =
        ⟨0, project.scan second.files, a.symbols reader, "2"⟩ := by
  obtain ⟨f, hfails⟩ := fails_second .empty
  obtain ⟨fs', _, r, hleads⟩ := leads_second .empty
  obtain ⟨huntouched, _⟩ := Project.state_written_last (w := ⟨second.files, Memory.empty⟩)
    second.sound second.signed hfails
  obtain ⟨_, hwritten⟩ := Project.state_written_last (w := ⟨second.files, Memory.empty⟩)
    second.sound second.signed hleads
  exact ⟨f, r, _, _, by decide +kernel, hfails, huntouched _ rfl, hleads, hwritten r rfl⟩

end Trial

end CodeAtlas
