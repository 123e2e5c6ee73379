/-
# The tree after a state was saved

Saving makes the directories on the way to the state file and writes the file. The tree that is left has
its entries in directories, as before (`SyncState.rooted_of_saveOn`), and differs from the tree that was
only in those directories and that file (`FileSystem.GrowsBeside`), so that a project of which the state
file is no source has the same source files with the same fingerprints (`Project.scan_of_saveOn`). Since
the directory of the state file is there now, and the file is a file, a state can be saved there again
(`SyncState.exists_save`).

Key definitions: `FileSystem.GrowsBeside`, `Project.ScansState`.
Key theorems: `SyncState.rooted_of_saveOn`, `SyncState.growsBeside_of_saveOn`, `SyncState.exists_save`,
`Project.scan_of_saveOn`.
-/
import CodeAtlas.Proofs.Saving

namespace CodeAtlas

namespace FileSystem

variable {fs fs' : FileSystem} {m : Medium} {path : String} {names : List String}

/-! ### Entries in directories -/

/-- Pieces lead from names to names. -/
theorem named_of_follow : ∀ {ps s r : List String}, (∀ p ∈ ps, '/' ∉ p.toList) →
    (∀ n ∈ s, Path.IsName n) → fs.follow s ps = .ok r → ∀ n ∈ r, Path.IsName n
  | [], _, _, _, hs, h => by
    cases h
    exact hs
  | p :: ps, s, r, hp, hs, h => by
    rw [List.forall_mem_cons] at hp
    rw [follow_cons (entry?_of_follow h)] at h
    refine named_of_follow hp.2 (fun n hn => ?_) h
    rw [nextNames] at hn
    split at hn
    · exact hs n hn
    · rename_i hsolid
      split at hn
      · exact hs n (List.dropLast_subset _ hn)
      · rename_i hup
        rcases List.mem_append.mp hn with hn | hn
        · exact hs n hn
        · rw [List.mem_singleton] at hn
          subst hn
          exact ⟨by simpa using hsolid, by simpa using hup, hp.1⟩

namespace Rooted

theorem named_of_locate (h : fs.Rooted) (hl : fs.locate path = .ok names) :
    ∀ n ∈ names, Path.IsName n := by
  rw [locate_eq (ne_empty_of_locate hl)] at hl
  exact named_of_follow (fun p hp => Path.not_mem_of_mem_pieces hp)
    (h.named (directory_startOf h.cwd path)) hl

/-- An entry put into a directory, where no directory was, is in a directory, and so are the others. -/
theorem put (h : fs.Rooted) (hnamed : ∀ n ∈ names, Path.IsName n)
    (hparent : fs.entry? names.dropLast = some .directory) (hnd : fs.entry? names ≠ some .directory)
    (e : Entry) : (fs.put names e).Rooted := by
  have hne := ne_nil_of_not_directory hnd
  refine ⟨fun {q f} hq => ?_, fun {q f} hq => ?_, directory_put e hnd h.cwd⟩
  · rw [entry?_put hne] at hq
    split at hq
    · rename_i heq
      exact heq ▸ hnamed
    · exact h.named hq
  · rw [entry?_put hne] at hq
    split at hq
    · rename_i heq
      exact directory_put e hnd (heq ▸ hparent)
    · exact directory_put e hnd (h.parent hq)

theorem makeDir (h : fs.Rooted) (hmake : fs.makeDir path = .ok fs') : fs'.Rooted := by
  obtain ⟨names, hl, hnone, hparent, rfl⟩ := makeDir_eq_ok hmake
  exact h.put (h.named_of_locate hl) hparent (by rw [hnone]; nofun) .directory

theorem makeDirsFrom (h : fs.Rooted) (m : Medium) (fuel : Nat) (path : String) :
    (makeDirsFrom m fuel fs path).1.Rooted :=
  makeDirsFrom_rel (R := fun a b => a.Rooted → b.Rooted) (fun _ => id) (fun hab hbc ha => hbc (hab ha))
    (fun hmake ha => ha.makeDir hmake) m fuel fs path h

theorem write (h : fs.Rooted) {content : List UInt8} {mtime : Int}
    (hw : fs.write path content mtime = .ok fs') : fs'.Rooted := by
  obtain ⟨names, hl, hnd, hparent, rfl⟩ := write_eq_ok hw
  refine h.put (h.named_of_locate hl) ?_ hnd _
  cases he : fs.entry? names with
  | none => exact hparent he
  | some e => exact h.parent he

end Rooted

/-! ### The directory that was made -/

theorem isDirectory_iff : fs.isDirectory path = true ↔
    ∃ names, fs.locate path = .ok names ∧ fs.entry? names = some .directory := by
  unfold isDirectory
  cases hf : fs.find path with
  | error err =>
    refine ⟨nofun, fun ⟨names, hl, he⟩ => ?_⟩
    rw [find_eq_ok_iff.mpr ⟨names, hl, he⟩] at hf
    cases hf
  | ok e =>
    obtain ⟨names, hl, he⟩ := find_eq_ok_iff.mp hf
    cases e with
    | directory => simp [hl, he, Entry.isFile]
    | file c t => simp [hl, he, Entry.isFile]

theorem isDirectory_of_makeDir (hcwd : fs.entry? fs.cwd = some .directory) (hpath : path ≠ "")
    (h : fs.makeDir path = .ok fs') : fs'.isDirectory path = true := by
  have hgrows := grows_makeDir h
  obtain ⟨names, hl, hnone, _, rfl⟩ := makeDir_eq_ok h
  have hd : entry? (fs.put names .directory) names = some .directory := by
    rw [entry?_put (ne_nil_of_not_directory (by rw [hnone]; nofun)), if_pos rfl]
  refine isDirectory_iff.mpr ⟨names, ?_, hd⟩
  exact locate_of_segments (hgrows.kept hcwd) hpath (Path.segments_trimmed path).symm
    (locate_mono (fun _ => hgrows.kept) rfl hl) hd

/-- A directory that was to be made with those it is in is there if all went well. -/
theorem isDirectory_of_makeDirsFrom (h : fs.Rooted) (hpath : path ≠ "") : ∀ {fuel : Nat},
    makeDirsFrom m fuel fs path = (fs', .ok ()) → fs'.isDirectory path = true
  | 0, hmake => by cases hmake
  | fuel + 1, hmake => by
    have hensure : ∀ {g}, g.Rooted → ensureDir m g path = .ok fs' → fs'.isDirectory path = true := by
      intro g hg hok
      rcases ensureDir_eq_ok hok with hmade | ⟨rfl, hdir⟩
      · exact isDirectory_of_makeDir hg.cwd hpath hmade
      · exact hdir
    unfold makeDirsFrom at hmake
    rw [if_neg (by simpa using hpath)] at hmake
    split at hmake
    · rename_i hok
      cases hmake
      exact hensure h hok
    · split at hmake
      · cases hmake
      · split at hmake
        · cases hmake
        · rename_i parent _ _ g hparent
          have hg : g.Rooted := by
            have := h.makeDirsFrom m fuel parent
            rwa [hparent] at this
          split at hmake
          · rename_i hok
            cases hmake
            exact hensure hg hok
          · cases hmake
    · cases hmake

theorem exists_ensureDir (m : Medium) (h : fs.isDirectory path = true) :
    ∃ g, ensureDir m fs path = .ok g ∧ fs.Grows g := by
  have hok : ∃ g, ensureDir m fs path = .ok g := by
    unfold ensureDir
    split
    · exact ⟨_, rfl⟩
    · exact ⟨fs, if_pos h⟩
  obtain ⟨g, hg⟩ := hok
  rcases ensureDir_eq_ok hg with hmade | ⟨rfl, _⟩
  · exact ⟨g, hg, grows_makeDir hmade⟩
  · exact ⟨g, hg, .refl g⟩

/-- A file can be written over. -/
theorem exists_write (h : fs.isFile path = true) (content : List UInt8) (mtime : Int) :
    ∃ fs', fs.write path content mtime = .ok fs' := by
  obtain ⟨names, c, t, hl, he⟩ := isFile_iff.mp h
  refine ⟨fs.put names (.file (.bytes content) mtime), ?_⟩
  rw [write, hl]
  simp only [bind, Except.bind, he]

/-! ### Files elsewhere -/

/-- Directories may have been made and the file that the names lead to written; nothing else was
changed. -/
structure GrowsBeside (names : List String) (fs fs' : FileSystem) : Prop where
  cwd : fs'.cwd = fs.cwd
  directory : ∀ {n}, fs.entry? n = some .directory → fs'.entry? n = some .directory
  file : ∀ {n c t}, n ≠ names → (fs'.entry? n = some (.file c t) ↔ fs.entry? n = some (.file c t))

theorem growsBeside_put {g : FileSystem} (h : fs.Grows g) (hnd : g.entry? names ≠ some .directory)
    (e : Entry) : fs.GrowsBeside names (g.put names e) where
  cwd := h.cwd
  directory hd := directory_put e hnd (h.kept hd)
  file hne := by rw [entry?_put (ne_nil_of_not_directory hnd), if_neg hne, h.file_iff]

end FileSystem

/-! ### Saving -/

namespace SyncState

variable {disk : Medium} {s : SyncState} {fs fs' : FileSystem} {path : String} {now : Int}

theorem directoryOf_ne_empty (path : String) : directoryOf path ≠ "" := by
  unfold directoryOf
  split
  · split
    · decide
    · rename_i h
      simpa using h
  · decide

theorem rooted_of_saveOn (hr : fs.Rooted) (h : s.saveOn disk fs path now = (fs', .ok ())) :
    fs'.Rooted := by
  obtain ⟨g, hmake, hwrite⟩ := saveOn_eq_ok h
  have hg : g.Rooted := by
    have := hr.makeDirsFrom disk ((directoryOf path).length + 1) (directoryOf path)
    rwa [show FileSystem.makeDirsFrom disk _ fs (directoryOf path) = (g, .ok ()) from hmake] at this
  exact hg.write hwrite

/-- Saving changes nothing but the state file and the directories on the way to it. -/
theorem growsBeside_of_saveOn (h : s.saveOn disk fs path now = (fs', .ok ())) :
    ∃ names, fs'.locate path = .ok names ∧ (∃ c t, fs'.entry? names = some (.file c t)) ∧
      fs.GrowsBeside names fs' := by
  obtain ⟨g, hmake, hwrite⟩ := saveOn_eq_ok h
  have hgrows : fs.Grows g := by
    have := FileSystem.grows_makeDirsFrom disk ((directoryOf path).length + 1) fs (directoryOf path)
    rwa [show FileSystem.makeDirsFrom disk _ fs (directoryOf path) = (g, .ok ()) from hmake] at this
  obtain ⟨names, hl, hnd, _, rfl⟩ := FileSystem.write_eq_ok hwrite
  refine ⟨names, FileSystem.locate_mono (fun _ => FileSystem.directory_put _ hnd) rfl hl, ?_,
    FileSystem.growsBeside_put hgrows hnd _⟩
  exact ⟨_, _, by rw [FileSystem.entry?_put (FileSystem.ne_nil_of_not_directory hnd), if_pos rfl]⟩

/-- After saving, the directory of the state file is there. -/
theorem isDirectory_of_saveOn (hr : fs.Rooted) (h : s.saveOn disk fs path now = (fs', .ok ())) :
    fs'.isDirectory (directoryOf path) = true := by
  obtain ⟨g, hmake, hwrite⟩ := saveOn_eq_ok h
  have hdir := FileSystem.isDirectory_of_makeDirsFrom hr (directoryOf_ne_empty path) hmake
  obtain ⟨names, hl, hd⟩ := FileSystem.isDirectory_iff.mp hdir
  obtain ⟨_, _, hnd, _, rfl⟩ := FileSystem.write_eq_ok hwrite
  exact FileSystem.isDirectory_iff.mpr ⟨names,
    FileSystem.locate_mono (fun _ => FileSystem.directory_put _ hnd) rfl hl,
    FileSystem.directory_put _ hnd hd⟩

/-- Where the directory of the state file is there, and the file is a file, a state can be saved. -/
theorem exists_save (hdir : fs.isDirectory (directoryOf path) = true) (hfile : fs.isFile path = true)
    (s : SyncState) (now : Int) : ∃ fs', s.save fs path now = (fs', .ok ()) := by
  obtain ⟨g, hensure, hgrows⟩ := FileSystem.exists_ensureDir .willing hdir
  have hmake : fs.makeDirsOn .willing (directoryOf path) = (g, .ok ()) := by
    rw [FileSystem.makeDirsOn, FileSystem.makeDirsFrom,
      if_neg (by simpa using directoryOf_ne_empty path), hensure]
  have hfile' : g.isFile path = true := hgrows.isFile hfile
  obtain ⟨fs', hwrite⟩ := FileSystem.exists_write hfile' (Ident.bytes s.text) now
  have hreplace : g.replaceOn .willing (directoryOf path) path (Ident.bytes s.text) now = .ok fs' :=
    hwrite
  exact ⟨fs', by rw [save, saveOn, hmake]; simp only [hreplace]⟩

end SyncState

/-! ### The source files -/

namespace Project

/-- The state file is one of the source files. -/
def ScansState (p : Project) (fs : FileSystem) : Prop :=
  ∃ path ∈ fs.discover p.root p.extraction, fs.locate path = fs.locate p.statePath

instance (p : Project) (fs : FileSystem) : Decidable (p.ScansState fs) := by
  unfold ScansState
  infer_instance

section Beside

variable {p : Project} {fs fs' : FileSystem} {names : List String}
  (hs : fs.Rooted) (hs' : fs'.Rooted) (h : fs.GrowsBeside names fs')
  (hl : fs'.locate p.statePath = .ok names) (hfile : ∃ c t, fs'.entry? names = some (.file c t))
  (hapart : ¬ p.ScansState fs')
include hs' h hl hfile hapart

/-- The files that belong to a project are beside its state. -/
theorem ne_of_belongs {base rest : List String} (hroot : fs'.locate p.root = .ok base)
    (hdir : fs'.entry? base = some .directory)
    (hb : FileSystem.belongs p.extraction rest = true) : base ++ rest ≠ names := by
  rintro rfl
  obtain ⟨c, t, he⟩ := hfile
  refine hapart ⟨Path.join p.root (Path.ofParts rest), ?_, ?_⟩
  · rw [FileSystem.discover, hroot]
    simp only [hdir]
    exact List.mem_map.mpr ⟨rest, FileSystem.mem_sourceNames.mpr ⟨hb, c, t, he⟩, rfl⟩
  · rw [hs'.locate_below hroot (FileSystem.ne_nil_of_belongs hb) he, hl]

theorem discover_beside (hne : fs.discover p.root p.extraction ≠ []) :
    fs'.discover p.root p.extraction = fs.discover p.root p.extraction := by
  obtain ⟨path, hpath⟩ := List.exists_mem_of_ne_nil _ hne
  obtain ⟨base, hroot, hcase⟩ := FileSystem.mem_discover hpath
  have hroot' : fs'.locate p.root = .ok base := FileSystem.locate_mono (fun _ => h.directory) h.cwd hroot
  rcases hcase with ⟨rfl, hallows, c, t, he⟩ | ⟨hdir, _⟩
  · -- the root is a file, and the state is another
    have hbase : base ≠ names := by
      rintro rfl
      obtain ⟨c', t', he'⟩ := hfile
      refine hapart ⟨p.root, ?_, hroot'.trans hl.symm⟩
      rw [FileSystem.discover, hroot']
      simp [he', hallows]
    rw [FileSystem.discover, FileSystem.discover, hroot, hroot']
    simp only [he, (h.file hbase).mpr he]
  · have hdir' := h.directory hdir
    rw [FileSystem.discover, FileSystem.discover, hroot, hroot']
    simp only [hdir, hdir']
    rw [FileSystem.sourceNames_congr fun rest hb c t =>
      h.file (ne_of_belongs hs' h hl hfile hapart hroot' hdir' hb)]

include hs in
/-- Beside the state, the scan is as it was. -/
theorem scan_beside (hne : (p.scan fs).isEmpty = false) : p.scan fs' = p.scan fs := by
  have hne' : fs.discover p.root p.extraction ≠ [] := by
    intro hnil
    rw [scan, FingerprintMap.scan, hnil] at hne
    cases hne
  have hdiscover := discover_beside hs' h hl hfile hapart hne'
  rw [scan, scan, FingerprintMap.scan, FingerprintMap.scan, hdiscover]
  congr 1
  refine List.map_congr_left fun path hpath => ?_
  obtain ⟨n, c, t, hloc, he⟩ := hs.locate_discover hpath
  have hloc' : fs'.locate path = .ok n := FileSystem.locate_mono (fun _ => h.directory) h.cwd hloc
  have hn : n ≠ names := by
    rintro rfl
    exact hapart ⟨path, hdiscover ▸ hpath, hloc'.trans hl.symm⟩
  have hfind : fs'.find path = fs.find path := by
    rw [FileSystem.find_eq_ok_iff.mpr ⟨n, hloc, he⟩,
      FileSystem.find_eq_ok_iff.mpr ⟨n, hloc', (h.file hn).mpr he⟩]
  unfold Fingerprint.of FileSystem.read
  rw [hfind]

end Beside

/-- Saving the state of a project, of which it is no source, leaves its source files as they were. -/
theorem scan_of_saveOn {p : Project} {disk : Medium} {s : SyncState} {fs fs' : FileSystem} {now : Int}
    (hs : fs.Rooted) (hsave : s.saveOn disk fs p.statePath now = (fs', .ok ()))
    (hapart : ¬ p.ScansState fs') (hne : (p.scan fs).isEmpty = false) : p.scan fs' = p.scan fs := by
  obtain ⟨names, hl, hfile, hbeside⟩ := SyncState.growsBeside_of_saveOn hsave
  exact scan_beside hs (SyncState.rooted_of_saveOn hs hsave) hbeside hl hfile hapart hne

end Project

end CodeAtlas
