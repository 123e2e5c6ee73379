/-
# Following paths through a tree of files

What a path leads to depends only on which names are directories, and grows with them
(`FileSystem.follow_mono`). So a file that was just written is read back from the path it was written
to (`FileSystem.read_of_write`), and taking a file out changes no path to another entry
(`FileSystem.locate_erase`).

A tree is sound when its entries are in directories, their names are names, and their sizes and times
fit into words. In a sound tree a path that leads to a file ends in the name of the file
(`FileSystem.fileName?_of_locate`). What a sound tree has besides sizes and times that fit is that it is
rooted (`FileSystem.Rooted`); a tree stays so whatever is written to it.

Key definitions: `FileSystem.Sound`, `FileSystem.Rooted`, `FileSystem.content?`.
Key theorems: `FileSystem.follow_append`, `FileSystem.follow_mono`, `FileSystem.read_of_write`,
`FileSystem.locate_erase`, `FileSystem.locate_join`, `FileSystem.fileName?_of_locate`.
-/
import CodeAtlas.Binary64
import CodeAtlas.Project.FileSystem
import CodeAtlas.Proofs.Paths
import CodeAtlas.Proofs.SortedMap

namespace CodeAtlas.FileSystem

/-! ### Entries -/

@[simp] theorem entry?_nil (fs : FileSystem) : fs.entry? [] = some .directory := rfl

theorem entry?_of_ne_nil {fs : FileSystem} {names : List String} (h : names ≠ []) :
    fs.entry? names = fs.entries.get? names := by
  unfold entry?
  simp [h]

theorem entry?_put {fs : FileSystem} {names : List String} (hn : names ≠ []) (e : Entry)
    (q : List String) : entry? (fs.put names e) q = if q = names then some e else fs.entry? q := by
  by_cases hq : q = []
  · subst hq
    rw [if_neg (Ne.symm hn)]
    rfl
  · rw [entry?_of_ne_nil hq, entry?_of_ne_nil hq, put, SortedMap.get?_insert_eq]

theorem entry?_erase {fs : FileSystem} {names : List String} (hn : names ≠ []) (q : List String) :
    entry? { fs with entries := fs.entries.erase names } q =
      if q = names then none else fs.entry? q := by
  by_cases hq : q = []
  · subst hq
    rw [if_neg (Ne.symm hn)]
    rfl
  · rw [entry?_of_ne_nil hq, entry?_of_ne_nil hq, SortedMap.get?_erase_eq]
    by_cases h : names = q
    · rw [if_pos h, if_pos h.symm]
    · rw [if_neg h, if_neg (Ne.symm h)]

/-- The content of the file that names lead to. -/
def content? (fs : FileSystem) (names : List String) : Option Content :=
  match fs.entry? names with
  | some (.file content _) => some content
  | _ => none

/-! ### Following -/

/-- The names that a piece leads to from a directory. -/
def nextNames (s : List String) (piece : String) : List String :=
  if Path.isTrivial piece then s else if piece == ".." then s.dropLast else s ++ [piece]

theorem nextNames_name {piece : String} (h : Path.IsName piece) (s : List String) :
    nextNames s piece = s ++ [piece] := by
  simp [nextNames, h.solid, h.notUp]

theorem follow_cons {fs : FileSystem} {s : List String} (h : fs.entry? s = some .directory)
    (p : String) (ps : List String) : fs.follow s (p :: ps) = fs.follow (nextNames s p) ps := by
  rw [follow, h, nextNames]
  simp only
  split
  · rfl
  · split <;> rfl

theorem entry?_of_follow {fs : FileSystem} {s r : List String} {p : String} {ps : List String}
    (h : fs.follow s (p :: ps) = .ok r) : fs.entry? s = some .directory := by
  rw [follow] at h
  split at h
  · cases h
  · cases h
  · assumption

theorem follow_append (fs : FileSystem) (qs : List String) : ∀ (ps s : List String),
    fs.follow s (ps ++ qs) = (fs.follow s ps).bind fun n => fs.follow n qs
  | [], _ => rfl
  | p :: ps, s => by
    by_cases hd : fs.entry? s = some .directory
    · rw [List.cons_append, follow_cons hd, follow_cons hd, follow_append fs qs ps]
    · rw [List.cons_append, follow, follow]
      split
      · rfl
      · rfl
      · exact absurd ‹_› hd

/-- What pieces lead to, if they lead anywhere, does not depend on the tree. -/
theorem eq_foldl_of_follow {fs : FileSystem} : ∀ {ps s r : List String}, fs.follow s ps = .ok r →
    r = ps.foldl nextNames s
  | [], _, _, h => by
    cases h
    rfl
  | p :: ps, s, r, h => by
    rw [follow_cons (entry?_of_follow h)] at h
    rw [List.foldl_cons]
    exact eq_foldl_of_follow h

/-- Where more names are directories, a path that leads somewhere still leads there. -/
theorem follow_mono {fs fs' : FileSystem}
    (hd : ∀ n, fs.entry? n = some .directory → fs'.entry? n = some .directory) :
    ∀ (ps s : List String) {r : List String}, fs.follow s ps = .ok r → fs'.follow s ps = .ok r
  | [], _, _, h => h
  | p :: ps, s, r, h => by
    have hs := entry?_of_follow h
    rw [follow_cons hs] at h
    rw [follow_cons (hd s hs)]
    exact follow_mono hd ps _ h

/-- Pieces that mean nothing can be left out before a further piece. -/
theorem follow_solid (fs : FileSystem) (m : String) : ∀ ps s : List String,
    fs.follow s (ps ++ [m]) = fs.follow s (ps.filter (fun p => !Path.isTrivial p) ++ [m])
  | [], _ => rfl
  | p :: ps, s => by
    by_cases hd : fs.entry? s = some .directory
    · rw [List.cons_append, follow_cons hd, follow_solid fs m ps, List.filter_cons]
      by_cases hp : Path.isTrivial p = true
      · simp [nextNames, hp]
      · rw [if_pos (by simpa using hp), List.cons_append, follow_cons hd]
    · -- both lists have a piece, so both are stopped at the start
      cases hf : (p :: ps).filter (fun p => !Path.isTrivial p) ++ [m] with
      | nil => exact absurd hf (by simp)
      | cons q qs =>
        rw [List.cons_append, follow, follow]
        split
        · rfl
        · rfl
        · exact absurd ‹_› hd

theorem follow_filter {fs : FileSystem} : ∀ (ps s : List String) {r : List String},
    fs.follow s ps = .ok r → fs.follow s (ps.filter fun p => !Path.isTrivial p) = .ok r
  | [], _, _, h => h
  | p :: ps, s, r, h => by
    have hs := entry?_of_follow h
    rw [follow_cons hs] at h
    have ih := follow_filter ps _ h
    rw [List.filter_cons]
    by_cases hp : Path.isTrivial p = true
    · rw [if_neg (by simpa using hp)]
      simpa [nextNames, hp] using ih
    · rw [if_pos (by simpa using hp), follow_cons hs]
      exact ih

/-- Pieces that mean nothing can be left out on the way from a directory to a directory. -/
theorem follow_of_filter {fs : FileSystem} : ∀ (ps s : List String) {r : List String},
    fs.entry? s = some .directory → fs.entry? r = some .directory →
    fs.follow s (ps.filter fun p => !Path.isTrivial p) = .ok r → fs.follow s ps = .ok r
  | [], _, _, _, _, h => h
  | p :: ps, s, r, hs, hr, h => by
    rw [List.filter_cons] at h
    rw [follow_cons hs]
    by_cases hp : Path.isTrivial p = true
    · rw [if_neg (by simpa using hp)] at h
      rw [nextNames, if_pos hp]
      exact follow_of_filter ps s hs hr h
    · rw [if_pos (by simpa using hp), follow_cons hs] at h
      have hnext : fs.entry? (nextNames s p) = some .directory := by
        cases hf : ps.filter fun p => !Path.isTrivial p with
        | nil =>
          rw [hf] at h
          cases h
          exact hr
        | cons q qs =>
          rw [hf] at h
          exact entry?_of_follow h
      exact follow_of_filter ps _ hnext hr h

/-- Names lead one below the other, as long as they lead through directories. -/
theorem follow_names {fs : FileSystem} : ∀ (names base : List String),
    (∀ s ∈ names, Path.IsName s) →
    (∀ a b, names = a ++ b → b ≠ [] → fs.entry? (base ++ a) = some .directory) →
    fs.follow base names = .ok (base ++ names)
  | [], base, _, _ => by rw [follow, List.append_nil]
  | s :: names, base, hn, hd => by
    have hs := hn s List.mem_cons_self
    have hb := hd [] (s :: names) rfl (List.cons_ne_nil _ _)
    rw [List.append_nil] at hb
    rw [follow_cons hb, nextNames_name hs,
      follow_names names (base ++ [s]) (fun t ht => hn t (List.mem_cons_of_mem _ ht)) ?_]
    · rw [List.append_assoc, List.singleton_append]
    · intro a b hab hb
      rw [List.append_assoc, List.singleton_append]
      exact hd (s :: a) b (by rw [hab, List.cons_append]) hb

/-! ### Where paths lead -/

/-- Where a path is followed from. -/
def startOf (fs : FileSystem) (path : String) : List String :=
  if Path.isAbsolute path then [] else fs.cwd

theorem locate_eq {fs : FileSystem} {path : String} (h : path ≠ "") :
    fs.locate path = fs.follow (fs.startOf path) (Path.pieces path) := by
  have hp : (path == "") = false := by simpa using h
  rw [locate, hp, if_neg Bool.false_ne_true, startOf]
  split <;> rfl

theorem ne_empty_of_locate {fs : FileSystem} {path : String} {names : List String}
    (h : fs.locate path = .ok names) : path ≠ "" := by
  rintro rfl
  cases h

theorem locate_mono {fs fs' : FileSystem}
    (hd : ∀ n, fs.entry? n = some .directory → fs'.entry? n = some .directory)
    (hc : fs'.cwd = fs.cwd) {path : String} {names : List String}
    (h : fs.locate path = .ok names) : fs'.locate path = .ok names := by
  have hp := ne_empty_of_locate h
  rw [locate_eq hp] at h ⊢
  rw [show fs'.startOf path = fs.startOf path by rw [startOf, startOf, hc]]
  exact follow_mono hd _ _ h

theorem directory_startOf {fs : FileSystem} (hcwd : fs.entry? fs.cwd = some .directory)
    (path : String) : fs.entry? (fs.startOf path) = some .directory := by
  rw [startOf]
  split
  · rfl
  · exact hcwd

theorem startOf_eq (fs : FileSystem) (path : String) :
    fs.startOf path = if (Path.segments path).head? = some .root then [] else fs.cwd := by
  rw [startOf]
  by_cases h : Path.isAbsolute path = true
  · rw [if_pos h, if_pos (Path.isAbsolute_iff_head.mp h)]
  · rw [if_neg h, if_neg fun e => h (Path.isAbsolute_iff_head.mpr e)]

/-- Paths with the same segments lead to the same directories. -/
theorem locate_of_segments {fs : FileSystem} {path path' : String} {names : List String}
    (hcwd : fs.entry? fs.cwd = some .directory) (hpath : path ≠ "")
    (hseg : Path.segments path = Path.segments path') (hl : fs.locate path' = .ok names)
    (hd : fs.entry? names = some .directory) : fs.locate path = .ok names := by
  have hstart : fs.startOf path = fs.startOf path' := by rw [startOf_eq, startOf_eq, hseg]
  have hpieces : (Path.pieces path).filter (fun p => !Path.isTrivial p) =
      (Path.pieces path').filter fun p => !Path.isTrivial p := by
    rw [← Path.filterMap_piece?, ← Path.filterMap_piece?, hseg]
  rw [locate_eq (ne_empty_of_locate hl)] at hl
  rw [locate_eq hpath]
  refine follow_of_filter _ _ (directory_startOf hcwd path) hd ?_
  rw [hstart, hpieces]
  exact follow_filter _ _ hl

theorem startOf_join {fs : FileSystem} {base path : String} (hb : base ≠ "")
    (hp : Path.isAbsolute path = false) : fs.startOf (Path.join base path) = fs.startOf base := by
  rw [startOf, startOf, Path.isAbsolute_join hb hp]

/-- Where a name within a directory leads depends on the segments of the directory alone. -/
theorem locate_join_name (fs : FileSystem) (dir : String) {m : String} (hm : Path.IsName m) :
    fs.locate (Path.join dir m) =
      fs.follow (if (Path.segments dir).head? = some .root then [] else fs.cwd)
        ((Path.segments dir).filterMap Segment.piece? ++ [m]) := by
  have ha := Path.isAbsolute_name hm
  by_cases hd : dir = ""
  · subst hd
    have hj : Path.join "" m = m := by simp [Path.join]
    rw [hj, locate_eq hm.ne_empty, startOf, ha, Path.pieces_of_not_mem hm.noSlash]
    rfl
  · obtain ⟨lead, hl, hlead, hp⟩ := Path.exists_pieces_join hd ha
    have hfilter : lead.filter (fun p => !Path.isTrivial p) =
        (Path.pieces dir).filter fun p => !Path.isTrivial p := by
      rcases hlead with h | h
      · rw [h]
      · rw [h, List.filter_append, show [""].filter (fun p => !Path.isTrivial p) = [] by decide,
          List.append_nil]
    rw [locate_eq (Path.join_ne_empty hd ha), startOf_join hd ha, hp,
      Path.pieces_of_not_mem hm.noSlash, follow_solid, hfilter, Path.filterMap_piece?, startOf_eq]

/-- Names joined to a path that leads to a directory are followed from there. -/
theorem locate_join {fs : FileSystem} {root : String} {base names : List String}
    (hr : fs.locate root = .ok base) (hn : names ≠ []) (h : ∀ s ∈ names, Path.IsName s) :
    fs.locate (Path.join root (Path.ofParts names)) = fs.follow base names := by
  have hroot := ne_empty_of_locate hr
  have ha := Path.isAbsolute_ofParts h
  obtain ⟨lead, hl, hlead, hp⟩ := Path.exists_pieces_join hroot ha
  rw [Path.pieces_ofParts hn fun s hs => (h s hs).noSlash] at hp
  rw [locate_eq hroot] at hr
  have hlead' : fs.follow (fs.startOf root) lead = .ok base := by
    rcases hlead with hl' | hl'
    · rwa [← hl']
    · rw [hl', follow_append] at hr
      cases hf : fs.follow (fs.startOf root) lead with
      | error e => rw [hf] at hr; cases hr
      | ok n =>
        rw [hf] at hr
        have hr : fs.follow n [""] = .ok base := hr
        rw [follow_cons (entry?_of_follow hr)] at hr
        cases hr
        rfl
  rw [locate_eq (Path.join_ne_empty hroot ha), startOf_join hroot ha, hp, follow_append, hlead']
  rfl

/-! ### Reading -/

theorem find_eq_ok_iff {fs : FileSystem} {path : String} {e : Entry} :
    fs.find path = .ok e ↔ ∃ names, fs.locate path = .ok names ∧ fs.entry? names = some e := by
  unfold find
  cases fs.locate path with
  | error err => exact ⟨nofun, nofun⟩
  | ok names =>
    simp only [bind, Except.bind, Except.ok.injEq, exists_eq_left']
    cases fs.entry? names with
    | none => simp
    | some e' => simp

theorem read_eq_ok_iff {fs : FileSystem} {path : String} {c : List UInt8} :
    fs.read path = .ok c ↔
      ∃ names, fs.locate path = .ok names ∧ fs.content? names = some (.bytes c) := by
  unfold read find content?
  cases fs.locate path with
  | error err => exact ⟨nofun, nofun⟩
  | ok names =>
    simp only [bind, Except.bind, Except.ok.injEq, exists_eq_left']
    cases fs.entry? names with
    | none => simp
    | some e =>
      cases e with
      | directory => simp
      | file content t => cases content <;> simp

theorem content?_eq_some_iff {fs : FileSystem} {names : List String} {c : Content} :
    fs.content? names = some c ↔ ∃ t, fs.entry? names = some (.file c t) := by
  unfold content?
  cases fs.entry? names with
  | none => simp
  | some e => cases e <;> simp

/-- The content of the file that a path leads to. -/
def contentAt? (fs : FileSystem) (path : String) : Option Content :=
  (fs.locate path).toOption.bind fs.content?

theorem contentAt?_of_locate {fs : FileSystem} {path : String} {names : List String}
    (h : fs.locate path = .ok names) : fs.contentAt? path = fs.content? names := by
  rw [contentAt?, h]
  rfl

theorem contentAt?_eq_some_iff {fs : FileSystem} {path : String} {c : Content} :
    fs.contentAt? path = some c ↔
      ∃ names t, fs.locate path = .ok names ∧ fs.entry? names = some (.file c t) := by
  cases hl : fs.locate path with
  | error err => simp [contentAt?, hl, Except.toOption]
  | ok names => simp [contentAt?_of_locate hl, content?_eq_some_iff]

/-- What is read of a file is its content, unless that is withheld. -/
theorem toOption_read (fs : FileSystem) (path : String) :
    (fs.read path).toOption = (fs.contentAt? path).bind Content.bytes? := by
  unfold read find contentAt? content?
  cases fs.locate path with
  | error err => rfl
  | ok names =>
    simp only [bind, Except.bind, Except.toOption, Option.bind_some]
    cases fs.entry? names with
    | none => rfl
    | some e =>
      cases e with
      | directory => rfl
      | file content t => cases content <;> rfl

theorem isFile_eq (fs : FileSystem) (path : String) :
    fs.isFile path = (fs.contentAt? path).isSome := by
  unfold isFile find contentAt? content?
  cases fs.locate path with
  | error err => rfl
  | ok names =>
    simp only [bind, Except.bind, Except.toOption, Option.bind_some]
    cases fs.entry? names with
    | none => rfl
    | some e => cases e <;> rfl

theorem isFile_iff {fs : FileSystem} {path : String} : fs.isFile path = true ↔
    ∃ names c t, fs.locate path = .ok names ∧ fs.entry? names = some (.file c t) := by
  rw [isFile_eq, Option.isSome_iff_exists]
  constructor
  · rintro ⟨c, hc⟩
    obtain ⟨names, t, hl, he⟩ := contentAt?_eq_some_iff.mp hc
    exact ⟨names, c, t, hl, he⟩
  · rintro ⟨names, c, t, hl, he⟩
    exact ⟨c, contentAt?_eq_some_iff.mpr ⟨names, t, hl, he⟩⟩

theorem isFile_of_read {fs : FileSystem} {path : String} {c : List UInt8}
    (h : fs.read path = .ok c) : fs.isFile path = true := by
  obtain ⟨names, hl, hc⟩ := read_eq_ok_iff.mp h
  obtain ⟨t, he⟩ := content?_eq_some_iff.mp hc
  exact isFile_iff.mpr ⟨names, _, t, hl, he⟩

theorem checkParent_eq_ok_iff {fs : FileSystem} {names : List String} :
    fs.checkParent names = .ok () ↔ fs.entry? names.dropLast = some .directory := by
  unfold checkParent
  split
  · simp [*]
  · simp [*]
  · simp [*]

/-- What writing does: the path leads to a file, or to nothing in a directory, and the file is put
there. -/
theorem write_eq_ok {fs fs' : FileSystem} {path : String} {content : List UInt8} {mtime : Int}
    (h : fs.write path content mtime = .ok fs') : ∃ names, fs.locate path = .ok names ∧
      fs.entry? names ≠ some .directory ∧
      (fs.entry? names = none → fs.entry? names.dropLast = some .directory) ∧
      fs' = fs.put names (.file (.bytes content) mtime) := by
  unfold write at h
  cases hl : fs.locate path with
  | error err => rw [hl] at h; cases h
  | ok names =>
    rw [hl] at h
    simp only [bind, Except.bind] at h
    refine ⟨names, rfl, ?_⟩
    cases he : fs.entry? names with
    | none =>
      rw [he] at h
      cases hc : fs.checkParent names with
      | error err => rw [hc] at h; cases h
      | ok u =>
        rw [hc] at h
        cases h
        exact ⟨nofun, fun _ => checkParent_eq_ok_iff.mp hc, rfl⟩
    | some e =>
      rw [he] at h
      cases e with
      | directory => cases h
      | file c t =>
        cases h
        exact ⟨nofun, nofun, rfl⟩

theorem ne_nil_of_not_directory {fs : FileSystem} {names : List String}
    (h : fs.entry? names ≠ some .directory) : names ≠ [] := by
  rintro rfl
  exact h rfl

/-- A file put where no directory is leaves the directories. -/
theorem directory_put {fs : FileSystem} {names n : List String} (e : Entry)
    (h : fs.entry? names ≠ some .directory) (hn : fs.entry? n = some .directory) :
    entry? (fs.put names e) n = some .directory := by
  rw [entry?_put (ne_nil_of_not_directory h), if_neg]
  · exact hn
  · rintro rfl
    exact h hn

/-- What was written to a path is read from it. -/
theorem read_of_write {fs fs' : FileSystem} {path : String} {content : List UInt8} {mtime : Int}
    (h : fs.write path content mtime = .ok fs') : fs'.read path = .ok content := by
  obtain ⟨names, hl, hnd, _, rfl⟩ := write_eq_ok h
  -- the written name was no directory, so the way to it is as before
  refine read_eq_ok_iff.mpr ⟨names, locate_mono (fun n => directory_put _ hnd) rfl hl, ?_⟩
  rw [content?, entry?_put (ne_nil_of_not_directory hnd), if_pos rfl]

/-- A file that was replaced was written. -/
theorem write_of_replaceOn {m : Medium} {fs fs' : FileSystem} {dir path : String}
    {content : List UInt8} {mtime : Int} (h : fs.replaceOn m dir path content mtime = .ok fs') :
    fs.write path content mtime = .ok fs' := by
  unfold replaceOn at h
  simp only [bind, Except.bind] at h
  split at h
  · cases h
  · split at h
    · cases h
    · split at h
      · cases h
      · exact h

/-! ### Sound trees -/

/-- Entries are in directories and have names, and their sizes and times fit into words. -/
structure Sound (fs : FileSystem) : Prop where
  named : ∀ {names e}, fs.entries.get? names = some e → ∀ s ∈ names, Path.IsName s
  parent : ∀ {names e}, fs.entries.get? names = some e → fs.entry? names.dropLast = some .directory
  cwd : fs.entry? fs.cwd = some .directory
  size : ∀ {names c t}, fs.entries.get? names = some (.file c t) →
    c.size < twoTo 64 ∧ Word.isSigned t = true

/-- Soundness is checked entry by entry. -/
theorem sound_iff {fs : FileSystem} : fs.Sound ↔ fs.entry? fs.cwd = some .directory ∧
    ∀ e ∈ fs.entries.entries, (∀ s ∈ e.1, Path.IsName s) ∧
      fs.entry? e.1.dropLast = some .directory ∧
      e.2.size < twoTo 64 ∧ Word.isSigned e.2.mtime = true := by
  constructor
  · refine fun h => ⟨h.cwd, fun e he => ?_⟩
    have hget := SortedMap.get?_of_mem_entries he
    refine ⟨h.named hget, h.parent hget, ?_⟩
    cases hentry : e.2 with
    | directory => exact ⟨by decide, by decide⟩
    | file c t => exact h.size (hentry ▸ hget)
  · rintro ⟨hcwd, h⟩
    exact ⟨fun hg => (h _ (SortedMap.get?_eq_some_iff.mp hg)).1,
      fun hg => (h _ (SortedMap.get?_eq_some_iff.mp hg)).2.1, hcwd,
      fun hg => (h _ (SortedMap.get?_eq_some_iff.mp hg)).2.2⟩

instance (fs : FileSystem) : Decidable fs.Sound := decidable_of_iff _ sound_iff.symm

/-- Entries are in directories and have names, whatever their sizes and times. -/
structure Rooted (fs : FileSystem) : Prop where
  named : ∀ {names e}, fs.entry? names = some e → ∀ s ∈ names, Path.IsName s
  parent : ∀ {names e}, fs.entry? names = some e → fs.entry? names.dropLast = some .directory
  cwd : fs.entry? fs.cwd = some .directory

/-- The names on the way to an entry lead to directories. -/
theorem Rooted.directory_of_append {fs : FileSystem} (h : fs.Rooted) :
    ∀ (rest base : List String) {e : Entry}, fs.entry? (base ++ rest) = some e → rest ≠ [] →
      fs.entry? base = some .directory
  | [], _, _, _, hne => absurd rfl hne
  | s :: rest, base, e, he, _ => by
    rw [← List.singleton_append, ← List.append_assoc] at he
    have hs : ∃ e', fs.entry? (base ++ [s]) = some e' := by
      by_cases hr : rest = []
      · rw [hr, List.append_nil] at he
        exact ⟨e, he⟩
      · exact ⟨_, directory_of_append h rest (base ++ [s]) he hr⟩
    obtain ⟨e', he'⟩ := hs
    simpa using h.parent he'

namespace Sound

variable {fs : FileSystem}

theorem parent' (h : fs.Sound) {names : List String} {e : Entry} (he : fs.entry? names = some e) :
    fs.entry? names.dropLast = some .directory := by
  by_cases hn : names = []
  · subst hn
    rfl
  · exact h.parent (entry?_of_ne_nil hn ▸ he)

theorem named' (h : fs.Sound) {names : List String} {e : Entry} (he : fs.entry? names = some e) :
    ∀ s ∈ names, Path.IsName s := by
  by_cases hn : names = []
  · subst hn
    simp
  · exact h.named (entry?_of_ne_nil hn ▸ he)

theorem rooted (h : fs.Sound) : fs.Rooted := ⟨h.named', h.parent', h.cwd⟩

/-- The names on the way to an entry lead to directories. -/
theorem directory_of_append (h : fs.Sound) (rest base : List String) {e : Entry}
    (he : fs.entry? (base ++ rest) = some e) (hne : rest ≠ []) : fs.entry? base = some .directory :=
  h.rooted.directory_of_append rest base he hne

theorem start (h : fs.Sound) (path : String) : fs.entry? (fs.startOf path) = some .directory :=
  directory_startOf h.cwd path

end Sound

theorem last_of_follow {fs : FileSystem} (hs : fs.Rooted) : ∀ (ps s : List String) {r : List String}
    {c : Content} {t : Int}, fs.entry? s = some .directory → fs.follow s ps = .ok r →
    fs.entry? r = some (.file c t) →
    ∃ m, ps.getLast? = some m ∧ r.getLast? = some m ∧ Path.isTrivial m = false ∧ m ≠ ".."
  | [], s, r, c, t, hd, hf, hr => by
    cases hf
    rw [hd] at hr
    cases hr
  | [p], s, r, c, t, hd, hf, hr => by
    rw [follow_cons hd] at hf
    cases hf
    rw [nextNames] at hr ⊢
    by_cases hp : Path.isTrivial p = true
    · rw [if_pos hp, hd] at hr
      cases hr
    · by_cases hu : (p == "..") = true
      · rw [if_neg hp, if_pos hu, hs.parent hd] at hr
        cases hr
      · rw [if_neg hp, if_neg hu]
        exact ⟨p, rfl, by simp, by simpa using hp, by simpa using hu⟩
  | p :: q :: ps, s, r, c, t, hd, hf, hr => by
    rw [follow_cons hd] at hf
    obtain ⟨m, hm, rest⟩ := last_of_follow hs (q :: ps) _ (entry?_of_follow hf) hf hr
    exact ⟨m, by rw [List.getLast?_cons_cons, hm], rest⟩

/-- In a sound tree, a path that leads to a file ends in the name of the file. -/
theorem fileName?_of_locate {fs : FileSystem} (hs : fs.Sound) {path : String} {names : List String}
    {c : Content} {t : Int} (hl : fs.locate path = .ok names)
    (he : fs.entry? names = some (.file c t)) : Path.fileName? path = names.getLast? := by
  rw [locate_eq (ne_empty_of_locate hl)] at hl
  obtain ⟨m, hm, hr, htriv, hup⟩ := last_of_follow hs.rooted _ _ (hs.start path) hl he
  obtain ⟨before, hb⟩ := List.getLast?_eq_some_iff.mp hm
  have hseg : Path.segment? m = some (.name m) := by simp [Path.segment?, htriv, hup]
  have : Path.segments path =
      (Path.leadOf (Path.pieces path) ++ before.filterMap Path.segment?) ++ [m].map Segment.name := by
    rw [Path.segments_eq, hb, List.filterMap_append, List.filterMap_cons, hseg, List.append_assoc]
    rfl
  rw [Path.fileName?_of_segments (List.cons_ne_nil _ _) this, hr]
  rfl

/-! ### Taking a file out -/

section Erase

variable {fs : FileSystem} {gone : List String} {c : Content} {t : Int}

theorem directory_erase (hg : fs.entry? gone = some (.file c t)) (n : List String) :
    entry? { fs with entries := fs.entries.erase gone } n = some .directory ↔
      fs.entry? n = some .directory := by
  have hne : gone ≠ [] := by
    rintro rfl
    cases hg
  rw [entry?_erase hne]
  by_cases h : n = gone
  · subst h
    simp [hg]
  · rw [if_neg h]

/-- Without a file, paths lead where they did. -/
theorem locate_erase (hg : fs.entry? gone = some (.file c t)) {path : String}
    {names : List String} :
    ({ fs with entries := fs.entries.erase gone } : FileSystem).locate path = .ok names ↔
      fs.locate path = .ok names :=
  ⟨locate_mono (fun n hn => (directory_erase hg n).mp hn) rfl,
    locate_mono (fun n hn => (directory_erase hg n).mpr hn) rfl⟩

end Erase

end CodeAtlas.FileSystem

/-- An empty file. -/
def CodeAtlas.Trial.blank : Entry := .file (.bytes []) 0
