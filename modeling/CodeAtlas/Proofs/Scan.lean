/-
# The source files that a scan finds

In a sound tree whose source files have no backslash in their paths below the root, a scanned path
is the names that lead from the root of the project to a file (`Project.SourceAt`), and what is known
of that file carries the same path (`Project.path_of_factsOf`). The one exception is a root that is
itself a file: it is scanned under the empty path, from which nothing can be read.

Key definitions: `Project.Plain`, `Project.SourceAt`, `FileSystem.SameManifests`.
Key theorems: `FileSystem.mem_discover`, `Project.scan_cases`, `Project.path_of_factsOf`,
`Project.inRange_of_scan`.
-/
import CodeAtlas.Operation
import CodeAtlas.Proofs.Reading
import CodeAtlas.Proofs.StateFile

namespace CodeAtlas

theorem ExtractionConfig.allows_congr {config : ExtractionConfig} {a b : String}
    (h : Path.fileName? a = Path.fileName? b) : config.allows a = config.allows b := by
  rw [allows, allows, Path.extension?, Path.extension?, h]

namespace FileSystem

theorem below?_eq_some_iff {base names rest : List String} :
    below? base names = some rest ↔ names = base ++ rest := by
  rw [below?]
  constructor
  · intro h
    split at h
    · rename_i hprefix
      obtain ⟨rest', hrest⟩ := List.isPrefixOf_iff_prefix.mp hprefix
      rw [← Option.some.inj h, ← hrest, List.drop_left]
    · cases h
  · rintro rfl
    rw [if_pos (List.isPrefixOf_iff_prefix.mpr (List.prefix_append _ _)), List.drop_left]

theorem ne_nil_of_belongs {config : ExtractionConfig} {names : List String}
    (h : belongs config names = true) : names ≠ [] := by
  rintro rfl
  exact absurd h (by simp [belongs])

theorem mem_sourceNames {fs : FileSystem} {config : ExtractionConfig} {base names : List String} :
    names ∈ fs.sourceNames config base ↔
      belongs config names = true ∧ ∃ c t, fs.entry? (base ++ names) = some (.file c t) := by
  rw [sourceNames, List.mem_filterMap]
  constructor
  · rintro ⟨⟨key, e⟩, hm, hb⟩
    obtain ⟨hm, hfile⟩ := List.mem_filter.mp hm
    obtain ⟨hbelow, hbelongs⟩ := Option.filter_eq_some_iff.mp hb
    obtain rfl : key = base ++ names := below?_eq_some_iff.mp hbelow
    cases e with
    | directory => cases hfile
    | file c t =>
      refine ⟨hbelongs, c, t, ?_⟩
      rw [entry?_of_ne_nil (by simp [ne_nil_of_belongs hbelongs])]
      exact SortedMap.get?_eq_some_iff.mpr hm
  · rintro ⟨hbelongs, c, t, he⟩
    rw [entry?_of_ne_nil (by simp [ne_nil_of_belongs hbelongs])] at he
    exact ⟨(base ++ names, .file c t), List.mem_filter.mpr ⟨SortedMap.get?_eq_some_iff.mp he, rfl⟩,
      Option.filter_eq_some_iff.mpr ⟨below?_eq_some_iff.mpr rfl, hbelongs⟩⟩

/-- The entries that are files and belong to the project give the source files. -/
theorem sourceNames_eq (fs : FileSystem) (config : ExtractionConfig) (base : List String) :
    fs.sourceNames config base = (fs.entries.filter fun key e =>
      e.isFile && ((below? base key).filter (belongs config)).isSome).entries.filterMap
        fun e => (below? base e.1).filter (belongs config) := by
  rw [sourceNames, SortedMap.filter, List.filterMap_filter, List.filterMap_filter]
  congr 1
  funext e
  cases e.2.isFile with
  | false => rfl
  | true => cases (below? base e.1).filter (belongs config) <;> rfl

/-- The source files below a directory are known from the files there that belong to the project. -/
theorem sourceNames_congr {fs fs' : FileSystem} {config : ExtractionConfig} {base : List String}
    (h : ∀ names, belongs config names = true → ∀ c t,
      (fs'.entry? (base ++ names) = some (.file c t) ↔ fs.entry? (base ++ names) = some (.file c t))) :
    fs'.sourceNames config base = fs.sourceNames config base := by
  rw [sourceNames_eq, sourceNames_eq]
  congr 2
  refine SortedMap.ext_get? fun key => ?_
  rw [SortedMap.get?_filter, SortedMap.get?_filter]
  apply Option.ext
  intro e
  rw [Option.filter_eq_some_iff, Option.filter_eq_some_iff]
  refine and_congr_left fun hchosen => ?_
  obtain ⟨hfile, hnamed⟩ := Bool.and_eq_true_iff.mp hchosen
  obtain ⟨names, hnames⟩ := Option.isSome_iff_exists.mp hnamed
  obtain ⟨hbelow, hbelongs⟩ := Option.filter_eq_some_iff.mp hnames
  obtain rfl : key = base ++ names := below?_eq_some_iff.mp hbelow
  cases e with
  | directory => cases hfile
  | file c t =>
    have hne : base ++ names ≠ [] := by simp [ne_nil_of_belongs hbelongs]
    have := h names hbelongs c t
    rwa [entry?_of_ne_nil hne, entry?_of_ne_nil hne] at this

/-- The source files are the root, where it is a file, or the files below it that belong to the
project. -/
theorem mem_discover {fs : FileSystem} {root path : String} {config : ExtractionConfig}
    (h : path ∈ fs.discover root config) : ∃ base, fs.locate root = .ok base ∧
      ((path = root ∧ config.allows root = true ∧ ∃ c t, fs.entry? base = some (.file c t)) ∨
        fs.entry? base = some .directory ∧ ∃ names, path = Path.join root (Path.ofParts names) ∧
          belongs config names = true ∧ ∃ c t, fs.entry? (base ++ names) = some (.file c t)) := by
  unfold discover at h
  split at h
  · cases h
  · rename_i base hl
    refine ⟨base, hl, ?_⟩
    split at h
    · cases h
    · rename_i c t he
      split at h
      · rename_i ha
        rw [List.mem_singleton] at h
        exact .inl ⟨h, ha, c, t, he⟩
      · cases h
    · rename_i he
      obtain ⟨names, hn, rfl⟩ := List.mem_map.mp h
      exact .inr ⟨he, names, rfl, mem_sourceNames.mp hn⟩

/-- The path of an entry below the root leads to the entry. -/
theorem Rooted.locate_below {fs : FileSystem} (h : fs.Rooted) {root : String} {base names : List String}
    (hl : fs.locate root = .ok base) (hne : names ≠ []) {e : Entry}
    (he : fs.entry? (base ++ names) = some e) :
    fs.locate (Path.join root (Path.ofParts names)) = .ok (base ++ names) := by
  have hnamed : ∀ s ∈ names, Path.IsName s := fun s hs =>
    h.named he s (List.mem_append_right _ hs)
  rw [locate_join hl hne hnamed]
  refine follow_names names base hnamed fun a b hab hb => ?_
  rw [hab, ← List.append_assoc] at he
  exact h.directory_of_append b (base ++ a) he hb

/-- The path of a source file leads to a file. -/
theorem Rooted.locate_discover {fs : FileSystem} (h : fs.Rooted) {root path : String}
    {config : ExtractionConfig} (hpath : path ∈ fs.discover root config) :
    ∃ names c t, fs.locate path = .ok names ∧ fs.entry? names = some (.file c t) := by
  obtain ⟨base, hl, ⟨rfl, _, c, t, he⟩ | ⟨_, names, rfl, hb, c, t, he⟩⟩ := mem_discover hpath
  · exact ⟨base, c, t, hl, he⟩
  · exact ⟨base ++ names, c, t, h.locate_below hl (ne_nil_of_belongs hb) he, he⟩

/-- The same manifests, at the same places, and the same working directory. -/
structure SameManifests (fs fs' : FileSystem) : Prop where
  cwd : fs.cwd = fs'.cwd
  content : ∀ dir, fs.content? (dir ++ ["package.json"]) = fs'.content? (dir ++ ["package.json"])

theorem SameManifests.symm {fs fs' : FileSystem} (h : fs.SameManifests fs') : fs'.SameManifests fs :=
  ⟨h.cwd.symm, fun dir => (h.content dir).symm⟩

/-- Two trees without manifests have the same. -/
theorem sameManifests_of_none {fs fs' : FileSystem} (hc : fs.cwd = fs'.cwd)
    (h : ∀ e ∈ fs.entries.entries, e.1.getLast? ≠ some "package.json")
    (h' : ∀ e ∈ fs'.entries.entries, e.1.getLast? ≠ some "package.json") :
    fs.SameManifests fs' := by
  have hnone : ∀ g : FileSystem, (∀ e ∈ g.entries.entries, e.1.getLast? ≠ some "package.json") →
      ∀ dir, g.content? (dir ++ ["package.json"]) = none := by
    intro g hg dir
    rw [content?, entry?_of_ne_nil (by simp)]
    cases he : g.entries.get? (dir ++ ["package.json"]) with
    | none => rfl
    | some e => exact absurd (List.getLast?_concat ..) (hg _ (SortedMap.get?_eq_some_iff.mp he))
  exact ⟨hc, fun dir => (hnone fs h dir).trans (hnone fs' h' dir).symm⟩

end FileSystem

namespace Project

variable {p : Project} {fs : FileSystem} {rel : String}

/-- No source file has a backslash in its path below the root. -/
def Plain (p : Project) (fs : FileSystem) : Prop :=
  ∀ path ∈ fs.discover p.root p.extraction, '\\' ∉ ((Path.strip? p.root path).getD path).toList

instance (p : Project) (fs : FileSystem) : Decidable (p.Plain fs) :=
  inferInstanceAs (Decidable (∀ path ∈ fs.discover p.root p.extraction,
    '\\' ∉ ((Path.strip? p.root path).getD path).toList))

/-- The names from the root of the project, itself at `base`, lead to a source file. -/
structure SourceAt (p : Project) (fs : FileSystem) (rel : String) (base names : List String) :
    Prop where
  located : fs.locate p.root = .ok base
  directory : fs.entry? base = some .directory
  nonempty : names ≠ []
  named : ∀ s ∈ names, Path.IsName s
  path : rel = Path.ofParts names
  plain : '\\' ∉ rel.toList
  allowed : p.extraction.allows rel = true
  file : ∃ c t, fs.entry? (base ++ names) = some (.file c t)

theorem mem_scan {f : Fingerprint} (h : (p.scan fs).get? rel = some f) :
    ∃ path ∈ fs.discover p.root p.extraction, rel = Path.relative p.root path ∧
      f = Fingerprint.of fs path := by
  obtain ⟨path, hm, he⟩ := List.mem_map.mp (SortedMap.mem_of_get?_ofList h)
  cases he
  exact ⟨path, hm, rfl, rfl⟩

/-- What a scan finds: a source file below the root, or the root. -/
theorem scan_cases (hs : fs.Sound) (hp : p.Plain fs) {f : Fingerprint}
    (h : (p.scan fs).get? rel = some f) :
    (∃ base names, p.SourceAt fs rel base names ∧
      f = Fingerprint.of fs (Path.join p.root rel)) ∨
    (rel = "" ∧ ∃ base c t, fs.locate p.root = .ok base ∧ fs.entry? base = some (.file c t)) := by
  obtain ⟨path, hm, hrel, rfl⟩ := mem_scan h
  have hplain := hp path hm
  obtain ⟨base, hl, ⟨rfl, _, c, t, he⟩ | ⟨hd, names, rfl, hb, c, t, he⟩⟩ :=
    FileSystem.mem_discover hm
  · refine .inr ⟨?_, base, c, t, hl, he⟩
    rw [hrel, Path.relative, Path.strip?_self (FileSystem.ne_empty_of_locate hl), Option.getD_some]
    exact Path.slashed_of_not_mem (by decide)
  · have hne : names ≠ [] := FileSystem.ne_nil_of_belongs hb
    have hnamed : ∀ s ∈ names, Path.IsName s := fun s hs' =>
      hs.named' he s (List.mem_append_right _ hs')
    have hstrip := Path.strip?_join (FileSystem.ne_empty_of_locate hl) hne hnamed
    rw [hstrip, Option.getD_some] at hplain
    have hparts : rel = Path.ofParts names := by
      rw [hrel, Path.relative, hstrip, Option.getD_some, Path.slashed_of_not_mem hplain]
    refine .inl ⟨base, names, ⟨hl, hd, hne, hnamed, hparts, hparts ▸ hplain, ?_, c, t, he⟩, ?_⟩
    · rw [FileSystem.belongs, Bool.and_eq_true] at hb
      exact hparts ▸ hb.2
    · rw [hparts]

namespace SourceAt

variable {base names : List String}

theorem root_ne (h : p.SourceAt fs rel base names) : p.root ≠ "" :=
  FileSystem.ne_empty_of_locate h.located

/-- Taking the root off again gives the path that was joined to it. -/
theorem relative (h : p.SourceAt fs rel base names) :
    Path.relative p.root (Path.join p.root rel) = rel := by
  rw [Path.relative, h.path, Path.strip?_join h.root_ne h.nonempty h.named, Option.getD_some,
    ← h.path, Path.slashed_of_not_mem h.plain]

/-- The same path is the same names, from the same root, in any tree. -/
theorem unique {fs' : FileSystem} {base' names' : List String} (h : p.SourceAt fs rel base names)
    (h' : p.SourceAt fs' rel base' names') (hc : fs.cwd = fs'.cwd) : base = base' ∧ names = names' := by
  constructor
  · have hl := h.located
    have hl' := h'.located
    rw [FileSystem.locate_eq h.root_ne] at hl hl'
    have hstart : fs.startOf p.root = fs'.startOf p.root := by
      rw [FileSystem.startOf, FileSystem.startOf, hc]
    rw [FileSystem.eq_foldl_of_follow hl, FileSystem.eq_foldl_of_follow hl', hstart]
  · have hp := Path.pieces_ofParts h.nonempty fun s hs => (h.named s hs).noSlash
    have hp' := Path.pieces_ofParts h'.nonempty fun s hs => (h'.named s hs).noSlash
    rw [← hp, ← hp', ← h.path, ← h'.path]

end SourceAt

end Project

/-! ### What is known of a source file -/

namespace ProjectContext

/-- The text of a file is there where its content is, is not too large, and is a text. -/
theorem toOption_fileText (c : ProjectContext) (fs : FileSystem) (config : ExtractionConfig)
    (path : String) : (c.fileText fs config path).toOption =
      ((fs.read path).toOption.filter fun content => content.length ≤ config.maxFileSize).bind
        FileSystem.textOf? := by
  unfold fileText FileSystem.read
  cases fs.find path with
  | error e => rfl
  | ok entry =>
    cases entry with
    | directory =>
      simp only [bind, Except.bind]
      split <;> rfl
    | file content t =>
      cases content with
      | withheld size =>
        simp only [bind, Except.bind]
        split <;> rfl
      | bytes data =>
        simp only [bind, Except.bind]
        have hsize : (Entry.file (.bytes data) t).size = data.length := rfl
        by_cases h : config.maxFileSize < (Entry.file (.bytes data) t).size
        · rw [if_pos h, show (Except.ok data : Except FileError _).toOption = some data from rfl,
            Option.filter_some, if_neg (by simp only [decide_eq_true_eq]; omega)]
          rfl
        · rw [if_neg h, show (Except.ok data : Except FileError _).toOption = some data from rfl,
            Option.filter_some, if_pos (by simp only [decide_eq_true_eq]; omega), Option.bind_some]
          cases FileSystem.textOf? data <;> rfl

end ProjectContext

namespace Project

variable {p : Project} {fs : FileSystem} {rel : String}

/-- The empty path below a root that is a file leads nowhere. -/
theorem locate_root_file {base : List String} {c : Content} {t : Int}
    (hl : fs.locate p.root = .ok base) (he : fs.entry? base = some (.file c t)) :
    (fs.locate (Path.join p.root "")).toOption = none := by
  have hroot := FileSystem.ne_empty_of_locate hl
  have ha : Path.isAbsolute "" = false := by decide
  obtain ⟨lead, _, hlead, hp⟩ := Path.exists_pieces_join hroot ha
  have herr : ∀ n, fs.locate (Path.join p.root "") ≠ .ok n := by
    intro n hn
    rw [FileSystem.locate_eq (Path.join_ne_empty hroot ha), FileSystem.startOf_join hroot ha, hp,
      Path.pieces_empty, FileSystem.follow_append] at hn
    rw [FileSystem.locate_eq hroot] at hl
    cases hf : fs.follow (fs.startOf p.root) lead with
    | error e => rw [hf] at hn; cases hn
    | ok m =>
      rw [hf] at hn
      have hd : fs.entry? m = some .directory :=
        FileSystem.entry?_of_follow (show fs.follow m [""] = .ok n from hn)
      -- the root leads to what is before the last slash, which is a directory
      have hb : base = m := by
        rcases hlead with h | h
        · rw [h, hf] at hl
          exact (Except.ok.inj hl).symm
        · rw [h, FileSystem.follow_append, hf] at hl
          have hl : fs.follow m [""] = .ok base := hl
          rw [FileSystem.follow_cons hd] at hl
          exact (Except.ok.inj hl).symm
      rw [hb, hd] at he
      cases he
  cases hloc : fs.locate (Path.join p.root "") with
  | error e => rfl
  | ok n => exact absurd hloc (herr n)

theorem read_root_file {base : List String} {c : Content} {t : Int}
    (hl : fs.locate p.root = .ok base) (he : fs.entry? base = some (.file c t)) :
    (fs.read (Path.join p.root "")).toOption = none := by
  rw [FileSystem.toOption_read, FileSystem.contentAt?, locate_root_file hl he]
  rfl

/-- What is known of a file of the project, by its path within it. -/
def factsOf (p : Project) (reader : Reader) (fs : FileSystem) (rel : String) : Option FileFacts :=
  (FileFacts.at reader fs p.extraction p.root (Path.join p.root rel)).toOption

theorem factsOf_eq (p : Project) (reader : Reader) (fs : FileSystem) (rel : String) :
    p.factsOf reader fs rel =
      ((((fs.read (Path.join p.root rel)).toOption.filter fun content =>
        content.length ≤ p.extraction.maxFileSize).bind FileSystem.textOf?).bind fun text =>
          (FileFacts.read reader (Path.relative p.root (Path.join p.root rel)) text).toOption).map
        fun facts =>
          { facts with
            package := ProjectContext.packageAt fs p.root
              ((Path.parent? (Path.join p.root rel)).getD p.root)
            resolvedImports := (ProjectContext.new fs p.root).resolvedImports fs p.extraction
              (Path.join p.root rel) facts } := by
  rw [factsOf, ProjectContext.at_eq,
    ← ProjectContext.toOption_fileText (ProjectContext.new fs p.root) fs p.extraction]
  cases (ProjectContext.new fs p.root).fileText fs p.extraction (Path.join p.root rel) with
  | error e => rfl
  | ok text =>
    simp only [Except.bind, Except.toOption, Option.bind_some]
    cases FileFacts.read reader (Path.relative p.root (Path.join p.root rel)) text <;> rfl

theorem path_of_read {reader : Reader} {path text : String} {facts : FileFacts}
    (h : FileFacts.read reader path text = .ok facts) : facts.path = Path.slashed path := by
  unfold FileFacts.read at h
  simp only at h
  split at h
  · cases h
  · split at h
    · cases h
    · cases h
      rfl

theorem factsOf_root_file (reader : Reader) {base : List String} {c : Content} {t : Int}
    (hl : fs.locate p.root = .ok base) (he : fs.entry? base = some (.file c t)) :
    p.factsOf reader fs "" = none := by
  rw [factsOf_eq, read_root_file hl he]
  rfl

/-- What is known of a scanned file carries the path it was scanned under. -/
theorem path_of_factsOf (hs : fs.Sound) (hp : p.Plain fs) {reader : Reader} {facts : FileFacts}
    (hc : (p.scan fs).contains rel = true) (hf : p.factsOf reader fs rel = some facts) :
    facts.path = rel := by
  obtain ⟨f, hget⟩ := SortedMap.contains_iff.mp hc
  rcases scan_cases hs hp hget with ⟨base, names, hsrc, _⟩ | ⟨rfl, base, c, t, hl, he⟩
  · rw [factsOf_eq] at hf
    obtain ⟨facts', hr, rfl⟩ := Option.map_eq_some_iff.mp hf
    obtain ⟨text, _, ht⟩ := Option.bind_eq_some_iff.mp hr
    cases hread : FileFacts.read reader (Path.relative p.root (Path.join p.root rel)) text with
    | error e => rw [hread] at ht; cases ht
    | ok facts'' =>
      rw [hread] at ht
      cases ht
      show facts'.path = rel
      rw [path_of_read hread, hsrc.relative, Path.slashed_of_not_mem hsrc.plain]
  · rw [factsOf_root_file reader hl he] at hf
    cases hf

/-- The facts of the files that a plan reads. -/
theorem files_extract (p : Project) (reader : Reader) (fs : FileSystem) (plan : SyncPlan) :
    (p.extract reader fs plan).files = plan.changes.toExtract.filterMap (p.factsOf reader fs) := by
  rw [extract, Extraction.files_of, pathsOf, List.filterMap_map]
  rfl

/-- The sizes and times of a scan of a sound tree fit into words. -/
theorem inRange_of_scan (hs : fs.Sound) {f : Fingerprint} (h : (p.scan fs).get? rel = some f) :
    f.size < twoTo 64 ∧ Word.isSigned f.mtime = true := by
  obtain ⟨path, _, _, rfl⟩ := mem_scan h
  have hentry : ∀ e, fs.find path = .ok e → e.size < twoTo 64 ∧ Word.isSigned e.mtime = true := by
    intro e he
    obtain ⟨names, _, he⟩ := FileSystem.find_eq_ok_iff.mp he
    cases e with
    | directory => exact ⟨by decide, by decide⟩
    | file c t =>
      have hne : names ≠ [] := by
        rintro rfl
        cases he
      exact hs.size (FileSystem.entry?_of_ne_nil hne ▸ he)
  unfold Fingerprint.of
  cases hfind : fs.find path with
  | error e =>
    show 0 < twoTo 64 ∧ Word.isSigned 0 = true
    decide
  | ok e =>
    have := hentry e hfind
    simp only
    split
    · exact this
    · exact this

end Project

end CodeAtlas
