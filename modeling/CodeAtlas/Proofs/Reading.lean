/-
# Reading files one by one

While the files of a project are read, the packages of directories are kept. What is kept is never
anything but the package that would be found again (`ProjectContext.Valid`), because the package of a
directory depends on its segments alone (`ProjectContext.nearest?_congr`) and the steps upwards are
always enough. So reading a list of files is reading each of them by itself and collecting what was read
(`Extraction.of_eq_collect`).

Key definitions: `ProjectContext.packageAt`, `ProjectContext.Valid`, `FileFacts.at`,
`Extraction.collect`.
Key theorems: `ProjectContext.nearest?_congr`, `ProjectContext.getD_nearest?`,
`ProjectContext.packageFor_valid`, `ProjectContext.factsAt_valid`, `Extraction.of_eq_collect`,
`Extraction.files_of`.
-/
import CodeAtlas.Project.Reading
import CodeAtlas.Proofs.FileTree

namespace CodeAtlas

namespace FileSystem

variable {fs : FileSystem} {path path' : String}

theorem read_congr (h : fs.locate path = fs.locate path') : fs.read path = fs.read path' := by
  rw [read, read, find, find, h]

theorem isFile_congr (h : fs.locate path = fs.locate path') : fs.isFile path = fs.isFile path' := by
  rw [isFile, isFile, find, find, h]

end FileSystem

namespace ProjectContext

variable {c : ProjectContext} {fs : FileSystem}

theorem isName_manifest : Path.IsName "package.json" := by decide

theorem locate_manifest_congr (fs : FileSystem) {dir dir' : String}
    (h : Path.segments dir = Path.segments dir') :
    fs.locate (Path.join dir "package.json") = fs.locate (Path.join dir' "package.json") := by
  rw [fs.locate_join_name dir isName_manifest, fs.locate_join_name dir' isName_manifest, h]

/-- What is found for a directory, going no further up: the package of its manifest. -/
def ownPackage? (c : ProjectContext) (fs : FileSystem) (dir : String) : Option String :=
  let manifest := Path.join dir "package.json"
  if fs.isFile manifest then
    some ((manifestName? fs manifest).getD ((Path.fileName? dir).getD c.rootName))
  else none

theorem nearest?_succ (c : ProjectContext) (fs : FileSystem) (fuel : Nat) (dir : String) :
    c.nearest? fs (fuel + 1) dir =
      if Path.isWithin c.root dir then
        (c.known? dir).or ((c.ownPackage? fs dir).or
          ((Path.parent? dir).bind (c.nearest? fs fuel)))
      else none := by
  rw [nearest?, ownPackage?]
  cases Path.isWithin c.root dir with
  | false => rfl
  | true =>
    simp only [Bool.not_true, Bool.false_eq_true, if_false, if_true]
    cases c.known? dir with
    | some p => rfl
    | none =>
      simp only [Option.none_or]
      split <;> rfl

theorem ownPackage?_congr {dir dir' : String} (h : Path.segments dir = Path.segments dir') :
    c.ownPackage? fs dir = c.ownPackage? fs dir' := by
  have hl := locate_manifest_congr fs h
  have hn : Path.fileName? dir = Path.fileName? dir' := by rw [Path.fileName?, Path.fileName?, h]
  have hm : manifestName? fs (Path.join dir "package.json") =
      manifestName? fs (Path.join dir' "package.json") := by
    rw [manifestName?, manifestName?, FileSystem.read_congr hl]
  simp only [ownPackage?, FileSystem.isFile_congr hl, hm, hn]

theorem parent?_congr {dir dir' : String} (h : Path.segments dir = Path.segments dir') :
    (Path.parent? dir = none ∧ Path.parent? dir' = none) ∨
    ∃ q q', Path.parent? dir = some q ∧ Path.parent? dir' = some q' ∧
      Path.segments q = Path.segments q' ∧ (Path.segments q).length < (Path.segments dir).length := by
  cases hp : Path.parent? dir with
  | none =>
    have := Path.parent?_eq_none_iff.mp hp
    rw [h] at this
    exact .inl ⟨rfl, Path.parent?_eq_none_iff.mpr this⟩
  | some q =>
    cases hp' : Path.parent? dir' with
    | none =>
      have := Path.parent?_eq_none_iff.mp hp'
      rw [← h] at this
      rw [Path.parent?_eq_none_iff.mpr this] at hp
      cases hp
    | some q' =>
      obtain ⟨hs, hne⟩ := Path.segments_of_parent? hp
      obtain ⟨hs', _⟩ := Path.segments_of_parent? hp'
      refine .inr ⟨q, q', rfl, rfl, by rw [hs, hs', h], ?_⟩
      have := List.length_pos_iff.mpr hne
      rw [hs, List.length_dropLast]
      omega

/-- Where nothing is kept, the nearest package depends on the segments alone, and no more steps are
needed than there are segments. -/
theorem nearest?_congr (hc : c.packages = []) : ∀ (fuel fuel' : Nat) {dir dir' : String},
    Path.segments dir = Path.segments dir' → (Path.segments dir).length < fuel →
    (Path.segments dir).length < fuel' → c.nearest? fs fuel dir = c.nearest? fs fuel' dir'
  | 0, _, _, _, _, h, _ => absurd h (Nat.not_lt_zero _)
  | _ + 1, 0, _, _, _, _, h => absurd h (Nat.not_lt_zero _)
  | fuel + 1, fuel' + 1, dir, dir', h, hf, hf' => by
    have hk : ∀ d, c.known? d = none := fun d => by rw [known?, hc]; rfl
    have hup : (Path.parent? dir).bind (c.nearest? fs fuel) =
        (Path.parent? dir').bind (c.nearest? fs fuel') := by
      rcases parent?_congr h with ⟨hn, hn'⟩ | ⟨q, q', hq, hq', hs, hlt⟩
      · rw [hn, hn']
        rfl
      · rw [hq, hq']
        exact nearest?_congr hc fuel fuel' hs (by omega) (by omega)
    have hw : Path.isWithin c.root dir = Path.isWithin c.root dir' := by
      rw [Path.isWithin, Path.isWithin, h]
    rw [nearest?_succ, nearest?_succ, hk, hk, ownPackage?_congr h, hup, hw]

/-- The package of the files of a directory. -/
def packageAt (fs : FileSystem) (root dir : String) : String :=
  ((new fs root).nearest? fs (dir.length + 2) dir).getD (new fs root).rootName

/-- What is kept is what would be found. -/
structure Valid (c : ProjectContext) (fs : FileSystem) (root : String) : Prop where
  same : c = { new fs root with packages := c.packages }
  known : ∀ {dir package}, c.known? dir = some package → package = packageAt fs root dir

variable {root : String}

theorem valid_new (fs : FileSystem) (root : String) : (new fs root).Valid fs root where
  same := rfl
  known h := by cases h

theorem Valid.root_eq (h : c.Valid fs root) : c.root = root := by rw [h.same]; rfl

theorem Valid.rootName_eq (h : c.Valid fs root) : c.rootName = (new fs root).rootName := by rw [h.same]

theorem packageAt_eq (fs : FileSystem) (root dir : String) {fuel : Nat}
    (h : (Path.segments dir).length < fuel) :
    ((new fs root).nearest? fs fuel dir).getD (new fs root).rootName = packageAt fs root dir := by
  have := Path.length_segments_le dir
  rw [packageAt, nearest?_congr rfl fuel (dir.length + 2) rfl h (by omega)]

/-- With what is kept or without it, the same package is found. -/
theorem getD_nearest? (hc : c.Valid fs root) : ∀ (fuel : Nat) (dir : String),
    (Path.segments dir).length < fuel →
    (c.nearest? fs fuel dir).getD c.rootName = packageAt fs root dir
  | 0, _, h => absurd h (Nat.not_lt_zero _)
  | fuel + 1, dir, h => by
    rw [← packageAt_eq fs root dir h, nearest?_succ, nearest?_succ, hc.root_eq,
      show (new fs root).root = root from rfl]
    cases hw : Path.isWithin root dir with
    | false => rw [hc.rootName_eq]; rfl
    | true =>
      have hown : c.ownPackage? fs dir = (new fs root).ownPackage? fs dir := by
        simp only [ownPackage?, hc.rootName_eq]
      have hnew : (new fs root).known? dir = none := rfl
      rw [if_pos rfl, if_pos rfl, hnew, Option.none_or, ← hown]
      cases hk : c.known? dir with
      | some package =>
        -- a kept package is the one that the search without it ends with
        rw [Option.some_or, Option.getD_some, hc.known hk, ← packageAt_eq fs root dir h,
          nearest?_succ, show (new fs root).root = root from rfl, hw, if_pos rfl, hnew,
          Option.none_or, hown]
      | none =>
        rw [Option.none_or]
        cases c.ownPackage? fs dir with
        | some package => rfl
        | none =>
          rw [Option.none_or, Option.none_or]
          cases hp : Path.parent? dir with
          | none => exact hc.rootName_eq
          | some q =>
            obtain ⟨hs, hne⟩ := Path.segments_of_parent? hp
            have hlt : (Path.segments q).length < fuel := by
              have := List.length_pos_iff.mpr hne
              rw [hs, List.length_dropLast]
              omega
            rw [Option.bind_some, Option.bind_some, getD_nearest? hc fuel q hlt,
              packageAt_eq fs root q hlt]

theorem packageAt_congr {dir dir' : String} (h : Path.segments dir = Path.segments dir') :
    packageAt fs root dir = packageAt fs root dir' := by
  have := Path.length_segments_le dir
  have := Path.length_segments_le dir'
  rw [← h] at this
  rw [packageAt, packageAt, nearest?_congr rfl (dir.length + 2) (dir'.length + 2) h (by omega)
    (by omega)]

/-- The package found for a file is that of its directory, and what is kept stays valid. -/
theorem packageFor_valid (hc : c.Valid fs root) (file : String) :
    (c.packageFor fs file).1 = packageAt fs root ((Path.parent? file).getD root) ∧
      (c.packageFor fs file).2.Valid fs root := by
  have hdir : c.dirOf file = (Path.parent? file).getD root := by rw [dirOf, hc.root_eq]
  have hlen := Path.length_segments_le (c.dirOf file)
  have hfound := getD_nearest? hc ((c.dirOf file).length + 2) (c.dirOf file) (by omega)
  rw [← hdir, packageFor]
  cases hk : c.known? (c.dirOf file) with
  | some package => exact ⟨hc.known hk, hc⟩
  | none =>
    refine ⟨hfound, ?_, fun {dir package} h => ?_⟩
    · rw [hc.same]
    · simp only [known?, List.lookup_cons] at h
      split at h
      · rename_i he
        have he : Path.segments dir = Path.segments (c.dirOf file) := by simpa using he
        rw [← Option.some.inj h, hfound, packageAt_congr he]
      · exact hc.known h

end ProjectContext

/-! ### The facts of a file -/

/-- What is known of one file, nothing being kept from others. -/
def FileFacts.at (reader : Reader) (fs : FileSystem) (config : ExtractionConfig) (root path : String) :
    Except Fault FileFacts :=
  ((ProjectContext.new fs root).factsAt reader fs config path).1

namespace ProjectContext

variable {c : ProjectContext} {fs : FileSystem} {root : String}

/-- The internal imports of a file do not depend on the packages kept. -/
theorem resolvedImports_valid (hc : c.Valid fs root) (config : ExtractionConfig) (path : String)
    (facts : FileFacts) : c.resolvedImports fs config path facts =
      (new fs root).resolvedImports fs config path facts := by
  rw [hc.same]
  rfl

theorem fileText_valid (hc : c.Valid fs root) (config : ExtractionConfig) (path : String) :
    c.fileText fs config path = (new fs root).fileText fs config path := by
  rw [hc.same]
  rfl

/-- What is known of a file and where it is placed. -/
theorem at_eq (reader : Reader) (fs : FileSystem) (config : ExtractionConfig) (root path : String) :
    FileFacts.at reader fs config root path =
      (((new fs root).fileText fs config path).bind
        (FileFacts.read reader (Path.relative root path))).map fun facts =>
          { facts with
            package := packageAt fs root ((Path.parent? path).getD root)
            resolvedImports := (new fs root).resolvedImports fs config path facts } := by
  have hv := valid_new fs root
  obtain ⟨hp, hv'⟩ := packageFor_valid hv path
  rw [FileFacts.at, factsAt, show (new fs root).root = root from rfl]
  cases ((new fs root).fileText fs config path).bind
      (FileFacts.read reader (Path.relative root path)) with
  | error fault => rfl
  | ok facts =>
    simp only [Except.map, hp, resolvedImports_valid hv']

theorem factsAt_valid (hc : c.Valid fs root) (reader : Reader) (config : ExtractionConfig)
    (path : String) :
    (c.factsAt reader fs config path).1 = FileFacts.at reader fs config root path ∧
      (c.factsAt reader fs config path).2.Valid fs root := by
  obtain ⟨hp, hv⟩ := packageFor_valid hc path
  rw [at_eq, factsAt, fileText_valid hc, hc.root_eq]
  cases ((new fs root).fileText fs config path).bind
      (FileFacts.read reader (Path.relative root path)) with
  | error fault => exact ⟨rfl, hc⟩
  | ok facts =>
    simp only [Except.map, hp, resolvedImports_valid hv]
    exact ⟨trivial, hv⟩

end ProjectContext

namespace Extraction

variable {reader : Reader} {fs : FileSystem} {config : ExtractionConfig} {root : String}

/-- Takes in what is known of a file, or why it could not be read. -/
def add (e : Extraction) : Except Fault FileFacts → Extraction
  | .ok facts => { e with files := e.files ++ [facts] }
  | .error fault => { e with failures := e.failures ++ [fault] }

/-- All that was read, in order. -/
def collect (results : List (Except Fault FileFacts)) : Extraction := results.foldl add ⟨[], []⟩

theorem files_foldl_add : ∀ (results : List (Except Fault FileFacts)) (e : Extraction),
    (results.foldl add e).files = e.files ++ results.filterMap Except.toOption
  | [], e => (List.append_nil e.files).symm
  | .ok facts :: results, e => by
    rw [List.foldl_cons, files_foldl_add results, add, List.append_assoc]
    rfl
  | .error _ :: results, e => by
    rw [List.foldl_cons, files_foldl_add results]
    rfl

theorem foldl_step : ∀ (paths : List String) (state : Extraction × ProjectContext),
    state.2.Valid fs root → (paths.foldl (step reader fs config) state).1 =
      (paths.map (FileFacts.at reader fs config root)).foldl add state.1
  | [], _, _ => rfl
  | path :: paths, state, hv => by
    obtain ⟨hfacts, hnext⟩ := ProjectContext.factsAt_valid hv reader config path
    have hstep : step reader fs config state path =
        (state.1.add (FileFacts.at reader fs config root path),
          (state.2.factsAt reader fs config path).2) := by
      rw [step, ← hfacts]
      cases state.2.factsAt reader fs config path with
      | mk facts c => cases facts <;> rfl
    rw [List.foldl_cons, List.map_cons, List.foldl_cons, hstep]
    exact foldl_step paths _ hnext

/-- Reading files is collecting what is known of each of them by itself. -/
theorem of_eq_collect (paths : List String) : of reader fs config root paths =
    collect (paths.map (FileFacts.at reader fs config root)) := by
  rw [of, foldl_step paths _ (ProjectContext.valid_new fs root)]
  rfl

/-- Reading files is reading each of them by itself. -/
theorem files_of (reader : Reader) (fs : FileSystem) (config : ExtractionConfig) (root : String)
    (paths : List String) : (of reader fs config root paths).files =
      paths.filterMap fun path => (FileFacts.at reader fs config root path).toOption := by
  rw [of_eq_collect, collect, files_foldl_add, List.filterMap_map]
  rfl

end Extraction

end CodeAtlas
