/-
# The package of a file

The package of a file is said here without a search (`ProjectContext.PackageOf`). Of the directories
from that of the file up to the root of the project, the nearest one that holds a manifest counts: the
package is what the manifest names, or else the name of that directory, or else that of the root, which
it also is where no directory on the way holds a manifest. A directory is on the way when its segments
begin with those of the root and the segments of the file's directory begin with its own, so `..` is a
segment like a name here.

The search upwards finds that package (`ProjectContext.packageAt_eq_iff`), and the packages that are kept
of directories already asked for do not change it, whatever was asked before. So it makes no difference
to what is known of a file by which worker and after which others it is read
(`ProjectContext.packages_transparent`).

Key definitions: `ProjectContext.HoldsManifest`, `ProjectContext.IsNearest`,
`ProjectContext.NamesPackage`, `ProjectContext.PackageOf`, `ProjectContext.packagesFor`, `Extraction.work`.
Key theorems: `ProjectContext.holdsManifest_parent`, `ProjectContext.packageAt_eq_iff`,
`ProjectContext.packagesFor_eq`, `Extraction.work_eq`, `ProjectContext.packages_transparent`.
-/
import CodeAtlas.Proofs.Reading

namespace CodeAtlas

namespace Path

theorem length_parent_lt {dir up : String} (h : parent? dir = some up) :
    (segments up).length < (segments dir).length := by
  obtain ⟨hup, hne⟩ := segments_of_parent? h
  have hpos := List.length_pos_iff.mpr hne
  rw [hup, List.length_dropLast]
  omega

theorem isAbsolute_parent {dir up : String} (h : parent? dir = some up) :
    isAbsolute up = isAbsolute dir := by
  obtain ⟨hup, hne⟩ := segments_of_parent? h
  have hnot : ¬ (segments dir = [] ∨ segments dir = [.root]) := by
    rw [← parent?_eq_none_iff, h]
    simp
  cases hs : segments dir with
  | nil => exact absurd hs hne
  | cons first rest =>
    rw [hs] at hup hnot
    cases rest with
    | cons next rest =>
      refine isAbsolute_congr ?_
      rw [hup, hs]
      rfl
    | nil =>
      -- one segment is left out, and it was not the root
      have hfirst : first ≠ .root := fun e => hnot (.inr (by rw [e]))
      have hdir : isAbsolute dir = false := by
        rw [Bool.eq_false_iff, Ne, isAbsolute_iff_head, hs]
        simpa using hfirst
      have hupper : isAbsolute up = false := by
        rw [Bool.eq_false_iff, Ne, isAbsolute_iff_head, hup]
        simp
      rw [hdir, hupper]

end Path

namespace ProjectContext

/-! ### The nearest manifest -/

/-- The directory `d` is on the way from `dir` up to the root, and holds a manifest. -/
structure HoldsManifest (fs : FileSystem) (root dir d : String) : Prop where
  inside : Path.isWithin root d = true
  above : Path.isWithin d dir = true
  together : Path.isAbsolute d = Path.isAbsolute dir
  manifest : fs.isFile (Path.join d "package.json") = true

/-- Of the directories on the way up that hold a manifest, `d` is the nearest. -/
structure IsNearest (fs : FileSystem) (root dir d : String) : Prop where
  holds : HoldsManifest fs root dir d
  nearest : ∀ d', HoldsManifest fs root dir d' → Path.isWithin d' d = true

/-- The manifest can be read, is a JSON text, and has a name that is not empty. -/
def NamesPackage (fs : FileSystem) (manifest name : String) : Prop :=
  ∃ content text json, fs.read manifest = .ok content ∧ FileSystem.textOf? content = some text ∧
    Json.parse? text = some json ∧ json.field? "name" = some (.string name) ∧ name ≠ ""

/-- The package of the files of a directory. -/
inductive PackageOf (fs : FileSystem) (root dir : String) : String → Prop
  | named {d name : String} : IsNearest fs root dir d →
      NamesPackage fs (Path.join d "package.json") name → PackageOf fs root dir name
  | directory {d name : String} : IsNearest fs root dir d →
      (∀ name, ¬ NamesPackage fs (Path.join d "package.json") name) →
      Path.fileName? d = some name → PackageOf fs root dir name
  | nameless {d : String} : IsNearest fs root dir d →
      (∀ name, ¬ NamesPackage fs (Path.join d "package.json") name) →
      Path.fileName? d = none → PackageOf fs root dir (new fs root).rootName
  | root : (∀ d, ¬ HoldsManifest fs root dir d) → PackageOf fs root dir (new fs root).rootName

variable {fs : FileSystem} {root dir d : String}

theorem manifestName?_eq_some_iff {manifest name : String} :
    manifestName? fs manifest = some name ↔ NamesPackage fs manifest name := by
  unfold manifestName? NamesPackage
  cases fs.read manifest with
  | error e => simp
  | ok content =>
    have hstring : ∀ v : Json, v.string? = some name ↔ v = .string name := by
      intro v
      cases v <;> simp [Json.string?]
    simp only [Option.filter_eq_some_iff, Option.bind_eq_some_iff, hstring, bne_iff_ne, ne_eq,
      Except.ok.injEq]
    constructor
    · rintro ⟨⟨_, ⟨json, ⟨text, htext, hjson⟩, hfield⟩, rfl⟩, hne⟩
      exact ⟨content, text, json, rfl, htext, hjson, hfield, hne⟩
    · rintro ⟨_, text, json, rfl, htext, hjson, hfield, hne⟩
      exact ⟨⟨_, ⟨json, ⟨text, htext, hjson⟩, hfield⟩, rfl⟩, hne⟩

/-- Outside the root there is no directory on the way up to it. -/
theorem HoldsManifest.isWithin (h : HoldsManifest fs root dir d) : Path.isWithin root dir = true := by
  rw [Path.isWithin_iff]
  exact (Path.isWithin_iff.mp h.inside).trans (Path.isWithin_iff.mp h.above)

theorem isFile_manifest_congr {d' : String} (h : Path.segments d = Path.segments d') :
    fs.isFile (Path.join d "package.json") = fs.isFile (Path.join d' "package.json") :=
  FileSystem.isFile_congr (locate_manifest_congr fs h)

/-- Where a directory holds no manifest, those on the way up from it are those on the way up from its
parent. -/
theorem holdsManifest_parent {up : String} (hup : Path.parent? dir = some up)
    (hno : fs.isFile (Path.join dir "package.json") = false) :
    HoldsManifest fs root dir d ↔ HoldsManifest fs root up d := by
  obtain ⟨hs, hne⟩ := Path.segments_of_parent? hup
  have habs := Path.isAbsolute_parent hup
  constructor
  · intro h
    refine ⟨h.inside, ?_, h.together.trans habs.symm, h.manifest⟩
    rw [Path.isWithin_iff, hs]
    -- the segments of `d` are not all those of `dir`, which holds no manifest
    obtain ⟨rest, hrest⟩ := Path.isWithin_iff.mp h.above
    have hsome : rest ≠ [] := by
      rintro rfl
      rw [List.append_nil] at hrest
      have := h.manifest
      rw [isFile_manifest_congr hrest, hno] at this
      cases this
    rw [← hrest, List.dropLast_append_of_ne_nil hsome]
    exact List.prefix_append _ _
  · intro h
    refine ⟨h.inside, ?_, h.together.trans habs, h.manifest⟩
    have habove := Path.isWithin_iff.mp h.above
    rw [hs] at habove
    exact Path.isWithin_iff.mpr (habove.trans (List.dropLast_prefix _))

/-- At the top nothing is above a directory but itself. -/
theorem not_holdsManifest_of_top (htop : Path.parent? dir = none)
    (hno : fs.isFile (Path.join dir "package.json") = false) : ¬ HoldsManifest fs root dir d := by
  intro h
  have hsame : Path.segments d = Path.segments dir := by
    obtain ⟨rest, hrest⟩ := Path.isWithin_iff.mp h.above
    have htogether : (Path.segments d).head? = some .root ↔ (Path.segments dir).head? = some .root := by
      rw [← Path.isAbsolute_iff_head, ← Path.isAbsolute_iff_head, h.together]
    rcases Path.parent?_eq_none_iff.mp htop with hdir | hdir
    · rw [hdir] at hrest ⊢
      exact (List.append_eq_nil_iff.mp hrest).1
    · rw [hdir] at hrest htogether ⊢
      cases hd : Path.segments d with
      | nil => rw [hd] at htogether; simp at htogether
      | cons first more =>
        rw [hd, List.cons_append, List.cons.injEq] at hrest
        rw [hrest.1, (List.append_eq_nil_iff.mp hrest.2).1]
  have := h.manifest
  rw [isFile_manifest_congr hsame, hno] at this
  cases this

theorem IsNearest.of_parent {up : String} (hup : Path.parent? dir = some up)
    (hno : fs.isFile (Path.join dir "package.json") = false) (h : IsNearest fs root up d) :
    IsNearest fs root dir d :=
  ⟨(holdsManifest_parent hup hno).mpr h.holds,
    fun d' h' => h.nearest d' ((holdsManifest_parent hup hno).mp h')⟩

/-- The files of a directory without a manifest are of the package of its parent. -/
theorem PackageOf.of_parent {up name : String} (hup : Path.parent? dir = some up)
    (hno : fs.isFile (Path.join dir "package.json") = false) (h : PackageOf fs root up name) :
    PackageOf fs root dir name := by
  cases h with
  | named hd hname => exact .named (hd.of_parent hup hno) hname
  | directory hd hnone hname => exact .directory (hd.of_parent hup hno) hnone hname
  | nameless hd hnone hname => exact .nameless (hd.of_parent hup hno) hnone hname
  | root hnone => exact .root fun d h => hnone d ((holdsManifest_parent hup hno).mp h)

/-- A directory within the root that holds a manifest is itself the nearest one. -/
theorem isNearest_self (hin : Path.isWithin root dir = true)
    (hfile : fs.isFile (Path.join dir "package.json") = true) : IsNearest fs root dir dir :=
  ⟨⟨hin, Path.isWithin_iff.mpr (List.prefix_refl _), rfl, hfile⟩, fun _ h => h.above⟩

theorem packageOf_own (hin : Path.isWithin root dir = true)
    (hfile : fs.isFile (Path.join dir "package.json") = true) :
    PackageOf fs root dir ((manifestName? fs (Path.join dir "package.json")).getD
      ((Path.fileName? dir).getD (new fs root).rootName)) := by
  have hnear := isNearest_self hin hfile
  cases hname : manifestName? fs (Path.join dir "package.json") with
  | some name => exact .named hnear (manifestName?_eq_some_iff.mp hname)
  | none =>
    have hnone : ∀ name, ¬ NamesPackage fs (Path.join dir "package.json") name := by
      intro name h
      rw [manifestName?_eq_some_iff.mpr h] at hname
      cases hname
    cases hdir : Path.fileName? dir with
    | some name => exact .directory hnear hnone hdir
    | none => exact .nameless hnear hnone hdir

/-! ### The search upwards -/

/-- One step of the search. -/
theorem packageAt_step (fs : FileSystem) (root dir : String) :
    packageAt fs root dir =
      if Path.isWithin root dir then
        ((new fs root).ownPackage? fs dir).getD
          (((Path.parent? dir).map (packageAt fs root)).getD (new fs root).rootName)
      else (new fs root).rootName := by
  rw [← packageAt_eq fs root dir (Nat.lt_succ_self (Path.segments dir).length), nearest?_succ,
    show (new fs root).root = root from rfl, show (new fs root).known? dir = none from rfl,
    Option.none_or]
  cases Path.isWithin root dir with
  | false => rfl
  | true =>
    rw [if_pos rfl, if_pos rfl]
    cases (new fs root).ownPackage? fs dir with
    | some package => rfl
    | none =>
      cases hup : Path.parent? dir with
      | none => rfl
      | some up => exact packageAt_eq fs root up (Path.length_parent_lt hup)

/-- The search finds the package of a directory. -/
theorem packageOf_packageAt (fs : FileSystem) (root dir : String) :
    PackageOf fs root dir (packageAt fs root dir) := by
  rw [packageAt_step]
  by_cases hin : Path.isWithin root dir = true
  · rw [if_pos hin, ownPackage?]
    cases hfile : fs.isFile (Path.join dir "package.json") with
    | true => exact packageOf_own hin hfile
    | false =>
      cases hup : Path.parent? dir with
      | none => exact .root fun d => not_holdsManifest_of_top hup hfile
      | some up =>
        have hlt := Path.length_parent_lt hup
        exact (packageOf_packageAt fs root up).of_parent hup hfile
  · rw [if_neg hin]
    exact .root fun d h => hin h.isWithin
termination_by (Path.segments dir).length

/-- Two nearest directories are the same path. -/
theorem IsNearest.segments_eq {d' : String} (h : IsNearest fs root dir d)
    (h' : IsNearest fs root dir d') : Path.segments d = Path.segments d' :=
  (Path.isWithin_iff.mp (h'.nearest d h.holds)).eq_of_length_le
    (Path.isWithin_iff.mp (h.nearest d' h'.holds)).length_le

/-- A package is that of the nearest manifest, or the root where there is none. -/
theorem PackageOf.own_or_root {name : String} (h : PackageOf fs root dir name) :
    (∃ d, IsNearest fs root dir d ∧ (new fs root).ownPackage? fs d = some name) ∨
      (∀ d, ¬ HoldsManifest fs root dir d) ∧ name = (new fs root).rootName := by
  have hunnamed : ∀ {d}, (∀ name, ¬ NamesPackage fs (Path.join d "package.json") name) →
      manifestName? fs (Path.join d "package.json") = none := by
    intro d hnone
    rw [Option.eq_none_iff_forall_ne_some]
    intro name hname
    exact hnone name (manifestName?_eq_some_iff.mp hname)
  cases h with
  | @named d _ hd hname =>
    refine .inl ⟨d, hd, ?_⟩
    rw [ownPackage?, hd.holds.manifest, manifestName?_eq_some_iff.mpr hname]
    rfl
  | @directory d _ hd hnone hname =>
    refine .inl ⟨d, hd, ?_⟩
    rw [ownPackage?, hd.holds.manifest, hunnamed hnone, hname]
    rfl
  | @nameless d hd hnone hname =>
    refine .inl ⟨d, hd, ?_⟩
    rw [ownPackage?, hd.holds.manifest, hunnamed hnone, hname]
    rfl
  | root hnone => exact .inr ⟨hnone, rfl⟩

/-- The files of a directory are of one package. -/
theorem PackageOf.unique {name name' : String} (h : PackageOf fs root dir name)
    (h' : PackageOf fs root dir name') : name = name' := by
  rcases h.own_or_root with ⟨d, hd, hown⟩ | ⟨hnone, hroot⟩
  · rcases h'.own_or_root with ⟨d', hd', hown'⟩ | ⟨hnone', _⟩
    · rw [ownPackage?_congr (hd.segments_eq hd'), hown'] at hown
      exact (Option.some.inj hown).symm
    · exact absurd hd.holds (hnone' d)
  · rcases h'.own_or_root with ⟨d', hd', _⟩ | ⟨_, hroot'⟩
    · exact absurd hd'.holds (hnone d')
    · exact hroot.trans hroot'.symm

theorem packageAt_eq_iff {name : String} :
    packageAt fs root dir = name ↔ PackageOf fs root dir name :=
  ⟨fun h => h ▸ packageOf_packageAt fs root dir, fun h => (packageOf_packageAt fs root dir).unique h⟩

/-! ### Asking for one file after another -/

/-- The packages of files that are asked for in turn. -/
def packagesFor (fs : FileSystem) : ProjectContext → List String → List String
  | _, [] => []
  | c, file :: files => (c.packageFor fs file).1 :: packagesFor fs (c.packageFor fs file).2 files

/-- A project of which nothing is known yet answers with the package of the file's directory. -/
theorem packageFor_new (fs : FileSystem) (root file : String) :
    ((new fs root).packageFor fs file).1 = packageAt fs root ((Path.parent? file).getD root) :=
  (packageFor_valid (valid_new fs root) file).1

/-- What was asked before does not matter. -/
theorem packagesFor_eq : ∀ (files : List String) {c : ProjectContext}, c.Valid fs root →
    packagesFor fs c files = files.map fun file => ((new fs root).packageFor fs file).1
  | [], _, _ => rfl
  | file :: files, c, hc => by
    obtain ⟨hanswer, hnext⟩ := packageFor_valid hc file
    rw [packagesFor, List.map_cons, hanswer, packageFor_new, packagesFor_eq files hnext]

end ProjectContext

/-! ### Workers -/

namespace Extraction

variable {reader : Reader} {fs : FileSystem} {config : ExtractionConfig} {root : String}

/-- What is known of files that workers read, each with what it has kept itself: a job is the number of a
worker and the file that it reads next. -/
def work (reader : Reader) (fs : FileSystem) (config : ExtractionConfig) :
    (Nat → ProjectContext) → List (Nat × String) → List (Except Fault FileFacts)
  | _, [] => []
  | workers, (i, path) :: jobs =>
    let read := (workers i).factsAt reader fs config path
    read.1 :: work reader fs config (fun j => if j = i then read.2 else workers j) jobs

/-- Whatever the workers have kept, each file is read as if it were the first. -/
theorem work_eq : ∀ (jobs : List (Nat × String)) {workers : Nat → ProjectContext},
    (∀ i, (workers i).Valid fs root) → work reader fs config workers jobs =
      jobs.map fun job => FileFacts.at reader fs config root job.2
  | [], _, _ => rfl
  | (i, path) :: jobs, workers, hv => by
    obtain ⟨hfacts, hnext⟩ := ProjectContext.factsAt_valid (hv i) reader config path
    have hworkers : ∀ j, (if j = i then ((workers i).factsAt reader fs config path).2
        else workers j).Valid fs root := by
      intro j
      split
      · exact hnext
      · exact hv j
    rw [List.map_cons, ← work_eq jobs hworkers, ← hfacts]
    rfl

end Extraction

/-- The packages that are kept do not show. Whatever files are asked for, and in whatever order, each
answer is that of a project of which nothing is known yet, and that is the package of the nearest
manifest. So, however files are shared out among workers and whenever each is read, what is known of a
file, its package with it, is what is known of it when it is read alone, and all that is read is what
one worker reads. -/
theorem ProjectContext.packages_transparent (reader : Reader) (fs : FileSystem)
    (config : ExtractionConfig) (root : String) (files : List String) (jobs : List (Nat × String)) :
    packagesFor fs (new fs root) files =
        files.map (fun file => ((new fs root).packageFor fs file).1) ∧
      (∀ file name, ((new fs root).packageFor fs file).1 = name ↔
        PackageOf fs root ((Path.parent? file).getD root) name) ∧
      Extraction.work reader fs config (fun _ => new fs root) jobs =
        jobs.map (fun job => ((new fs root).factsAt reader fs config job.2).1) ∧
      (∀ path, ((new fs root).factsAt reader fs config path).1.map FileFacts.package =
        ((new fs root).factsAt reader fs config path).1.map
          fun _ => ((new fs root).packageFor fs path).1) ∧
      Extraction.collect (Extraction.work reader fs config (fun _ => new fs root) jobs) =
        Extraction.of reader fs config root (jobs.map Prod.snd) := by
  have hwork : Extraction.work reader fs config (fun _ => new fs root) jobs =
      jobs.map fun job => FileFacts.at reader fs config root job.2 :=
    Extraction.work_eq jobs fun _ => valid_new fs root
  refine ⟨packagesFor_eq files (valid_new fs root), ?_, hwork, ?_, ?_⟩
  · intro file name
    rw [packageFor_new, packageAt_eq_iff]
  · intro path
    rw [factsAt]
    cases ((new fs root).fileText fs config path).bind
        (FileFacts.read reader (Path.relative (new fs root).root path)) with
    | error fault => rfl
    | ok facts => rfl
  · rw [hwork, Extraction.of_eq_collect, List.map_map]
    rfl

end CodeAtlas
