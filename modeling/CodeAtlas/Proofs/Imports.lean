/-
# Where imports lead

The path that is written in an import is looked for as a file, as its namesakes with other extensions and
as a directory with an index file. Whether it leaves the root is asked of the path as it is written, and
the namesakes are formed afterwards. So an import leads to a file of the project, given by the names
below the root, exactly if it does not lead to the root itself with a file beside the root that has its
name and an extension (`ProjectContext.imports_stay_iff`). The empty path is no root, and where an
extension has a slash in it, the pieces of what was found have to be names too.

Key definitions: `ProjectContext.namesakes`, `ProjectContext.InProject`, `ProjectContext.LeadsBeside`,
`ProjectContext.FoundBelow`, `FileSystem.PlainBelow`.
Key theorems: `ProjectContext.exists_pieces_of_namesake`, `ProjectContext.exists_pieces_of_candidate`,
`ProjectContext.relative_namesake`, `ProjectContext.FoundBelow.inProject_of_core`,
`ProjectContext.exists_foundBelow`, `ProjectContext.imports_stay_iff`.
-/
import CodeAtlas.Proofs.Anchored
import CodeAtlas.Proofs.Scan

namespace CodeAtlas

namespace FileSystem

variable {fs : FileSystem}

/-! ### Files below names from the root -/

/-- No file below the root has a backslash in its path from there. -/
def PlainBelow (fs : FileSystem) (root : String) : Prop :=
  ∀ base names c t, Path.absolute? fs.cwd root = some base →
    fs.entry? (base ++ names) = some (.file c t) → ∀ s ∈ names, '\\' ∉ s.toList

theorem plainBelow_of_entries (h : ∀ e ∈ fs.entries.entries, ∀ s ∈ e.1, '\\' ∉ s.toList)
    (root : String) : fs.PlainBelow root := by
  intro base names c t _ he s hs
  have hne : base ++ names ≠ [] := List.append_ne_nil_of_right_ne_nil _ (List.ne_nil_of_mem hs)
  rw [entry?_of_ne_nil hne] at he
  exact h _ (SortedMap.get?_eq_some_iff.mp he) s (List.mem_append_right _ hs)

theorem foldl_nextNames_names : ∀ {names : List String} (s : List String),
    (∀ n ∈ names, Path.IsName n) → names.foldl nextNames s = s ++ names
  | [], s, _ => (List.append_nil s).symm
  | n :: names, s, h => by
    rw [List.foldl_cons, nextNames_name (h n List.mem_cons_self),
      foldl_nextNames_names _ fun m hm => h m (List.mem_cons_of_mem _ hm), List.append_assoc,
      List.singleton_append]

theorem foldl_nextNames_trivial : ∀ {parts : List String} (s : List String),
    (∀ p ∈ parts, Path.isTrivial p = true) → parts.foldl nextNames s = s
  | [], _, _ => rfl
  | p :: parts, s, h => by
    rw [List.foldl_cons, nextNames, if_pos (h p List.mem_cons_self)]
    exact foldl_nextNames_trivial s fun q hq => h q (List.mem_cons_of_mem _ hq)

theorem Rooted.isName_of_absolute? (h : fs.Rooted) {path : String} {names : List String}
    (hp : Path.absolute? fs.cwd path = some names) : ∀ s ∈ names, Path.IsName s :=
  Path.isName_of_absolute? (h.named h.cwd) hp

theorem isFile_top (fs : FileSystem) : fs.isFile (Path.ofNames []) = false := rfl

/-- Names from the root lead to their entry. -/
theorem Rooted.locate_ofNames (h : fs.Rooted) {names : List String} {e : Entry}
    (he : fs.entry? names = some e) : fs.locate (Path.ofNames names) = .ok names := by
  have hn := h.named he
  by_cases hne : names = []
  · subst hne
    rfl
  · have hway : ∀ a b, names = a ++ b → b ≠ [] → fs.entry? ([] ++ a) = some .directory :=
      fun a b hab hb => h.directory_of_append b a (hab ▸ he) hb
    rw [locate_eq (Path.ofNames_ne_empty hn), startOf, if_pos (Path.isAbsolute_ofNames hn),
      Path.pieces_ofNames hne hn, follow_cons (entry?_nil fs), show nextNames [] "" = [] from rfl,
      follow_names names [] hn hway, List.nil_append]

section Below

variable {names rest : List String} {path : String}

/-- The file that pieces below names lead to, if these are names too save for pieces that mean
nothing. -/
theorem file_below (hn : ∀ s ∈ names, Path.IsName s) (hne : rest ≠ [])
    (hp : Path.pieces path = "" :: (names ++ rest)) (hcore : ∀ s ∈ Path.core rest, Path.IsName s)
    (h : fs.isFile path = true) :
    ∃ c t, fs.entry? (names ++ Path.core rest) = some (.file c t) := by
  obtain ⟨found, c, t, hl, he⟩ := isFile_iff.mp h
  have habs : Path.isAbsolute path = true := by
    rw [Path.isAbsolute_iff_head, Path.segments_below hn (List.append_ne_nil_of_right_ne_nil _ hne) hp]
    rfl
  obtain ⟨before, after, hbefore, hafter, hrest⟩ := Path.exists_core rest
  rw [locate_eq (ne_empty_of_locate hl), startOf, if_pos habs, hp] at hl
  have hfound : found = names ++ Path.core rest := by
    rw [eq_foldl_of_follow hl, List.foldl_cons, List.foldl_append,
      show nextNames [] "" = [] from rfl, foldl_nextNames_names [] hn, List.nil_append, hrest,
      List.foldl_append, List.foldl_append, foldl_nextNames_trivial _ hbefore,
      foldl_nextNames_names _ hcore, foldl_nextNames_trivial _ hafter, ← hrest]
  exact ⟨c, t, hfound ▸ he⟩

/-- The last piece of a path that leads to a file is a name. -/
theorem isName_of_isFile (hfs : fs.Rooted) {piece : String}
    (hp : Path.pieces path = names ++ [piece]) (h : fs.isFile path = true) : Path.IsName piece := by
  obtain ⟨found, c, t, hl, he⟩ := isFile_iff.mp h
  rw [locate_eq (ne_empty_of_locate hl)] at hl
  obtain ⟨m, hm, _, htriv, hup⟩ := last_of_follow hfs _ _ (directory_startOf hfs.cwd path) hl he
  have hmem : piece ∈ Path.pieces path := by
    rw [hp]
    exact List.mem_append_right _ (List.mem_singleton_self piece)
  rw [hp, List.getLast?_concat, Option.some.injEq] at hm
  subst hm
  exact ⟨htriv, hup, Path.not_mem_of_mem_pieces hmem⟩

end Below

end FileSystem

namespace ProjectContext

/-! ### The files that an import may lead to -/

/-- The path itself and the paths beside it that an import may stand for. -/
def namesakes (config : ExtractionConfig) (base : String) : List String :=
  base :: ((match Text.dropEnd? ".js" base with
    | some stem => [stem ++ ".ts", stem ++ ".tsx"]
    | none => []) ++ config.extensions.map fun ext => base ++ "." ++ ext)

theorem importCandidates_eq (config : ExtractionConfig) (base : String) :
    importCandidates config base =
      namesakes config base ++ config.extensions.map fun ext => Path.join base ("index." ++ ext) := rfl

theorem mem_namesakes {config : ExtractionConfig} {base q : String} (h : q ∈ namesakes config base) :
    q = base ∨ (∃ stem, base = stem ++ ".js" ∧ (q = stem ++ ".ts" ∨ q = stem ++ ".tsx")) ∨
      ∃ ext ∈ config.extensions, q = base ++ ("." ++ ext) := by
  rcases List.mem_cons.mp h with h | h
  · exact .inl h
  · rcases List.mem_append.mp h with h | h
    · split at h
      · rename_i stem hstem
        exact .inr (.inl ⟨stem, Text.eq_of_dropEnd? hstem, by simpa using h⟩)
      · cases h
    · obtain ⟨ext, hext, rfl⟩ := List.mem_map.mp h
      exact .inr (.inr ⟨ext, hext, String.append_assoc ..⟩)

/-- A namesake has another last piece, which may be followed by more where an extension has a slash. -/
theorem exists_pieces_of_namesake {config : ExtractionConfig} {base q : String}
    (h : q ∈ namesakes config base) (hq : q ≠ base) : ∃ init last piece rest,
      Path.pieces base = init ++ [last] ∧ Path.pieces q = init ++ piece :: rest ∧ piece ≠ last ∧
      (Path.isTrivial piece = true → Path.isTrivial last = true) ∧
      ((∀ ext ∈ config.extensions, '/' ∉ ext.toList) → rest = []) := by
  rcases mem_namesakes h with rfl | ⟨stem, rfl, hstem⟩ | ⟨ext, hext, rfl⟩
  · exact absurd rfl hq
  · obtain ⟨init, last, _, happ⟩ := Path.exists_pieces_append stem
    have hpieces : ∀ ending, '/' ∉ ending.toList →
        Path.pieces (stem ++ ending) = init ++ [last ++ ending] := fun ending he =>
      happ ending ending [] (Path.pieces_of_not_mem he)
    have hother : ∀ ending, '/' ∉ ending.toList → ending ≠ ".js" → Path.isTrivial ending = false →
        Path.pieces (stem ++ ending) = init ++ [last ++ ending] ∧ last ++ ending ≠ last ++ ".js" ∧
          Path.isTrivial (last ++ ending) ≠ true := by
      intro ending he hjs htriv
      refine ⟨hpieces ending he, fun e => hjs ?_, fun e => ?_⟩
      · simpa using e
      · rw [(Path.isTrivial_of_append e).2] at htriv
        cases htriv
    rcases hstem with rfl | rfl
    · obtain ⟨hp, hne, htriv⟩ := hother ".ts" (by decide) (by decide) (by decide)
      exact ⟨init, _, _, [], hpieces ".js" (by decide), hp, hne, fun e => absurd e htriv, fun _ => rfl⟩
    · obtain ⟨hp, hne, htriv⟩ := hother ".tsx" (by decide) (by decide) (by decide)
      exact ⟨init, _, _, [], hpieces ".js" (by decide), hp, hne, fun e => absurd e htriv, fun _ => rfl⟩
  · obtain ⟨init, last, hbase, happ⟩ := Path.exists_pieces_append base
    cases hext' : Path.pieces ext with
    | nil => exact absurd hext' (Path.pieces_ne_nil ext)
    | cons first rest =>
      have hdot : Path.pieces ("." ++ ext) = ("." ++ first) :: rest :=
        Path.pieces_append_of_not_mem (by decide) hext'
      refine ⟨init, last, last ++ ("." ++ first), rest, hbase, happ _ _ _ hdot, ?_, ?_, ?_⟩
      · intro e
        have := congrArg String.length e
        simp at this
      · exact fun e => (Path.isTrivial_of_append e).1
      · intro hslash
        rw [Path.pieces_of_not_mem (hslash ext hext)] at hext'
        cases hext'
        rfl

/-- Unless it is a namesake of the root, what an import leads to has pieces below the root. -/
theorem exists_pieces_of_candidate {fs : FileSystem} {config : ExtractionConfig} {q : String}
    {base more : List String} (hn : ∀ s ∈ base ++ more, Path.IsName s)
    (hq : q ∈ importCandidates config (Path.ofNames (base ++ more))) (hfile : fs.isFile q = true)
    (hbeside : more = [] → base ≠ [] → q ∉ namesakes config (Path.ofNames base)) :
    ∃ init rest, Path.pieces q = "" :: (base ++ (init ++ rest)) ∧ (∀ s ∈ init, Path.IsName s) ∧
      rest ≠ [] ∧
      ((∀ ext ∈ config.extensions, '/' ∉ ext.toList) → ∃ piece, rest = [piece]) := by
  rw [importCandidates_eq] at hq
  rcases List.mem_append.mp hq with hq | hq
  · by_cases hmore : more = []
    · -- the import leads to the root, which is then that of the file system
      subst hmore
      have hbase : base = [] := Classical.byContradiction fun hne =>
        hbeside rfl hne (by rwa [List.append_nil] at hq)
      subst hbase
      have hne : q ≠ Path.ofNames [] := by
        rintro rfl
        rw [FileSystem.isFile_top] at hfile
        cases hfile
      obtain ⟨init, last, piece, rest, htop, hp, _, _, hrest⟩ := exists_pieces_of_namesake hq hne
      have hinit : init = [""] := by
        rw [show Path.pieces (Path.ofNames ([] ++ [])) = [""] ++ [""] by decide] at htop
        exact (List.append_inj_left' htop rfl).symm
      refine ⟨[], piece :: rest, by rw [hp, hinit]; rfl, by simp, List.cons_ne_nil _ _, fun h => ?_⟩
      rw [hrest h]
      exact ⟨piece, rfl⟩
    · obtain ⟨init, last, rfl⟩ : ∃ init last, more = init ++ [last] :=
        ⟨_, _, (List.dropLast_concat_getLast hmore).symm⟩
      have hinit : ∀ s ∈ init, Path.IsName s := fun s hs => hn s (by simp [hs])
      have hpieces := Path.pieces_ofNames (by simp) hn
      by_cases hne : q = Path.ofNames (base ++ (init ++ [last]))
      · exact ⟨init, [last], hne ▸ hpieces, hinit, List.cons_ne_nil _ _, fun _ => ⟨last, rfl⟩⟩
      · obtain ⟨before, last', piece, rest, hb, hp, _, _, hrest⟩ := exists_pieces_of_namesake hq hne
        have hbefore : before = "" :: (base ++ init) := by
          rw [hpieces, ← List.append_assoc, ← List.cons_append] at hb
          exact (List.append_inj_left' hb rfl).symm
        refine ⟨init, piece :: rest, ?_, hinit, List.cons_ne_nil _ _, fun h => ?_⟩
        · rw [hp, hbefore, List.cons_append, List.append_assoc]
        · rw [hrest h]
          exact ⟨piece, rfl⟩
  · obtain ⟨ext, hext, rfl⟩ := List.mem_map.mp hq
    have hrel : Path.isAbsolute ("index." ++ ext) = false := by
      rw [Path.isAbsolute, Text.beginsWith, String.toList_append]
      rfl
    refine ⟨more, Path.pieces ("index." ++ ext), ?_, fun s hs => hn s (List.mem_append_right _ hs),
      Path.pieces_ne_nil _, fun h => ⟨"index." ++ ext, Path.pieces_of_not_mem ?_⟩⟩
    · rw [Path.pieces_join_ofNames hn hrel, List.append_assoc]
    · have := h ext hext
      simpa using this

/-- A namesake of the root is the root itself or lies outside. -/
theorem relative_namesake {config : ExtractionConfig} {base : List String} {q : String}
    (hn : ∀ s ∈ base, Path.IsName s) (hne : base ≠ [])
    (hq : q ∈ namesakes config (Path.ofNames base)) :
    Path.relative (Path.ofNames base) q = "" ∨
      Path.isAbsolute (Path.relative (Path.ofNames base) q) = true := by
  by_cases hself : q = Path.ofNames base
  · left
    rw [Path.relative, hself, Path.strip?_self (Path.ofNames_ne_empty hn), Option.getD_some]
    exact Path.slashed_of_not_mem (by decide)
  · right
    obtain ⟨init, last, rfl⟩ : ∃ init last, base = init ++ [last] :=
      ⟨_, _, (List.dropLast_concat_getLast hne).symm⟩
    obtain ⟨before, last', piece, rest, hb, hp, hpiece, htriv, _⟩ := exists_pieces_of_namesake hq hself
    rw [Path.pieces_ofNames hne hn, ← List.cons_append] at hb
    obtain ⟨rfl, hlast⟩ := List.append_inj' hb rfl
    cases hlast
    have hsolid : Path.isTrivial piece = false := by
      rw [Bool.eq_false_iff]
      intro h
      have hlast := (hn last (by simp)).solid
      rw [htriv h] at hlast
      cases hlast
    have hinit : ∀ s ∈ init, Path.IsName s := fun s hs => hn s (by simp [hs])
    rw [Path.relative, Path.strip?_beside hn hp hpiece hsolid, Option.getD_none]
    refine Path.isAbsolute_slashed ?_
    rw [Path.isAbsolute_iff_head, Path.segments_below hinit (by simp) hp]
    rfl

/-! ### Paths in the project -/

/-- The path is that of a file of the project: its parts are names, they lead from the root to a file,
and the file has one of the extensions. -/
structure ProjectFile (fs : FileSystem) (root : String) (config : ExtractionConfig) (rel : String)
    (base names : List String) : Prop where
  anchored : Path.absolute? fs.cwd root = some base
  nonempty : names ≠ []
  named : ∀ s ∈ names, Path.IsName s
  path : rel = Path.ofParts names
  located : fs.locate (Path.join (Path.ofNames base) rel) = .ok (base ++ names)
  file : ∃ c t, fs.entry? (base ++ names) = some (.file c t)
  allowed : config.allows (Path.join (Path.ofNames base) rel) = true

/-- The path is that of some file of the project. -/
def InProject (fs : FileSystem) (root : String) (config : ExtractionConfig) (rel : String) : Prop :=
  ∃ base names, ProjectFile fs root config rel base names

/-- An import leads to the root itself, and there is a file for it beside the root or in its place. -/
def LeadsBeside (fs : FileSystem) (root : String) (config : ExtractionConfig) (file module : String) :
    Prop :=
  ∃ base, Path.absolute? fs.cwd root = some base ∧ base ≠ [] ∧
    (new fs root).importBase? fs file module = some (Path.ofNames base) ∧
    ∃ q ∈ namesakes config (Path.ofNames base), (fs.isFile q && config.allows q) = true

section InProject

variable {fs : FileSystem} {root : String} {config : ExtractionConfig} {rel : String}

theorem InProject.isName (h : InProject fs root config rel) :
    ∀ s ∈ Path.pieces rel, Path.IsName s := by
  obtain ⟨base, names, h⟩ := h
  rw [h.path, Path.pieces_ofParts h.nonempty fun s hs => (h.named s hs).noSlash]
  exact h.named

theorem InProject.isAbsolute (h : InProject fs root config rel) : Path.isAbsolute rel = false := by
  obtain ⟨base, names, h⟩ := h
  rw [h.path]
  exact Path.isAbsolute_ofParts h.named

/-- What was found lies below the root: the path `q` goes on from it with the pieces `rest`, and leads to
a file with one of the extensions. -/
structure FoundBelow (fs : FileSystem) (root : String) (config : ExtractionConfig) (q : String)
    (base rest : List String) : Prop where
  anchored : Path.absolute? fs.cwd root = some base
  nonempty : rest ≠ []
  pieces : Path.pieces q = "" :: (base ++ rest)
  file : fs.isFile q = true
  allowed : config.allows q = true

namespace FoundBelow

variable {base rest : List String} {q : String}

/-- The path that is given for it is the rest, without pieces that mean nothing at its ends. -/
theorem relative (h : FoundBelow fs root config q base rest) (hfs : fs.Rooted) :
    Path.relative (Path.ofNames base) q = Path.slashed (Path.ofParts (Path.core rest)) := by
  rw [Path.relative, Path.strip?_below (hfs.isName_of_absolute? h.anchored) h.nonempty h.pieces,
    Option.getD_some]

theorem segments (h : FoundBelow fs root config q base rest) (hfs : fs.Rooted)
    (hcore : ∀ s ∈ Path.core rest, Path.IsName s) (hne : Path.core rest ≠ []) :
    Path.segments q =
      Path.segments (Path.join (Path.ofNames base) (Path.ofParts (Path.core rest))) := by
  have hbase := hfs.isName_of_absolute? h.anchored
  rw [Path.segments_join_ofParts (Path.ofNames_ne_empty hbase) hne hcore, Path.segments_ofNames hbase,
    Path.segments_below hbase (List.append_ne_nil_of_right_ne_nil _ h.nonempty) h.pieces,
    ← Path.filterMap_core, Path.filterMap_names hcore]
  rfl

/-- It is in the project if what is left of it are names. -/
theorem inProject_of_core (h : FoundBelow fs root config q base rest) (hfs : fs.Rooted)
    (hplain : fs.PlainBelow root) (hcore : ∀ s ∈ Path.core rest, Path.IsName s)
    (hne : Path.core rest ≠ []) :
    InProject fs root config (Path.relative (Path.ofNames base) q) := by
  obtain ⟨c, t, he⟩ := FileSystem.file_below (hfs.isName_of_absolute? h.anchored) h.nonempty h.pieces
    hcore h.file
  have hslashed : (Path.core rest).map Path.slashed = Path.core rest := by
    have hid : ∀ s ∈ Path.core rest, Path.slashed s = s := fun s hs =>
      Path.slashed_of_not_mem (hplain base _ c t h.anchored he s hs)
    rw [List.map_congr_left hid, List.map_id']
  rw [h.relative hfs, Path.slashed_ofParts, hslashed]
  refine ⟨base, Path.core rest, h.anchored, hne, hcore, rfl, ?_, ⟨c, t, he⟩, ?_⟩
  · have hdir := hfs.directory_of_append _ base he hne
    exact hfs.locate_below (hfs.locate_ofNames hdir) hne he
  · rw [← h.allowed]
    refine ExtractionConfig.allows_congr ?_
    rw [Path.fileName?, Path.fileName?, h.segments hfs hcore hne]

/-- It is in the project if the pieces of the path that is given for it are names. -/
theorem inProject_of_pieces (h : FoundBelow fs root config q base rest) (hfs : fs.Rooted)
    (hplain : fs.PlainBelow root)
    (hnames : ∀ s ∈ Path.pieces (Path.relative (Path.ofNames base) q), Path.IsName s) :
    InProject fs root config (Path.relative (Path.ofNames base) q) := by
  have hslash : ∀ s ∈ Path.core rest, '/' ∉ s.toList := by
    intro s hs
    have hmem : s ∈ Path.pieces q := by
      rw [h.pieces]
      exact List.mem_cons_of_mem _ (List.mem_append_right _ (Path.mem_of_mem_core hs))
    exact Path.not_mem_of_mem_pieces hmem
  rw [h.relative hfs] at hnames
  refine h.inProject_of_core hfs hplain (Path.isName_of_slashed hslash hnames) ?_
  intro hcore
  have hempty := hnames ""
  rw [hcore, show Path.ofParts [] = "" from rfl, Path.slashed_of_not_mem (by decide),
    Path.pieces_empty] at hempty
  exact (hempty (List.mem_singleton_self "")).ne_empty rfl

/-- It is in the project if only its last piece may be no name, for that leads to the file. -/
theorem inProject_of_last {init : List String} {piece : String}
    (h : FoundBelow fs root config q base (init ++ [piece])) (hfs : fs.Rooted)
    (hplain : fs.PlainBelow root) (hinit : ∀ s ∈ init, Path.IsName s) :
    InProject fs root config (Path.relative (Path.ofNames base) q) := by
  have hpieces : Path.pieces q = ("" :: (base ++ init)) ++ [piece] := by
    rw [h.pieces, List.cons_append, List.append_assoc]
  have hall : ∀ s ∈ init ++ [piece], Path.IsName s := by
    intro s hs
    rcases List.mem_append.mp hs with hs | hs
    · exact hinit s hs
    · rw [List.mem_singleton.mp hs]
      exact FileSystem.isName_of_isFile hfs hpieces h.file
  refine h.inProject_of_core hfs hplain ?_ ?_
  · rwa [Path.core_names hall]
  · rw [Path.core_names hall]
    exact h.nonempty

end FoundBelow

end InProject

section Resolve

variable {fs : FileSystem} {root file module : String} {config : ExtractionConfig}

/-- What an import leads to: the first file among those that it may stand for, if the path that is
written in it is not outside the root. -/
theorem resolve?_eq_some {c : ProjectContext} {rel : String}
    (h : c.resolve? fs config file module = some rel) : ∃ base q,
      c.importBase? fs file module = some base ∧ Path.isWithin c.anchor base = true ∧
      (importCandidates config base).find? (fun p => fs.isFile p && config.allows p) = some q ∧
      Path.relative c.anchor q = rel := by
  obtain ⟨base, hbase, h⟩ := Option.bind_eq_some_iff.mp h
  split at h
  · cases h
  · rename_i hin
    obtain ⟨q, hq, hrel⟩ := Option.map_eq_some_iff.mp h
    exact ⟨base, q, hbase, by simpa using hin, hq, hrel⟩

theorem exists_names_of_importBase? (hfs : fs.Rooted) {c : ProjectContext} {base : String}
    (h : c.importBase? fs file module = some base) :
    ∃ names, (∀ s ∈ names, Path.IsName s) ∧ base = Path.ofNames names := by
  obtain ⟨path, _, hanchored⟩ := Option.bind_eq_some_iff.mp h
  obtain ⟨names, hnames, rfl⟩ := Option.map_eq_some_iff.mp hanchored
  exact ⟨names, hfs.isName_of_absolute? hnames, rfl⟩

theorem anchor_new {base : List String} (h : Path.absolute? fs.cwd root = some base) :
    (new fs root).anchor = Path.ofNames base := by
  rw [new, anchored?, h]
  rfl

/-- Only below a root that has a place from the root of the file system is anything found, or below the
empty path. -/
theorem absolute?_of_resolve? (hfs : fs.Rooted) {rel : String} (hroot : root ≠ "")
    (h : (new fs root).resolve? fs config file module = some rel) :
    ∃ base, Path.absolute? fs.cwd root = some base := by
  cases habs : Path.absolute? fs.cwd root with
  | some base => exact ⟨base, rfl⟩
  | none =>
    obtain ⟨base, q, hbase, hin, _, _⟩ := resolve?_eq_some h
    obtain ⟨names, hnames, rfl⟩ := exists_names_of_importBase? hfs hbase
    have hanchor : (new fs root).anchor = root := by
      rw [new, anchored?, habs]
      rfl
    rw [hanchor, Path.not_isWithin_of_absolute?_eq_none hroot habs hnames] at hin
    cases hin

/-- Where there is a file beside the root, that is what is found. -/
theorem LeadsBeside.not_inProject (hfs : fs.Rooted) {rel : String}
    (hb : LeadsBeside fs root config file module)
    (h : (new fs root).resolve? fs config file module = some rel) :
    ¬ InProject fs root config rel := by
  obtain ⟨base, hroot, hne, himport, q', hq', hfile'⟩ := hb
  obtain ⟨_, q, hbase, _, hfind, rfl⟩ := resolve?_eq_some h
  rw [himport, Option.some.injEq] at hbase
  subst hbase
  -- the namesakes come first, so one of them is found
  have hq : q ∈ namesakes config (Path.ofNames base) := by
    rw [importCandidates_eq, List.find?_append] at hfind
    have hsome : ((namesakes config (Path.ofNames base)).find?
        fun p => fs.isFile p && config.allows p).isSome = true :=
      List.find?_isSome.mpr ⟨q', hq', hfile'⟩
    rw [Option.or_of_isSome hsome] at hfind
    exact List.mem_of_find?_eq_some hfind
  have hn := hfs.isName_of_absolute? hroot
  intro hin
  rw [anchor_new hroot] at hin
  rcases relative_namesake hn hne hq with hrel | hrel
  · have hname := hin.isName ""
    rw [hrel, Path.pieces_empty] at hname
    exact (hname (List.mem_singleton_self "")).ne_empty rfl
  · rw [hin.isAbsolute] at hrel
    cases hrel

/-- Otherwise what an import leads to lies below the root, by names and what its extension adds. -/
theorem exists_foundBelow (hfs : fs.Rooted) {rel : String} (hroot : root ≠ "")
    (hb : ¬ LeadsBeside fs root config file module)
    (h : (new fs root).resolve? fs config file module = some rel) :
    ∃ q base init rest, FoundBelow fs root config q base (init ++ rest) ∧
      Path.relative (Path.ofNames base) q = rel ∧ (∀ s ∈ init, Path.IsName s) ∧
      ((∀ ext ∈ config.extensions, '/' ∉ ext.toList) → ∃ piece, rest = [piece]) := by
  obtain ⟨base, hbase⟩ := absolute?_of_resolve? hfs hroot h
  obtain ⟨_, q, himport, hin, hfind, hrel⟩ := resolve?_eq_some h
  obtain ⟨names, hnames, rfl⟩ := exists_names_of_importBase? hfs himport
  rw [anchor_new hbase] at hin hrel
  obtain ⟨more, rfl⟩ := (Path.isWithin_ofNames (hfs.isName_of_absolute? hbase) hnames).mp hin
  have hfound := List.find?_some hfind
  obtain ⟨hfile, hallowed⟩ : fs.isFile q = true ∧ config.allows q = true := by simpa using hfound
  have hbeside : more = [] → base ≠ [] → q ∉ namesakes config (Path.ofNames base) := by
    rintro rfl hne hq
    rw [List.append_nil] at himport
    exact hb ⟨base, hbase, hne, himport, q, hq, hfound⟩
  obtain ⟨init, rest, hp, hinit, hne, hslash⟩ :=
    exists_pieces_of_candidate hnames (List.mem_of_find?_eq_some hfind) hfile hbeside
  exact ⟨q, base, init, rest,
    ⟨hbase, List.append_ne_nil_of_right_ne_nil _ hne, hp, hfile, hallowed⟩, hrel, hinit, hslash⟩

/-- An import that leads to a file leads to one of the project, given as the names below the root,
exactly if the root is not the empty path, the import does not lead to a namesake of the root, and
the path that it gives has no pieces but names. Unless an extension has a slash, these always are. -/
theorem imports_stay_iff {rel : String} (hfs : fs.Rooted) (hplain : fs.PlainBelow root)
    (h : (new fs root).resolve? fs config file module = some rel) :
    (InProject fs root config rel ↔ root ≠ "" ∧ ¬ LeadsBeside fs root config file module ∧
        ∀ s ∈ Path.pieces rel, Path.IsName s) ∧
      ((∀ ext ∈ config.extensions, '/' ∉ ext.toList) → root ≠ "" →
        ¬ LeadsBeside fs root config file module → InProject fs root config rel) := by
  refine ⟨⟨fun hin => ⟨?_, fun hb => hb.not_inProject hfs h hin, hin.isName⟩, ?_⟩, ?_⟩
  · rintro rfl
    obtain ⟨base, names, hfile⟩ := hin
    cases hfile.anchored
  · rintro ⟨hne, hb, hnames⟩
    obtain ⟨q, base, init, rest, hfound, rfl, _, _⟩ := exists_foundBelow hfs hne hb h
    exact hfound.inProject_of_pieces hfs hplain hnames
  · intro hslash hne hb
    obtain ⟨q, base, init, rest, hfound, rfl, hinit, hone⟩ := exists_foundBelow hfs hne hb h
    obtain ⟨piece, rfl⟩ := hone hslash
    exact hfound.inProject_of_last hfs hplain hinit

end Resolve

end ProjectContext

/-! ### A file beside the root -/

/-- A project and, beside it, a file of its name. -/
def Trial.beside : FileSystem where
  entries := .ofList [(["p"], .directory), (["p", "a.ts"], blank), (["p", "b"], .directory),
    (["p", "b", "index.ts"], blank), (["p.ts"], blank)]
  cwd := []

theorem Trial.sound_beside : Trial.beside.Sound := by decide +kernel

/-- An import of a directory of the project leads to the index file in it. -/
theorem Trial.imports_beside :
    (ProjectContext.new Trial.beside "/p").resolve? Trial.beside {} "/p/a.ts" "./b" =
        some "b/index.ts" ∧
      ProjectContext.InProject Trial.beside "/p" {} "b/index.ts" := by
  have hresolve : (ProjectContext.new Trial.beside "/p").resolve? Trial.beside {} "/p/a.ts" "./b" =
      some "b/index.ts" := by decide +kernel
  have hplain : Trial.beside.PlainBelow "/p" :=
    FileSystem.plainBelow_of_entries (by decide +kernel) "/p"
  refine ⟨hresolve, (ProjectContext.imports_stay_iff Trial.sound_beside.rooted hplain hresolve).2
    (by decide) (by decide) ?_⟩
  rintro ⟨base, hbase, _, himport, _⟩
  have hroot : Path.absolute? Trial.beside.cwd "/p" = some ["p"] := by decide +kernel
  obtain rfl : ["p"] = base := Option.some.inj (hroot.symm.trans hbase)
  revert himport
  decide +kernel

/-- An import of the root leads out of the project, to the file beside it. -/
theorem ProjectContext.exists_import_outside : ∃ fs root config file module rel,
    FileSystem.Rooted fs ∧ FileSystem.PlainBelow fs root ∧ Path.isWithin root file = true ∧
      FileSystem.isFile fs file = true ∧
      (new fs root).resolve? fs config file module = some rel ∧ ¬ InProject fs root config rel := by
  refine ⟨Trial.beside, "/p", {}, "/p/a.ts", "./", "/p.ts", Trial.sound_beside.rooted,
    FileSystem.plainBelow_of_entries (by decide +kernel) "/p", by decide +kernel, by decide +kernel,
    by decide +kernel, fun h => ?_⟩
  exact absurd h.isAbsolute (by decide)

end CodeAtlas
