/-
# Which files are found

Below a root that is a directory, the files found are those with one of the extensions that no
directory of an unwanted name is on the way to (`FileSystem.IsSource`). The names of the root, of the
file and of what is above the root do not matter.

A walk that starts at the root and goes into each directory it meets, but passes over those of an
unwanted name together with all below them, meets the same files: a file is met when each directory on
the way to it is, and whether that is so can be read from their names (`FileSystem.visited_file_iff`).

Key definitions: `Path.HasExtension`, `Text.SameButCase`, `Path.Precedes`, `FileSystem.IsSource`,
`FileSystem.Visited`.
Key theorems: `Path.extensionOf_eq_some_iff`, `Text.beq_foldAscii_iff`, `FileSystem.visited_file_iff`,
`FileSystem.discover_exact`.
-/
import CodeAtlas.Proofs.Scan
import Mathlib.Data.List.Dedup
import Mathlib.Data.List.Forall2
import Mathlib.Data.List.Induction
import Mathlib.Data.List.Lex

namespace CodeAtlas

/-! ### Extensions -/

namespace Text

theorem splitChars_ne_empty (sep : Char) {cs : List Char} (h : cs ≠ []) : splitChars sep cs ≠ [[]] := by
  obtain ⟨c, cs, rfl⟩ := List.exists_cons_of_ne_nil h
  rw [splitChars]
  split
  · simp [splitChars_ne_nil]
  · split <;> simp

/-- A text with the separator in it ends in a part without, after the last separator. -/
theorem exists_last_of_mem {sep : Char} {cs : List Char} (h : sep ∈ cs) :
    ∃ before after, cs = before ++ sep :: after ∧ sep ∉ after := by
  obtain ⟨after, before, hcs, hafter⟩ := List.eq_append_cons_of_mem (List.mem_reverse.mpr h)
  refine ⟨before.reverse, after.reverse, ?_, by simpa using hafter⟩
  rw [← List.reverse_reverse cs, hcs]
  simp

/-- The capital letter, of A to Z, and the small letter. -/
def Capital (a b : Char) : Prop := 65 ≤ a.toNat ∧ a.toNat ≤ 90 ∧ b.toNat = a.toNat + 32

/-- Two texts have the same characters, or the small letter in one where the other has the capital. -/
def SameButCase (s t : String) : Prop :=
  List.Forall₂ (fun a b => a = b ∨ Capital a b ∨ Capital b a) s.toList t.toList

theorem toNat_toLower (c : Char) : c.toLower.toNat =
    if 65 ≤ c.toNat ∧ c.toNat ≤ 90 then c.toNat + 32 else c.toNat := by
  have hcapital : (c.val ≥ 'A'.val ∧ c.val ≤ 'Z'.val) ↔ 65 ≤ c.toNat ∧ c.toNat ≤ 90 := Iff.rfl
  by_cases h : c.val ≥ 'A'.val ∧ c.val ≤ 'Z'.val
  · have hval : c.toLower.val = c.val + 32 := by
      delta Char.toLower
      rw [dif_pos h]
      rfl
    have hle : c.val.toNat ≤ 90 := h.2
    rw [if_pos (hcapital.mp h), Char.toNat, hval, UInt32.toNat_add]
    exact Nat.mod_eq_of_lt (show c.val.toNat + 32 < 4294967296 by omega)
  · rw [if_neg fun hc => h (hcapital.mpr hc)]
    delta Char.toLower
    rw [dif_neg h]

theorem toLower_eq_iff {a b : Char} :
    a.toLower = b.toLower ↔ a = b ∨ Capital a b ∨ Capital b a := by
  rw [← Char.toNat_inj, ← Char.toNat_inj, toNat_toLower, toNat_toLower, Capital, Capital]
  split <;> split <;> omega

theorem beq_foldAscii (s t : String) : (foldAscii s == foldAscii t) =
    (s.toList.map Char.toLower == t.toList.map Char.toLower) := by
  rw [Bool.eq_iff_iff, beq_iff_eq, beq_iff_eq, ← String.toList_inj, foldAscii, foldAscii,
    String.toList_map, String.toList_map]

theorem beq_foldAscii_iff {s t : String} :
    (foldAscii s == foldAscii t) = true ↔ SameButCase s t := by
  rw [beq_foldAscii, beq_iff_eq, ← List.forall₂_eq_eq_eq, List.forall₂_map_left_iff,
    List.forall₂_map_right_iff, SameButCase]
  simp only [toLower_eq_iff]

end Text

namespace Path

/-- The name ends in a dot and the extension, with something before that dot and no further dot. -/
def HasExtension (name ext : String) : Prop :=
  ∃ stem, stem ≠ [] ∧ name.toList = stem ++ '.' :: ext.toList ∧ '.' ∉ ext.toList

theorem extensionOf_of_dot {name : String} {stem ext : List Char}
    (h : name.toList = stem ++ '.' :: ext) (hext : '.' ∉ ext) :
    extensionOf name = if stem = [] then none else some (.ofList ext) := by
  rw [extensionOf, h, Text.splitChars_append, Text.splitChars_of_not_mem hext, List.reverse_append]
  by_cases hstem : stem = []
  · rw [if_pos hstem, hstem]
    rfl
  · rw [if_neg hstem]
    cases hrev : (Text.splitChars '.' stem).reverse with
    | nil => exact absurd (List.reverse_eq_nil_iff.mp hrev) (Text.splitChars_ne_nil '.' stem)
    | cons before rest =>
      -- the dot is not at the start of the name, where it would not count
      have hfull : ¬ (rest.isEmpty && before.isEmpty) = true := by
        rw [Bool.and_eq_true, List.isEmpty_iff, List.isEmpty_iff]
        rintro ⟨rfl, rfl⟩
        exact Text.splitChars_ne_empty '.' hstem (List.reverse_eq_iff.mp hrev)
      exact if_neg hfull

theorem extensionOf_eq_some_iff {name ext : String} :
    extensionOf name = some ext ↔ HasExtension name ext := by
  constructor
  · intro h
    by_cases hdot : '.' ∈ name.toList
    · obtain ⟨stem, after, hname, hafter⟩ := Text.exists_last_of_mem hdot
      rw [extensionOf_of_dot hname hafter] at h
      obtain ⟨hstem, hext⟩ := Option.ite_none_left_eq_some.mp h
      cases hext
      exact ⟨stem, hstem, by simpa using hname, by simpa using hafter⟩
    · rw [extensionOf, Text.splitChars_of_not_mem hdot] at h
      cases h
  · rintro ⟨stem, hstem, hname, hext⟩
    rw [extensionOf_of_dot hname hext, if_neg hstem, String.ofList_toList]

end Path

/-! ### The order of paths -/

/-- A root is before a dot, that before a step up, and that before a name; names are ordered as texts. -/
inductive Segment.Precedes : Segment → Segment → Prop
  | root_here : Precedes .root .here
  | root_up : Precedes .root .up
  | root_name (s : String) : Precedes .root (.name s)
  | here_up : Precedes .here .up
  | here_name (s : String) : Precedes .here (.name s)
  | up_name (s : String) : Precedes .up (.name s)
  | names {s t : String} (h : s < t) : Precedes (.name s) (.name t)

/-- The order of paths by their segments, from the first on. -/
def Path.Precedes (a b : String) : Prop := List.Lex Segment.Precedes (segments a) (segments b)

theorem Segment.Precedes.ne {a b : Segment} (h : a.Precedes b) : a ≠ b := by
  rintro rfl
  cases h with
  | names h => exact String.lt_irrefl _ h

theorem Path.Precedes.ne {a b : String} (h : Precedes a b) : a ≠ b := by
  rintro rfl
  exact List.lex_irrefl (fun _ hs => Segment.Precedes.ne hs rfl) _ h

theorem compare_names_eq_lt_iff : ∀ {a b : List String},
    compare a b = .lt ↔ List.Lex (· < ·) a b
  | [], [] => ⟨fun h => (nomatch h), fun h => (nomatch h)⟩
  | _ :: _, [] => ⟨fun h => (nomatch h), fun h => (nomatch h)⟩
  | [], _ :: _ => ⟨fun _ => .nil, fun _ => rfl⟩
  | s :: a, t :: b => by
    have hcons : compare (s :: a) (t :: b) = (compare s t).then (compare a b) :=
      List.compareLex_cons_cons
    have hlt : compare s t = .lt ↔ s < t := compareOfLessAndEq_eq_lt
    rw [hcons, Ordering.then_eq_lt, List.cons_lex_cons_iff, hlt, SortedMap.compare_eq_iff,
      compare_names_eq_lt_iff]

theorem lex_of_append {base a b : List String} (h : List.Lex (· < ·) (base ++ a) (base ++ b)) :
    List.Lex (· < ·) a b := by
  induction base with
  | nil => exact h
  | cons s base ih =>
    rcases List.cons_lex_cons_iff.mp h with h | ⟨_, h⟩
    · exact absurd h (String.lt_irrefl s)
    · exact ih h

theorem lex_map_name {a b : List String} (h : List.Lex (· < ·) a b) :
    List.Lex Segment.Precedes (a.map .name) (b.map .name) := by
  induction h with
  | nil => exact .nil
  | rel h => exact .rel (.names h)
  | cons _ ih => exact .cons ih

/-- Paths below one root are in the order of the names that lead to them. -/
theorem Path.precedes_join {root : String} {a b : List String} (hroot : root ≠ "") (ha : a ≠ [])
    (hb : b ≠ []) (hna : ∀ s ∈ a, IsName s) (hnb : ∀ s ∈ b, IsName s) (h : List.Lex (· < ·) a b) :
    Precedes (join root (ofParts a)) (join root (ofParts b)) := by
  rw [Precedes, segments_join_ofParts hroot ha hna, segments_join_ofParts hroot hb hnb]
  exact (lex_map_name h).append_left _ _

/-! ### Source files -/

namespace ExtractionConfig

variable {c : ExtractionConfig} {name path : String}

/-- A directory of that name is not to be looked into. -/
def Unwanted (c : ExtractionConfig) (name : String) : Prop :=
  name.toList.head? = some '.' ∨ name ∈ c.ignoredDirs

/-- A file of that name has one of the extensions, in whatever case. -/
def Wanted (c : ExtractionConfig) (name : String) : Prop :=
  ∃ ext, Path.HasExtension name ext ∧ ∃ allowed ∈ c.extensions, Text.SameButCase allowed ext

theorem isIgnored_iff : c.isIgnored name = true ↔ c.Unwanted name := by
  rw [isIgnored, Bool.or_eq_true, List.contains_iff_mem, Unwanted, Text.beginsWith,
    List.isPrefixOf_iff_prefix]
  refine or_congr_left ?_
  cases name.toList with
  | nil => decide
  | cons d rest =>
    show ['.'] <+: d :: rest ↔ some d = some '.'
    rw [List.cons_prefix_cons, Option.some_inj, eq_comm]
    exact and_iff_left List.nil_prefix

theorem allows_iff (h : Path.fileName? path = some name) : c.allows path = true ↔ c.Wanted name := by
  rw [allows, Path.extension?, h, Option.bind_some, Option.any_eq_true]
  simp only [Path.extensionOf_eq_some_iff, List.any_eq_true, Text.beq_foldAscii_iff]
  rfl

end ExtractionConfig

namespace FileSystem

variable {fs : FileSystem} {c : ExtractionConfig} {base names : List String} {name root : String}

/-- The names lead from the root, itself at `base`, to a file that has one of the extensions, and no
directory on the way has an unwanted name. -/
structure IsSource (fs : FileSystem) (c : ExtractionConfig) (base names : List String) : Prop where
  file : ∃ content mtime, fs.entry? (base ++ names) = some (.file content mtime)
  wanted : ∃ name, names.getLast? = some name ∧ c.Wanted name
  clear : ∀ above dir below, names = above ++ dir :: below → below ≠ [] → ¬ c.Unwanted dir

/-- What a walk meets: the root, and in a directory it has met each entry, save the directories of an
unwanted name. -/
inductive Visited (fs : FileSystem) (c : ExtractionConfig) (base : List String) : List String → Prop
  | root : Visited fs c base []
  | entry {names : List String} {name : String} {e : Entry} (parent : Visited fs c base names)
    (directory : fs.entry? (base ++ names) = some .directory)
    (present : fs.entry? (base ++ (names ++ [name])) = some e)
    (kept : e = .directory → ¬ c.Unwanted name) : Visited fs c base (names ++ [name])

theorem visited_concat_iff : fs.Visited c base (names ++ [name]) ↔ fs.Visited c base names ∧
    fs.entry? (base ++ names) = some .directory ∧
    ∃ e, fs.entry? (base ++ (names ++ [name])) = some e ∧ (e = .directory → ¬ c.Unwanted name) := by
  constructor
  · intro h
    generalize hnames : names ++ [name] = l at h
    cases h with
    | root => simp at hnames
    | entry parent directory present kept =>
      obtain ⟨rfl, hname⟩ := List.append_inj' hnames rfl
      cases hname
      exact ⟨parent, directory, _, present, kept⟩
  · rintro ⟨parent, directory, e, present, kept⟩
    exact .entry parent directory present kept

theorem Rooted.directory_of_concat (hs : fs.Rooted) {e : Entry}
    (he : fs.entry? (base ++ (names ++ [name])) = some e) :
    fs.entry? (base ++ names) = some .directory := by
  rw [← List.append_assoc] at he
  exact hs.directory_of_append [name] _ he (List.cons_ne_nil _ _)

/-- A directory is met when none on the way to it, and it neither, has an unwanted name. -/
theorem visited_directory_iff (hs : fs.Rooted) (hd : fs.entry? (base ++ names) = some .directory) :
    fs.Visited c base names ↔ ∀ dir ∈ names, ¬ c.Unwanted dir := by
  -- from the last name back, as the walk comes to a directory last
  induction names using List.reverseRecOn with
  | nil => exact iff_of_true .root (by simp)
  | append_singleton names name ih =>
    have hparent := hs.directory_of_concat hd
    rw [visited_concat_iff, ih hparent, hd]
    simp [hparent, or_imp, forall_and]

/-- A file is met when no directory on the way to it has an unwanted name. -/
theorem visited_file_iff (hs : fs.Rooted) {content : Content} {mtime : Int} (hne : names ≠ [])
    (hf : fs.entry? (base ++ names) = some (.file content mtime)) :
    fs.Visited c base names ↔ ∀ dir ∈ names.dropLast, ¬ c.Unwanted dir := by
  obtain ⟨names, name, rfl⟩ := (List.eq_nil_or_concat' names).resolve_left hne
  have hparent := hs.directory_of_concat hf
  rw [visited_concat_iff, visited_directory_iff hs hparent, hf, List.dropLast_concat]
  simp [hparent]

/-- The names before the last are those of the directories on the way. -/
theorem mem_dropLast_iff {dir : String} (hne : names ≠ []) : dir ∈ names.dropLast ↔
    ∃ above below, names = above ++ dir :: below ∧ below ≠ [] := by
  obtain ⟨names, name, rfl⟩ := (List.eq_nil_or_concat' names).resolve_left hne
  rw [List.dropLast_concat]
  constructor
  · intro h
    obtain ⟨above, below, rfl⟩ := List.append_of_mem h
    exact ⟨above, below ++ [name], by simp, by simp⟩
  · rintro ⟨above, below, hnames, hbelow⟩
    obtain ⟨below, _, rfl⟩ := (List.eq_nil_or_concat' below).resolve_left hbelow
    rw [← List.cons_append, ← List.append_assoc] at hnames
    simp [(List.append_inj' hnames rfl).1]

/-- Whether a file belongs to the project is a question of its name and the names on the way to it. -/
theorem belongs_iff (hne : names ≠ []) (hnamed : ∀ s ∈ names, Path.IsName s) :
    belongs c names = true ↔ (∃ name, names.getLast? = some name ∧ c.Wanted name) ∧
      ∀ dir ∈ names.dropLast, ¬ c.Unwanted dir := by
  have hlast := List.getLast?_eq_some_getLast hne
  have hallows := c.allows_iff ((Path.fileName?_ofParts hnamed).trans hlast)
  simp only [belongs, Bool.and_eq_true, hallows, hlast]
  simp [hne, ← ExtractionConfig.isIgnored_iff, and_comm]

variable {content : Content} {mtime : Int}

/-- A file is not the root, which is a directory. -/
theorem ne_nil_of_file (hd : fs.entry? base = some .directory)
    (hf : fs.entry? (base ++ names) = some (.file content mtime)) : names ≠ [] := by
  rintro rfl
  rw [List.append_nil, hd] at hf
  cases hf

theorem Rooted.named_of_append (hs : fs.Rooted) {e : Entry} (he : fs.entry? (base ++ names) = some e) :
    ∀ s ∈ names, Path.IsName s :=
  fun s h => hs.named he s (List.mem_append_right _ h)

/-- The files that are listed are the source files. -/
theorem mem_sourceNames_iff (hs : fs.Rooted) (hd : fs.entry? base = some .directory) :
    names ∈ fs.sourceNames c base ↔ fs.IsSource c base names := by
  rw [mem_sourceNames]
  constructor
  · rintro ⟨hb, content, mtime, hf⟩
    have hne := ne_nil_of_file hd hf
    obtain ⟨hwanted, hclear⟩ := (belongs_iff hne (hs.named_of_append hf)).mp hb
    exact ⟨⟨content, mtime, hf⟩, hwanted, fun above dir below h hbelow =>
      hclear dir ((mem_dropLast_iff hne).mpr ⟨above, below, h, hbelow⟩)⟩
  · rintro ⟨⟨content, mtime, hf⟩, hwanted, hclear⟩
    have hne := ne_nil_of_file hd hf
    refine ⟨(belongs_iff hne (hs.named_of_append hf)).mpr ⟨hwanted, fun dir h => ?_⟩,
      content, mtime, hf⟩
    obtain ⟨above, below, h, hbelow⟩ := (mem_dropLast_iff hne).mp h
    exact hclear above dir below h hbelow

/-- They are listed in the order of the names that lead to them. -/
theorem pairwise_sourceNames (fs : FileSystem) (c : ExtractionConfig) (base : List String) :
    (fs.sourceNames c base).Pairwise (List.Lex (· < ·)) := by
  rw [sourceNames, List.pairwise_filterMap]
  refine (fs.entries.ascending.sublist List.filter_sublist).imp ?_
  intro e e' hlt names h names' h'
  obtain ⟨h, _⟩ := Option.filter_eq_some_iff.mp h
  obtain ⟨h', _⟩ := Option.filter_eq_some_iff.mp h'
  rw [below?_eq_some_iff.mp h, below?_eq_some_iff.mp h'] at hlt
  exact lex_of_append (compare_names_eq_lt_iff.mp hlt)

theorem discover_of_directory (hl : fs.locate root = .ok base) (hd : fs.entry? base = some .directory) :
    fs.discover root c =
      (fs.sourceNames c base).map fun names => Path.join root (Path.ofParts names) := by
  rw [discover, hl]
  simp only [hd]

/-- The paths of the files among what a walk met that have one of the extensions. -/
def gathered (fs : FileSystem) (c : ExtractionConfig) (root : String) (base : List String)
    (walk : List (List String)) : List String :=
  (walk.filter fun names => (fs.entry? (base ++ names)).any Entry.isFile &&
    c.allows (Path.join root (Path.ofParts names))).map fun names =>
      Path.join root (Path.ofParts names)

/-- A walk meets each entry once, in whatever order. -/
structure Walks (fs : FileSystem) (c : ExtractionConfig) (base : List String)
    (walk : List (List String)) : Prop where
  once : walk.Nodup
  met : ∀ names, names ∈ walk ↔ fs.Visited c base names

/-- What a walk meets is there. -/
theorem mem_of_visited (h : fs.Visited c base names) :
    names = [] ∨ names ∈ fs.entries.keys.filterMap (below? base) := by
  cases h with
  | root => exact .inl rfl
  | @entry names name e _ _ present _ =>
    rw [entry?_of_ne_nil (by simp)] at present
    have hkey := SortedMap.mem_keys.mpr (SortedMap.contains_of_get? present)
    exact .inr (List.mem_filterMap.mpr ⟨_, hkey, below?_eq_some_iff.mpr rfl⟩)

theorem exists_walks (fs : FileSystem) (c : ExtractionConfig) (base : List String) :
    ∃ walk, fs.Walks c base walk := by
  classical
  refine ⟨(([] :: fs.entries.keys.filterMap (below? base)).filter (fs.Visited c base ·)).dedup,
    List.nodup_dedup _, fun names => ?_⟩
  rw [List.mem_dedup, List.mem_filter, List.mem_cons, decide_eq_true_iff]
  exact and_iff_right_of_imp mem_of_visited

/-- Of what a walk meets, the files of the project are those with one of the extensions. -/
theorem belongs_iff_visited (hs : fs.Rooted) (hroot : root ≠ "") (hne : names ≠ [])
    (hf : fs.entry? (base ++ names) = some (.file content mtime)) :
    belongs c names = true ↔
      fs.Visited c base names ∧ c.allows (Path.join root (Path.ofParts names)) = true := by
  have hnamed := hs.named_of_append hf
  have hlast := List.getLast?_eq_some_getLast hne
  rw [belongs_iff hne hnamed, visited_file_iff hs hne hf, and_comm,
    c.allows_iff ((Path.fileName?_join hroot hne hnamed).trans hlast), hlast]
  simp

theorem nodup_sourceNames (fs : FileSystem) (c : ExtractionConfig) (base : List String) :
    (fs.sourceNames c base).Nodup := by
  refine (pairwise_sourceNames fs c base).imp ?_
  rintro names _ h rfl
  exact List.lex_irrefl String.lt_irrefl _ h

/-- The paths that are found are those that a walk gathers. -/
theorem perm_gathered (hs : fs.Rooted) (hl : fs.locate root = .ok base)
    (hd : fs.entry? base = some .directory) {walk : List (List String)} (hw : fs.Walks c base walk) :
    (fs.discover root c).Perm (fs.gathered c root base walk) := by
  rw [discover_of_directory hl hd, gathered]
  refine List.Perm.map _ ?_
  rw [List.perm_ext_iff_of_nodup (nodup_sourceNames fs c base) (hw.once.filter _)]
  intro names
  rw [mem_sourceNames, List.mem_filter, hw.met, Bool.and_eq_true]
  have hroot := ne_empty_of_locate hl
  constructor
  · rintro ⟨hb, content, mtime, hf⟩
    obtain ⟨hv, ha⟩ := (belongs_iff_visited hs hroot (ne_nil_of_file hd hf) hf).mp hb
    exact ⟨hv, by rw [hf]; rfl, ha⟩
  · rintro ⟨hv, hfile, ha⟩
    cases he : fs.entry? (base ++ names) with
    | none => rw [he] at hfile; cases hfile
    | some e =>
      cases e with
      | directory => rw [he] at hfile; cases hfile
      | file content mtime =>
        exact ⟨(belongs_iff_visited hs hroot (ne_nil_of_file hd he) he).mpr ⟨hv, ha⟩,
          content, mtime, rfl⟩

/-- The paths are in ascending order. -/
theorem pairwise_discover (hs : fs.Rooted) (hl : fs.locate root = .ok base)
    (hd : fs.entry? base = some .directory) : (fs.discover root c).Pairwise Path.Precedes := by
  rw [discover_of_directory hl hd, List.pairwise_map]
  refine (pairwise_sourceNames fs c base).imp_of_mem ?_
  intro a b ha hb h
  obtain ⟨_, _, _, hfa⟩ := mem_sourceNames.mp ha
  obtain ⟨_, _, _, hfb⟩ := mem_sourceNames.mp hb
  exact Path.precedes_join (ne_empty_of_locate hl) (ne_nil_of_file hd hfa) (ne_nil_of_file hd hfb)
    (hs.named_of_append hfa) (hs.named_of_append hfb) h

/-- The paths are those of the source files, each once and in ascending order, and they are what any
walk gathers. -/
structure Finds (fs : FileSystem) (c : ExtractionConfig) (root : String) (base : List String)
    (paths : List String) : Prop where
  once : paths.Nodup
  ascending : paths.Pairwise Path.Precedes
  sources : ∀ path, path ∈ paths ↔
    ∃ names, path = Path.join root (Path.ofParts names) ∧ fs.IsSource c base names
  gathers : (∃ walk, fs.Walks c base walk) ∧
    ∀ walk, fs.Walks c base walk → paths.Perm (fs.gathered c root base walk)

/-- In a directory, the source files below it are found. -/
theorem discover_exact (hs : fs.Rooted) (hl : fs.locate root = .ok base)
    (hd : fs.entry? base = some .directory) (c : ExtractionConfig) :
    fs.Finds c root base (fs.discover root c) := by
  have hascending := pairwise_discover (c := c) hs hl hd
  refine ⟨hascending.imp Path.Precedes.ne, hascending, fun path => ?_,
    exists_walks fs c base, fun _ => perm_gathered hs hl hd⟩
  rw [discover_of_directory hl hd, List.mem_map]
  simp only [mem_sourceNames_iff hs hd, eq_comm, and_comm]

end FileSystem

namespace Trial

/-- A project in a directory whose name begins with a dot, with files and directories of names that are
unwanted for the one or look like the other; one file may not be read. -/
def dotted : FileSystem where
  entries := .ofList [([".app"], .directory), ([".app", ".env.ts"], blank),
    ([".app", ".ts"], blank), ([".app", "a.TS"], blank), ([".app", "d.ts"], .directory),
    ([".app", "d.ts", "e.ts"], blank), ([".app", "lib"], .directory),
    ([".app", "lib", "x.ts"], .directory), ([".app", "lib", "x.ts", "in"], .directory),
    ([".app", "lib", "x.ts", "in", "b.ts"], blank), ([".app", "lib", "z.ts"], .file (.withheld 8) 0),
    ([".app", "lib-a.ts"], blank), ([".app", "src"], .directory),
    ([".app", "src", ".git"], .directory), ([".app", "src", ".git", "c.ts"], blank),
    ([".app", "src", "x.ts"], blank), (["f.ts"], blank)]
  cwd := []

/-- One extension, in mixed case, and one directory to pass over. -/
def mixedCase : ExtractionConfig := ⟨["Ts"], ["x.ts"], 0⟩

theorem discover_dotted : dotted.Rooted ∧ dotted.locate "/.app" = .ok [".app"] ∧
    dotted.entry? [".app"] = some .directory ∧
    dotted.Finds mixedCase "/.app" [".app"] ["/.app/.env.ts", "/.app/a.TS", "/.app/d.ts/e.ts",
      "/.app/lib/z.ts", "/.app/lib-a.ts", "/.app/src/x.ts"] := by
  have hs : dotted.Rooted := FileSystem.Sound.rooted (by decide +kernel)
  have hl : dotted.locate "/.app" = .ok [".app"] := by decide +kernel
  have hd : dotted.entry? [".app"] = some .directory := by decide +kernel
  -- the letters are compared, which evaluates much faster than comparing the texts made of them
  have hbelongs : FileSystem.belongs mixedCase = fun names => !names.isEmpty &&
      !names.dropLast.any mixedCase.isIgnored && (Path.extension? (Path.ofParts names)).any fun ext =>
        mixedCase.extensions.any fun a => a.toList.map Char.toLower == ext.toList.map Char.toLower := by
    funext names
    rw [FileSystem.belongs, ExtractionConfig.allows]
    simp only [Text.beq_foldAscii]
  have hpaths : dotted.discover "/.app" mixedCase = ["/.app/.env.ts", "/.app/a.TS", "/.app/d.ts/e.ts",
      "/.app/lib/z.ts", "/.app/lib-a.ts", "/.app/src/x.ts"] := by
    rw [FileSystem.discover_of_directory hl hd, FileSystem.sourceNames, hbelongs]
    decide +kernel
  refine ⟨hs, hl, hd, ?_⟩
  rw [← hpaths]
  exact FileSystem.discover_exact hs hl hd mixedCase

end Trial

end CodeAtlas
