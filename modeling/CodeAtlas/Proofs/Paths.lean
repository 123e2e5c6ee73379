/-
# Segments of joined, cut and shortened paths

Cutting a text at a character and joining the pieces undo each other. From this follow the segments
of a joined path (`Path.segments_join`) and of a parent (`Path.segments_of_parent?`), and that what
was joined to a path is what is left when the path is taken off again (`Path.strip?_join`).

Key definitions: `Path.IsName`, `Path.leadOf`, `Segment.piece?`.
Key theorems: `Path.pieces_ofParts`, `Path.ofParts_pieces`, `Path.segments_join`, `Path.strip?_join`,
`Path.strip?_self`, `Path.fileName?_join`, `Path.segments_of_parent?`.
-/
import CodeAtlas.Project.Path

namespace CodeAtlas

namespace Text

theorem splitChars_of_not_mem {sep : Char} : ∀ {cs : List Char}, sep ∉ cs → splitChars sep cs = [cs]
  | [], _ => rfl
  | c :: cs, h => by
    have hc : (c == sep) = false := by
      rw [beq_eq_false_iff_ne]
      rintro rfl
      exact h List.mem_cons_self
    rw [splitChars, hc, splitChars_of_not_mem fun hm => h (List.mem_cons_of_mem _ hm)]
    rfl

/-- A separator cuts a text in two. -/
theorem splitChars_append (sep : Char) (b : List Char) :
    ∀ a : List Char, splitChars sep (a ++ sep :: b) = splitChars sep a ++ splitChars sep b
  | [] => by simp [splitChars]
  | c :: a => by
    have ih := splitChars_append sep b a
    rw [List.cons_append, splitChars, splitChars, ih]
    by_cases hc : (c == sep) = true
    · rw [if_pos hc, if_pos hc, List.cons_append]
    · rw [if_neg hc, if_neg hc]
      cases hs : splitChars sep a with
      | nil => exact absurd hs (splitChars_ne_nil sep a)
      | cons piece rest => rfl

theorem not_mem_of_mem_splitChars {sep : Char} :
    ∀ {cs piece : List Char}, piece ∈ splitChars sep cs → sep ∉ piece
  | [], piece, h => by
    rw [splitChars, List.mem_singleton] at h
    simp [h]
  | c :: cs, piece, h => by
    have ih : ∀ piece ∈ splitChars sep cs, sep ∉ piece := fun _ => not_mem_of_mem_splitChars
    rw [splitChars] at h
    by_cases hc : (c == sep) = true
    · rw [if_pos hc] at h
      rcases List.mem_cons.mp h with rfl | h
      · simp
      · exact ih piece h
    · rw [if_neg hc] at h
      have hne : sep ≠ c := fun e => hc (by simp [e])
      cases hs : splitChars sep cs with
      | nil => exact absurd hs (splitChars_ne_nil sep cs)
      | cons first rest =>
        rw [hs] at h ih
        rcases List.mem_cons.mp h with rfl | h
        · simp [hne, ih first List.mem_cons_self]
        · exact ih piece (List.mem_cons_of_mem _ h)

/-- The pieces of a text, with the separator between them, are the text. -/
theorem intercalate_splitChars (sep : Char) :
    ∀ cs : List Char, [sep].intercalate (splitChars sep cs) = cs
  | [] => rfl
  | c :: cs => by
    have ih := intercalate_splitChars sep cs
    rw [splitChars]
    cases hs : splitChars sep cs with
    | nil => exact absurd hs (splitChars_ne_nil sep cs)
    | cons piece rest =>
      rw [hs] at ih
      by_cases hc : (c == sep) = true
      · have hsep : c = sep := by simpa using hc
        rw [if_pos hc, List.intercalate_cons_cons, ih, hsep]
        rfl
      · rw [if_neg hc]
        cases rest with
        | nil =>
          rw [List.intercalate_singleton] at ih ⊢
          rw [ih]
        | cons next rest =>
          rw [List.intercalate_cons_cons] at ih ⊢
          rw [List.cons_append, List.cons_append, ih]

theorem length_splitChars_le (sep : Char) :
    ∀ cs : List Char, (splitChars sep cs).length ≤ cs.length + 1
  | [] => by simp [splitChars]
  | c :: cs => by
    have ih := length_splitChars_le sep cs
    rw [splitChars]
    split
    · simpa using ih
    · cases hs : splitChars sep cs with
      | nil => exact absurd hs (splitChars_ne_nil sep cs)
      | cons piece rest =>
        rw [hs] at ih
        simp only [List.length_cons] at ih ⊢
        omega

end Text

/-- The piece that a segment is written with, where it is one of its own. -/
def Segment.piece? : Segment → Option String
  | .up => some ".."
  | .name s => some s
  | .root | .here => none

namespace Path

/-- A name that leads from a directory to an entry: a single piece that means itself. -/
structure IsName (s : String) : Prop where
  solid : isTrivial s = false
  notUp : s ≠ ".."
  noSlash : '/' ∉ s.toList

instance (s : String) : Decidable (IsName s) :=
  decidable_of_iff (isTrivial s = false ∧ s ≠ ".." ∧ '/' ∉ s.toList)
    ⟨fun ⟨a, b, c⟩ => ⟨a, b, c⟩, fun h => ⟨h.solid, h.notUp, h.noSlash⟩⟩

theorem IsName.ne_empty {s : String} (h : IsName s) : s ≠ "" := by
  rintro rfl
  exact absurd h.solid (by decide)

/-! ### Pieces -/

theorem pieces_ne_nil (path : String) : pieces path ≠ [] := by
  simpa [pieces, Text.splitOnChar] using Text.splitChars_ne_nil '/' path.toList

theorem not_mem_of_mem_pieces {path piece : String} (h : piece ∈ pieces path) :
    '/' ∉ piece.toList := by
  obtain ⟨cs, hcs, rfl⟩ := List.mem_map.mp h
  simpa using Text.not_mem_of_mem_splitChars hcs

theorem pieces_of_not_mem {s : String} (h : '/' ∉ s.toList) : pieces s = [s] := by
  simp [pieces, Text.splitOnChar, Text.splitChars_of_not_mem h]

theorem pieces_slash (a b : String) : pieces (a ++ "/" ++ b) = pieces a ++ pieces b := by
  simp [pieces, Text.splitOnChar, Text.splitChars_append]

@[simp] theorem pieces_empty : pieces "" = [""] := pieces_of_not_mem (by decide)

theorem length_pieces_le (path : String) : (pieces path).length ≤ path.length + 1 := by
  have := Text.length_splitChars_le '/' path.toList
  rwa [String.length_toList, ← List.length_map String.ofList] at this

/-- Joining pieces and cutting the path again gives the pieces back. -/
theorem pieces_ofParts : ∀ {parts : List String}, parts ≠ [] → (∀ s ∈ parts, '/' ∉ s.toList) →
    pieces (ofParts parts) = parts
  | [s], _, h => by
    rw [ofParts, Text.join, String.intercalate_singleton]
    exact pieces_of_not_mem (h s List.mem_cons_self)
  | s :: t :: rest, _, h => by
    have ih : pieces (ofParts (t :: rest)) = t :: rest :=
      pieces_ofParts (List.cons_ne_nil _ _) fun u hu => h u (List.mem_cons_of_mem _ hu)
    rw [ofParts, Text.join, String.intercalate_cons_cons]
    rw [show (s ++ "/" ++ String.intercalate "/" (t :: rest)) = s ++ "/" ++ ofParts (t :: rest) from rfl,
      pieces_slash, ih, pieces_of_not_mem (h s List.mem_cons_self), List.singleton_append]

/-- Cutting a path and joining the pieces again gives the path back. -/
theorem ofParts_pieces (path : String) : ofParts (pieces path) = path := by
  have hid : String.toList ∘ String.ofList = id := funext fun cs => String.toList_ofList
  rw [ofParts, Text.join, pieces, Text.splitOnChar, ← String.toList_inj, String.toList_intercalate,
    List.map_map, hid, List.map_id]
  exact Text.intercalate_splitChars '/' path.toList

theorem eq_of_pieces_eq {path path' : String} (h : pieces path = pieces path') : path = path' := by
  rw [← ofParts_pieces path, h, ofParts_pieces]

theorem eq_empty_of_pieces {path : String} (h : pieces path = [""]) : path = "" :=
  eq_of_pieces_eq (h.trans pieces_empty.symm)

/-! ### Segments -/

/-- What the first piece of a path means beyond its name. -/
def leadOf : List String → List Segment
  | [] => []
  | first :: rest =>
    if first == "" && !rest.isEmpty then [.root] else if first == "." then [.here] else []

/-- The segments of a path are what its first piece stands for, and its meaningful pieces. -/
theorem ofPieces_eq (parts : List String) :
    ofPieces parts = leadOf parts ++ parts.filterMap segment? := by
  cases parts with
  | nil => rfl
  | cons first rest =>
    rw [ofPieces, leadOf]
    by_cases h1 : (first == "" && !rest.isEmpty) = true
    · have hf : first = "" := by simp_all
      subst hf
      rw [if_pos h1, if_pos h1]
      rfl
    · rw [if_neg h1, if_neg h1]
      by_cases h2 : (first == ".") = true
      · have hf : first = "." := by simpa using h2
        subst hf
        rw [if_pos h2, if_pos h2]
        rfl
      · rw [if_neg h2, if_neg h2, List.nil_append]

theorem segments_eq (path : String) :
    segments path = leadOf (pieces path) ++ (pieces path).filterMap segment? := ofPieces_eq _

theorem root_not_mem_filterMap (parts : List String) : Segment.root ∉ parts.filterMap segment? := by
  intro h
  obtain ⟨s, _, hs⟩ := List.mem_filterMap.mp h
  rw [segment?] at hs
  split at hs
  · cases hs
  · split at hs <;> cases hs

theorem segment?_name {s : String} (h : IsName s) : segment? s = some (.name s) := by
  simp [segment?, h.solid, h.notUp]

theorem filterMap_names {names : List String} (h : ∀ s ∈ names, IsName s) :
    names.filterMap segment? = names.map .name := by
  induction names with
  | nil => rfl
  | cons s rest ih =>
    rw [List.filterMap_cons, segment?_name (h s List.mem_cons_self), List.map_cons,
      ih fun t ht => h t (List.mem_cons_of_mem _ ht)]

theorem leads_eq (parts : List String) : leads parts = !(leadOf parts).isEmpty := by
  cases parts with
  | nil => rfl
  | cons first rest =>
    rw [leads, leadOf]
    by_cases h1 : (first == "" && !rest.isEmpty) = true
    · rw [if_pos h1, h1]
      rfl
    · rw [if_neg h1, Bool.eq_false_iff.mpr h1, Bool.false_or]
      by_cases h2 : (first == ".") = true
      · rw [if_pos h2, h2]
        rfl
      · rw [if_neg h2, Bool.eq_false_iff.mpr h2]
        rfl

theorem length_leadOf (parts : List String) : (leadOf parts).length = (leads parts).toNat := by
  rw [leads_eq]
  cases parts with
  | nil => rfl
  | cons first rest =>
    rw [leadOf]
    split
    · rfl
    · split <;> rfl

theorem isTrivial_of_leads {first : String} {rest : List String} (h : leads (first :: rest) = true) :
    isTrivial first = true := by
  simp only [leads, Bool.or_eq_true, Bool.and_eq_true] at h
  rcases h with ⟨h, _⟩ | h <;> simp [isTrivial, h]

theorem length_segments_le (path : String) : (segments path).length ≤ path.length + 1 := by
  have hp := length_pieces_le path
  rw [segments_eq, List.length_append, length_leadOf]
  cases hs : pieces path with
  | nil => exact absurd hs (pieces_ne_nil path)
  | cons first rest =>
    rw [hs] at hp
    cases hl : leads (first :: rest) with
    | false =>
      have := List.length_filterMap_le segment? (first :: rest)
      simp only [Bool.toNat_false]
      omega
    | true =>
      have hn : segment? first = none := by simp [segment?, isTrivial_of_leads hl]
      have := List.length_filterMap_le segment? rest
      rw [List.filterMap_cons, hn]
      simp only [Bool.toNat_true, List.length_cons] at hp ⊢
      omega

theorem segments_ne_nil {path : String} (h : path ≠ "") : segments path ≠ [] := by
  rw [segments_eq]
  intro he
  obtain ⟨hl, hf⟩ := List.append_eq_nil_iff.mp he
  cases hs : pieces path with
  | nil => exact pieces_ne_nil path hs
  | cons first rest =>
    rw [hs] at hl hf
    have hn : segment? first = none := by
      cases hf' : segment? first with
      | none => rfl
      | some s => rw [List.filterMap_cons, hf'] at hf; cases hf
    have ht : isTrivial first = true := by
      rw [segment?] at hn
      split at hn
      · assumption
      · split at hn <;> cases hn
    simp only [isTrivial, Bool.or_eq_true, beq_iff_eq] at ht
    rcases ht with rfl | rfl
    · cases rest with
      | nil => exact h (eq_empty_of_pieces hs)
      | cons _ _ => simp [leadOf] at hl
    · simp [leadOf] at hl

/-- The pieces that mean something can be told from the segments. -/
theorem filterMap_piece? (path : String) :
    (segments path).filterMap Segment.piece? = (pieces path).filter fun s => !isTrivial s := by
  have hlead : (leadOf (pieces path)).filterMap Segment.piece? = [] := by
    cases pieces path with
    | nil => rfl
    | cons first rest =>
      rw [leadOf]
      split
      · rfl
      · split <;> rfl
  rw [segments_eq, List.filterMap_append, hlead, List.nil_append, List.filterMap_filterMap,
    ← List.filterMap_eq_filter]
  congr 1
  funext s
  rw [segment?, Option.guard]
  by_cases ht : isTrivial s = true
  · simp [ht]
  · by_cases hu : s = ".."
    · simp [hu, isTrivial, Segment.piece?]
    · simp [ht, hu, Segment.piece?]

/-! ### Joined paths -/

theorem isAbsolute_eq (path : String) : isAbsolute path = true ↔ leadOf (pieces path) = [.root] := by
  rw [isAbsolute, Text.beginsWith]
  cases hp : path.toList with
  | nil =>
    have : path = "" := String.toList_inj.mp hp
    subst this
    simp [leadOf]
  | cons c cs =>
    have hpieces : pieces path = (Text.splitChars '/' (c :: cs)).map String.ofList := by
      rw [pieces, Text.splitOnChar, hp]
    rw [hpieces, Text.splitChars]
    by_cases hc : c = '/'
    · subst hc
      have := Text.splitChars_ne_nil '/' cs
      simp [leadOf, this]
    · have hb : (c == '/') = false := by simpa using hc
      rw [hb]
      cases hs : Text.splitChars '/' cs with
      | nil => exact absurd hs (Text.splitChars_ne_nil '/' cs)
      | cons piece rest =>
        have hne : (String.ofList (c :: piece) == "") = false := by
          rw [beq_eq_false_iff_ne]
          intro e
          simpa using congrArg String.toList e
        have : '/' ≠ c := Ne.symm hc
        simp only [Bool.false_eq_true, if_false, List.map_cons, leadOf, hne, Bool.false_and]
        split <;> simp [this]

theorem leadOf_eq_root_iff (path : String) :
    leadOf (pieces path) = [.root] ↔ (segments path).head? = some .root := by
  have hsolid : ∀ parts : List String, (parts.filterMap segment?).head? ≠ some .root :=
    fun parts he => root_not_mem_filterMap parts (List.mem_of_head? he)
  rw [segments_eq]
  cases hp : pieces path with
  | nil => exact absurd hp (pieces_ne_nil path)
  | cons first rest =>
    rw [leadOf]
    split
    · simp
    · split
      · simp
      · simpa using hsolid (first :: rest)

theorem isAbsolute_iff_head {path : String} :
    isAbsolute path = true ↔ (segments path).head? = some .root := by
  rw [isAbsolute_eq]
  exact leadOf_eq_root_iff path

/-- Whether a path begins at the root can be told from its segments. -/
theorem isAbsolute_congr {path path' : String} (h : (segments path).head? = (segments path').head?) :
    isAbsolute path = isAbsolute path' := by
  rw [Bool.eq_iff_iff, isAbsolute_iff_head, isAbsolute_iff_head, h]

theorem isWithin_iff {base path : String} : isWithin base path = true ↔ segments base <+: segments path :=
  List.isPrefixOf_iff_prefix

/-- The pieces of a joined path are those of the first path, without an empty one at its end, and those
of the second. -/
theorem exists_pieces_join {base path : String} (hb : base ≠ "") (hp : isAbsolute path = false) :
    ∃ lead, lead ≠ [] ∧ (pieces base = lead ∨ pieces base = lead ++ [""]) ∧
      pieces (join base path) = lead ++ pieces path := by
  have hb' : (base == "") = false := by simpa using hb
  rw [join, hp, hb', Bool.or_self, if_neg Bool.false_ne_true]
  by_cases he : "/".toList.isSuffixOf base.toList = true
  · rw [if_pos he]
    obtain ⟨cs, hcs⟩ := List.isSuffixOf_iff_suffix.mp he
    have hbase : base = String.ofList cs ++ "/" := by
      rw [← String.toList_inj, String.toList_append, String.toList_ofList, hcs]
    refine ⟨pieces (String.ofList cs), pieces_ne_nil _, .inr ?_, ?_⟩
    · rw [hbase, ← String.append_empty (s := String.ofList cs ++ "/"), pieces_slash, pieces_empty]
    · rw [hbase, pieces_slash]
  · rw [if_neg he]
    exact ⟨pieces base, pieces_ne_nil base, .inl rfl, pieces_slash base path⟩

theorem leadOf_append {base : String} {lead : List String} (hb : base ≠ "") (hn : lead ≠ [])
    (h : pieces base = lead ∨ pieces base = lead ++ [""]) {rest : List String} (hr : rest ≠ []) :
    leadOf (lead ++ rest) = leadOf (pieces base) := by
  cases lead with
  | nil => exact absurd rfl hn
  | cons first more =>
    rcases h with h | h
    · rw [h, List.cons_append, leadOf, leadOf]
      cases more with
      | nil =>
        have hf : (first == "") = false := by
          rw [beq_eq_false_iff_ne]
          rintro rfl
          exact hb (eq_empty_of_pieces h)
        simp [hf]
      | cons _ _ => simp
    · rw [h, List.cons_append, List.cons_append, leadOf, leadOf]
      simp [hr]

theorem filterMap_of_pieces {base : String} {lead : List String}
    (h : pieces base = lead ∨ pieces base = lead ++ [""]) :
    lead.filterMap segment? = (pieces base).filterMap segment? := by
  rcases h with h | h
  · rw [h]
  · rw [h, List.filterMap_append, show [""].filterMap segment? = [] by decide, List.append_nil]

/-- The segments of a joined path. -/
theorem segments_join {base path : String} (hb : base ≠ "") (hp : isAbsolute path = false) :
    segments (join base path) = segments base ++ (pieces path).filterMap segment? := by
  obtain ⟨lead, hn, hlead, hj⟩ := exists_pieces_join hb hp
  rw [segments_eq, segments_eq, hj, leadOf_append hb hn hlead (pieces_ne_nil path),
    List.filterMap_append, filterMap_of_pieces hlead, List.append_assoc]

theorem isAbsolute_join {base path : String} (hb : base ≠ "") (hp : isAbsolute path = false) :
    isAbsolute (join base path) = isAbsolute base := by
  obtain ⟨lead, hn, hlead, hj⟩ := exists_pieces_join hb hp
  rw [Bool.eq_iff_iff, isAbsolute_eq, isAbsolute_eq, hj,
    leadOf_append hb hn hlead (pieces_ne_nil path)]

theorem join_ne_empty {base path : String} (hb : base ≠ "") (hp : isAbsolute path = false) :
    join base path ≠ "" := by
  intro he
  have := segments_join hb hp
  rw [he, show segments "" = [] by decide] at this
  exact segments_ne_nil hb (List.append_eq_nil_iff.mp this.symm).1

theorem isAbsolute_ofParts {names : List String} (h : ∀ s ∈ names, IsName s) :
    isAbsolute (ofParts names) = false := by
  rw [Bool.eq_false_iff]
  intro ha
  cases names with
  | nil => exact absurd ha (by decide)
  | cons s rest =>
    rw [isAbsolute_eq, pieces_ofParts (List.cons_ne_nil _ _) fun t ht => (h t ht).noSlash, leadOf] at ha
    have hs : (s == "") = false := by simpa using (h s List.mem_cons_self).ne_empty
    rw [hs, Bool.false_and, if_neg Bool.false_ne_true] at ha
    split at ha <;> cases ha

theorem isAbsolute_name {s : String} (h : IsName s) : isAbsolute s = false := by
  have : isAbsolute (ofParts [s]) = false := isAbsolute_ofParts (by simpa using h)
  rwa [ofParts, Text.join, String.intercalate_singleton] at this

theorem segments_join_ofParts {base : String} {names : List String} (hb : base ≠ "")
    (hn : names ≠ []) (h : ∀ s ∈ names, IsName s) :
    segments (join base (ofParts names)) = segments base ++ names.map .name := by
  rw [segments_join hb (isAbsolute_ofParts h), pieces_ofParts hn fun s hs => (h s hs).noSlash,
    filterMap_names h]

theorem segments_ofParts {names : List String} (h : ∀ s ∈ names, IsName s) :
    segments (ofParts names) = names.map .name := by
  cases names with
  | nil => decide
  | cons s rest =>
    have hs := h s List.mem_cons_self
    have h1 : (s == "") = false := by simpa using hs.ne_empty
    have h2 : (s == ".") = false := by
      have := hs.solid
      rw [isTrivial, Bool.or_eq_false_iff] at this
      exact this.2
    rw [segments_eq, pieces_ofParts (List.cons_ne_nil _ _) fun t ht => (h t ht).noSlash,
      filterMap_names h, leadOf, h1, h2]
    rfl

/-! ### Names -/

theorem fileName?_of_segments {path : String} {segs : List Segment} {names : List String}
    (hn : names ≠ []) (h : segments path = segs ++ names.map .name) :
    fileName? path = names.getLast? := by
  have hl : (segments path).getLast? = (names.map Segment.name).getLast? := by
    rw [h, List.getLast?_append, Option.or_of_isSome (by simpa using hn)]
  rw [fileName?, hl, List.getLast?_map]
  cases names.getLast? with
  | none => rfl
  | some s => rfl

theorem fileName?_join {base : String} {names : List String} (hb : base ≠ "") (hn : names ≠ [])
    (h : ∀ s ∈ names, IsName s) : fileName? (join base (ofParts names)) = names.getLast? :=
  fileName?_of_segments hn (segments_join_ofParts hb hn h)

theorem fileName?_ofParts {names : List String} (h : ∀ s ∈ names, IsName s) :
    fileName? (ofParts names) = names.getLast? := by
  cases names with
  | nil => decide
  | cons s rest =>
    have hs : segments (ofParts (s :: rest)) = [] ++ (s :: rest).map .name := segments_ofParts h
    exact fileName?_of_segments (List.cons_ne_nil _ _) hs

/-! ### The rest of a path -/

theorem dropWhile_trivial {triv names : List String} (ht : ∀ s ∈ triv, isTrivial s = true)
    (hn : ∀ s ∈ names, IsName s) : (triv ++ names).dropWhile isTrivial = names := by
  induction triv with
  | nil =>
    cases names with
    | nil => rfl
    | cons s rest => simp [(hn s List.mem_cons_self).solid]
  | cons t triv ih =>
    rw [List.cons_append, List.dropWhile_cons, ht t List.mem_cons_self, if_pos rfl]
    exact ih fun s hs => ht s (List.mem_cons_of_mem _ hs)

theorem dropEnd_names {names : List String} (hn : ∀ s ∈ names, IsName s) : dropEnd names = names := by
  have : ([] ++ names.reverse).dropWhile isTrivial = names.reverse :=
    dropWhile_trivial (by simp) fun s hs => hn s (List.mem_reverse.mp hs)
  rw [dropEnd, ← List.nil_append names.reverse, this, List.reverse_reverse]

/-- Dropping as many meaningful pieces as a list has leaves pieces that mean nothing before what
follows the list. -/
theorem exists_dropSegments (names : List String) : ∀ lead : List String,
    ∃ triv, (∀ s ∈ triv, isTrivial s = true) ∧
      dropSegments (lead.filterMap segment?).length (lead ++ names) = triv ++ names
  | [] => ⟨[], by simp, by simp [dropSegments]⟩
  | s :: lead => by
    obtain ⟨triv, ht, ih⟩ := exists_dropSegments names lead
    by_cases hs : isTrivial s = true
    · have hn : segment? s = none := by simp [segment?, hs]
      rw [List.filterMap_cons, hn]
      cases hc : (lead.filterMap segment?).length with
      | zero =>
        refine ⟨s :: triv, by simpa [hs] using ht, ?_⟩
        rw [hc] at ih
        simp only [dropSegments] at ih ⊢
        rw [List.cons_append, ih, List.cons_append]
      | succ n =>
        refine ⟨triv, ht, ?_⟩
        rw [hc] at ih
        simp only [List.cons_append, dropSegments, hs, if_true]
        exact ih
    · have hn : ∃ x, segment? s = some x := by
        rw [segment?, if_neg hs]
        split
        · exact ⟨_, rfl⟩
        · exact ⟨_, rfl⟩
      obtain ⟨x, hx⟩ := hn
      refine ⟨triv, ht, ?_⟩
      rw [List.filterMap_cons, hx]
      simp only [List.length_cons, List.cons_append, dropSegments, hs]
      exact ih

theorem rest_of_lead {lead names : List String} (hl : lead ≠ []) (hn : ∀ s ∈ names, IsName s)
    {parts : List String} (hp : parts = lead ++ names) {count : Nat}
    (hc : count = (leads parts).toNat + (lead.filterMap segment?).length) :
    (if leads parts then dropSegments (count - 1) parts.tail else dropSegments count parts).dropWhile
      isTrivial = names := by
  cases lead with
  | nil => exact absurd rfl hl
  | cons first more =>
    cases hf : leads parts with
    | true =>
      have ht : segment? first = none := by
        rw [hp, List.cons_append] at hf
        simp [segment?, isTrivial_of_leads hf]
      obtain ⟨triv, htriv, hd⟩ := exists_dropSegments names more
      rw [hf, List.filterMap_cons, ht, Bool.toNat_true] at hc
      rw [if_pos rfl, hc, Nat.add_sub_cancel_left, hp, List.cons_append, List.tail_cons, hd]
      exact dropWhile_trivial htriv hn
    | false =>
      obtain ⟨triv, htriv, hd⟩ := exists_dropSegments names (first :: more)
      rw [hf, Bool.toNat_false, Nat.zero_add] at hc
      rw [if_neg Bool.false_ne_true, hc, hp, hd]
      exact dropWhile_trivial htriv hn

theorem strip?_of_pieces {base path : String} {lead names : List String} (hb : base ≠ "")
    (hl : lead ≠ []) (hlead : pieces base = lead ∨ pieces base = lead ++ [""])
    (hsame : leadOf (lead ++ names) = leadOf (pieces base)) (hp : pieces path = lead ++ names)
    (hn : ∀ s ∈ names, IsName s) : strip? base path = some (ofParts names) := by
  have hcount : (segments base).length =
      (leads (pieces path)).toNat + (lead.filterMap segment?).length := by
    rw [segments_eq, List.length_append, ← hsame, ← hp, length_leadOf, filterMap_of_pieces hlead]
  have hwithin : isWithin base path = true := by
    rw [isWithin, List.isPrefixOf_iff_prefix, segments_eq, segments_eq, hp, hsame,
      List.filterMap_append, filterMap_of_pieces hlead, ← List.append_assoc]
    exact List.prefix_append _ _
  have hpos : (segments base).length ≠ 0 := fun h =>
    segments_ne_nil hb (List.length_eq_zero_iff.mp h)
  have hrest := rest_of_lead hl hn hp hcount
  rw [strip?]
  simp only [hwithin, Bool.not_true, Bool.false_eq_true, if_false, hpos, hrest, dropEnd_names hn]

/-- What was joined to a path is left when the path is taken off. -/
theorem strip?_join {base : String} {names : List String} (hb : base ≠ "") (hn : names ≠ [])
    (h : ∀ s ∈ names, IsName s) :
    strip? base (join base (ofParts names)) = some (ofParts names) := by
  obtain ⟨lead, hl, hlead, hj⟩ := exists_pieces_join hb (isAbsolute_ofParts h)
  rw [pieces_ofParts hn fun s hs => (h s hs).noSlash] at hj
  exact strip?_of_pieces hb hl hlead (leadOf_append hb hl hlead hn) hj h

theorem strip?_self {base : String} (hb : base ≠ "") : strip? base base = some "" :=
  strip?_of_pieces hb (pieces_ne_nil base) (.inl rfl) (by rw [List.append_nil])
    (List.append_nil _).symm (by simp)

/-! ### Parents -/

/-- What is left of a list without the pieces at its end that mean nothing: the pieces dropped mean
nothing, and the last piece left means something. -/
theorem exists_dropEnd (parts : List String) :
    ∃ triv, (∀ s ∈ triv, isTrivial s = true) ∧ parts = dropEnd parts ++ triv := by
  refine ⟨(parts.reverse.takeWhile isTrivial).reverse, ?_, ?_⟩
  · intro s hs
    exact List.all_eq_true.mp List.all_takeWhile s (List.mem_reverse.mp hs)
  · rw [dropEnd, ← List.reverse_append, List.takeWhile_append_dropWhile, List.reverse_reverse]

theorem mem_of_mem_dropEnd {parts : List String} {s : String} (h : s ∈ dropEnd parts) :
    s ∈ parts := by
  obtain ⟨triv, _, hp⟩ := exists_dropEnd parts
  rw [hp]
  exact List.mem_append_left _ h

theorem filterMap_trivial {triv : List String} (h : ∀ s ∈ triv, isTrivial s = true) :
    triv.filterMap segment? = [] := by
  rw [List.filterMap_eq_nil_iff]
  intro s hs
  simp [segment?, h s hs]

theorem filterMap_dropEnd (parts : List String) :
    (dropEnd parts).filterMap segment? = parts.filterMap segment? := by
  obtain ⟨triv, ht, hp⟩ := exists_dropEnd parts
  conv => rhs; rw [hp]
  rw [List.filterMap_append, filterMap_trivial ht, List.append_nil]

theorem isTrivial_of_getLast? {parts : List String} {s : String}
    (h : (dropEnd parts).getLast? = some s) : isTrivial s = false := by
  rw [dropEnd, List.getLast?_reverse] at h
  have := List.head?_dropWhile_not isTrivial parts.reverse
  rw [h] at this
  simpa using this

/-- Without the last piece, the last segment is gone. -/
theorem filterMap_dropLast {parts : List String} (h : dropEnd parts ≠ []) :
    (dropEnd parts).dropLast.filterMap segment? = (parts.filterMap segment?).dropLast ∧
      parts.filterMap segment? ≠ [] := by
  have hl : isTrivial ((dropEnd parts).getLast h) = false :=
    isTrivial_of_getLast? (List.getLast?_eq_some_getLast h)
  obtain ⟨x, hx⟩ : ∃ x, segment? ((dropEnd parts).getLast h) = some x := by
    rw [segment?, hl, if_neg Bool.false_ne_true]
    split <;> exact ⟨_, rfl⟩
  have he : parts.filterMap segment? = (dropEnd parts).dropLast.filterMap segment? ++ [x] := by
    conv => lhs; rw [← filterMap_dropEnd, ← List.dropLast_concat_getLast h]
    rw [List.filterMap_append, List.filterMap_cons, hx]
    rfl
  rw [he]
  simp

theorem segments_withLead {first : String} {rest : List String} (hf : first = "" ∨ first = ".")
    (hr : ∀ s ∈ rest, '/' ∉ s.toList) :
    segments (withLead first rest) =
      (if first = "" then [.root] else [.here]) ++ rest.filterMap segment? := by
  rw [withLead, ← filterMap_dropEnd rest]
  cases hd : dropEnd rest with
  | nil => rcases hf with rfl | rfl <;> decide
  | cons s kept =>
    have hslash : ∀ t ∈ first :: s :: kept, '/' ∉ t.toList := by
      intro t ht
      rcases List.mem_cons.mp ht with rfl | ht
      · rcases hf with rfl | rfl <;> decide
      · exact hr t (mem_of_mem_dropEnd (hd ▸ ht))
    rw [segments_eq, pieces_ofParts (List.cons_ne_nil _ _) hslash]
    rcases hf with rfl | rfl <;> rfl

theorem segments_ofParts_of_not_leads {parts kept : List String} (hl : leads parts = false)
    (hk : kept <+: parts) (hslash : ∀ s ∈ parts, '/' ∉ s.toList) (hne : dropEnd parts ≠ []) :
    segments (ofParts kept) = kept.filterMap segment? := by
  cases kept with
  | nil => decide
  | cons first more =>
    obtain ⟨rest, rfl⟩ := hk
    rw [segments_eq, pieces_ofParts (List.cons_ne_nil _ _) fun s hs =>
      hslash s (List.mem_append_left _ hs)]
    have hlead : leadOf (first :: more) = [] := by
      rw [List.cons_append] at hl hne
      simp only [leads, Bool.or_eq_false_iff, Bool.and_eq_false_iff] at hl
      rw [leadOf, hl.2]
      rcases hl.1 with h | h
      · simp [h]
      · have : more ++ rest = [] := by simpa using h
        obtain ⟨rfl, rfl⟩ := List.append_eq_nil_iff.mp this
        simp
    rw [hlead, List.nil_append]

theorem dropEnd_initial (parts : List String) : dropEnd parts <+: parts := by
  obtain ⟨triv, _, hp⟩ := exists_dropEnd parts
  exact ⟨triv, hp.symm⟩

theorem leadOf_of_leads {first : String} {rest : List String} (h : leads (first :: rest) = true) :
    (first = "" ∨ first = ".") ∧
      leadOf (first :: rest) = if first = "" then [.root] else [.here] := by
  have hf : first = "" ∨ first = "." := by simpa [isTrivial] using isTrivial_of_leads h
  refine ⟨hf, ?_⟩
  rcases hf with rfl | rfl
  · simpa [leads, leadOf] using h
  · simp [leadOf]

/-- The pieces at the end that mean nothing are no segments. -/
theorem segments_trimmed (path : String) : segments (trimmed (pieces path)) = segments path := by
  have hslash : ∀ s ∈ pieces path, '/' ∉ s.toList := fun s hs => not_mem_of_mem_pieces hs
  rw [segments_eq path]
  cases hp : pieces path with
  | nil => exact absurd hp (pieces_ne_nil path)
  | cons first rest =>
    rw [hp] at hslash
    rw [trimmed]
    cases hl : leads (first :: rest) with
    | true =>
      obtain ⟨hf, hlead⟩ := leadOf_of_leads hl
      have ht : segment? first = none := by simp [segment?, isTrivial_of_leads hl]
      rw [if_pos rfl, segments_withLead hf fun s hs => hslash s (List.mem_cons_of_mem _ hs), hlead,
        List.filterMap_cons, ht]
    | false =>
      have hlead : leadOf (first :: rest) = [] := by simpa [leads_eq] using hl
      rw [if_neg Bool.false_ne_true, hlead, List.nil_append, ← filterMap_dropEnd (first :: rest)]
      by_cases hd : dropEnd (first :: rest) = []
      · rw [hd]
        decide
      · exact segments_ofParts_of_not_leads hl (dropEnd_initial _) hslash hd

theorem parentOf_cases (parts : List String) (hslash : ∀ s ∈ parts, '/' ∉ s.toList) :
    (parentOf parts = none ∧ (ofPieces parts = [] ∨ ofPieces parts = [.root])) ∨
    ∃ q, parentOf parts = some q ∧ segments q = (ofPieces parts).dropLast ∧
      ofPieces parts ≠ [] ∧ ofPieces parts ≠ [.root] := by
  cases parts with
  | nil => exact .inl ⟨rfl, .inl rfl⟩
  | cons first rest =>
    have hrest : ∀ s ∈ rest, '/' ∉ s.toList := fun s hs => hslash s (List.mem_cons_of_mem _ hs)
    rw [ofPieces_eq, parentOf]
    cases hl : leads (first :: rest) with
    | true =>
      -- the path begins at the root or with a dot, which is its first segment
      have ht : segment? first = none := by simp [segment?, isTrivial_of_leads hl]
      obtain ⟨hf, hlead⟩ := leadOf_of_leads hl
      rw [List.filterMap_cons, ht, hlead, if_pos rfl]
      cases hd : dropEnd rest with
      | nil =>
        have : rest.filterMap segment? = [] := by rw [← filterMap_dropEnd, hd]; rfl
        rw [this]
        rcases hf with rfl | rfl
        · exact .inl ⟨rfl, .inr rfl⟩
        · exact .inr ⟨"", rfl, by decide, by simp, by simp⟩
      | cons s kept =>
        obtain ⟨hdrop, hne⟩ := filterMap_dropLast (show dropEnd rest ≠ [] by simp [hd])
        rw [hd] at hdrop
        refine .inr ⟨_, rfl, ?_, by simp [hne], ?_⟩
        · rw [segments_withLead hf, List.dropLast_append_of_ne_nil hne, hdrop]
          intro t ht
          exact hrest t (mem_of_mem_dropEnd (hd ▸ List.dropLast_subset _ ht))
        · rcases hf with rfl | rfl <;> simp [hne]
    | false =>
      have hlead : leadOf (first :: rest) = [] := by
        simpa [leads_eq] using hl
      rw [hlead, List.nil_append, if_neg Bool.false_ne_true]
      cases hd : dropEnd (first :: rest) with
      | nil =>
        refine .inl ⟨rfl, .inl ?_⟩
        rw [← filterMap_dropEnd, hd]
        rfl
      | cons s kept =>
        have hdne : dropEnd (first :: rest) ≠ [] := by simp [hd]
        obtain ⟨hdrop, hne⟩ := filterMap_dropLast hdne
        rw [hd] at hdrop
        refine .inr ⟨_, rfl, ?_, hne, ?_⟩
        · rw [segments_ofParts_of_not_leads hl _ hslash hdne, filterMap_dropEnd, hdrop]
          refine (dropEnd_initial _).trans ((List.dropLast_prefix _).trans ?_)
          rw [← hd]
          exact dropEnd_initial _
        · intro he
          exact root_not_mem_filterMap (first :: rest) (by simp [he])

/-- The parent of a path has its segments without the last one. -/
theorem segments_of_parent? {path parent : String} (h : parent? path = some parent) :
    segments parent = (segments path).dropLast ∧ segments path ≠ [] := by
  rcases parentOf_cases (pieces path) fun s hs => not_mem_of_mem_pieces hs with
    ⟨hn, _⟩ | ⟨q, hq, hs, hne, _⟩
  · rw [parent?, hn] at h
    cases h
  · rw [parent?, hq] at h
    cases h
    exact ⟨hs, hne⟩

theorem parent?_eq_none_iff {path : String} :
    parent? path = none ↔ segments path = [] ∨ segments path = [.root] := by
  rcases parentOf_cases (pieces path) fun s hs => not_mem_of_mem_pieces hs with
    ⟨hn, hs⟩ | ⟨q, hq, _, hne, hroot⟩
  · exact ⟨fun _ => hs, fun _ => hn⟩
  · refine ⟨fun h => ?_, ?_⟩
    · rw [parent?, hq] at h
      cases h
    · rintro (h | h)
      · exact absurd h hne
      · exact absurd h hroot

/-! ### Backslashes -/

theorem slashed_of_not_mem {s : String} (h : '\\' ∉ s.toList) : slashed s = s := by
  rw [slashed, Text.replaceChar, ← String.toList_inj, String.toList_map]
  have : s.toList.map (fun c => if c == '\\' then '/' else c) = s.toList.map id := by
    refine List.map_congr_left fun c hc => ?_
    have hne : (c == '\\') = false := by
      rw [beq_eq_false_iff_ne]
      rintro rfl
      exact h hc
    simp [hne]
  rw [this, List.map_id]

end Path

end CodeAtlas
