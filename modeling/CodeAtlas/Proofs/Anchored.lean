/-
# Names from the root of the file system

A path with a place in the file system is that of the names that lead there (`Path.ofNames`), whatever
dots it was written with (`Path.isName_of_absolute?`). Such paths are within each other as their names
are (`Path.isWithin_ofNames`), and a path that has no place holds none of them
(`Path.not_isWithin_of_absolute?_eq_none`).

What follows the names in a path is what is left when the names are taken off, without pieces at its
ends that mean nothing (`Path.strip?_below`). With another piece in the place of the last name, nothing
is taken off (`Path.strip?_beside`). A text that goes on after a path changes the last piece of the path
and adds further ones only with a slash (`Path.exists_pieces_append`).

Key definitions: `Path.core`.
Key theorems: `Path.exists_pieces_append`, `Path.isName_of_slashed`, `Path.pieces_join_ofNames`,
`Path.isName_of_absolute?`, `Path.isWithin_ofNames`, `Path.strip?_below`, `Path.strip?_beside`.
-/
import CodeAtlas.Proofs.Paths

namespace CodeAtlas

namespace Text

/-- The last piece of a text and the first piece of what follows it become one. -/
theorem exists_splitChars_append (sep : Char) : ∀ a : List Char,
    ∃ init last, splitChars sep a = init ++ [last] ∧ ∀ b first rest,
      splitChars sep b = first :: rest →
      splitChars sep (a ++ b) = init ++ (last ++ first) :: rest
  | [] => ⟨[], [], rfl, fun _ _ _ hb => hb⟩
  | c :: a => by
    obtain ⟨init, last, ha, hab⟩ := exists_splitChars_append sep a
    by_cases hc : (c == sep) = true
    · refine ⟨[] :: init, last, ?_, fun b first rest hb => ?_⟩
      · rw [splitChars, if_pos hc, ha, List.cons_append]
      · rw [List.cons_append, splitChars, if_pos hc, hab b first rest hb, List.cons_append]
    · cases init with
      | nil =>
        refine ⟨[], c :: last, ?_, fun b first rest hb => ?_⟩
        · rw [splitChars, if_neg hc, ha]
          rfl
        · rw [List.cons_append, splitChars, if_neg hc, hab b first rest hb]
          rfl
      | cons piece init =>
        refine ⟨(c :: piece) :: init, last, ?_, fun b first rest hb => ?_⟩
        · rw [splitChars, if_neg hc, ha]
          rfl
        · rw [List.cons_append, splitChars, if_neg hc, hab b first rest hb]
          rfl

theorem eq_of_dropEnd? {ending s r : String} (h : dropEnd? ending s = some r) : s = r ++ ending := by
  rw [dropEnd?] at h
  split at h
  · rename_i hsuffix
    obtain ⟨cs, hcs⟩ := List.isSuffixOf_iff_suffix.mp hsuffix
    cases h
    rw [← String.toList_inj, String.toList_append, String.toList_ofList, ← hcs, List.length_append,
      Nat.add_sub_cancel, List.take_left]
  · cases h

end Text

namespace Path

/-! ### Pieces of longer texts -/

theorem exists_pieces_append (a : String) : ∃ init last, pieces a = init ++ [last] ∧
    ∀ b first rest, pieces b = first :: rest →
      pieces (a ++ b) = init ++ (last ++ first) :: rest := by
  obtain ⟨init, last, ha, hab⟩ := Text.exists_splitChars_append '/' a.toList
  refine ⟨init.map String.ofList, String.ofList last, ?_, fun b first rest hb => ?_⟩
  · simp [pieces, Text.splitOnChar, ha]
  · obtain ⟨f, r, hcs, rfl, rfl⟩ := List.map_eq_cons_iff.mp hb
    simp [pieces, Text.splitOnChar, hab b.toList f r hcs]

theorem pieces_append_of_not_mem {a b first : String} {rest : List String} (ha : '/' ∉ a.toList)
    (hb : pieces b = first :: rest) : pieces (a ++ b) = (a ++ first) :: rest := by
  obtain ⟨init, last, h, happ⟩ := exists_pieces_append a
  rw [pieces_of_not_mem ha] at h
  rcases List.append_eq_singleton_iff.mp h.symm with ⟨rfl, hlast⟩ | ⟨_, hlast⟩
  · cases hlast
    exact happ b first rest hb
  · cases hlast

theorem isTrivial_of_append {a b : String} (h : isTrivial (a ++ b) = true) :
    isTrivial a = true ∧ isTrivial b = true := by
  have hcases : a ++ b = "" ∨ a ++ b = "." := by simpa [isTrivial] using h
  have hlists : a.toList ++ b.toList = [] ∨ a.toList ++ b.toList = ['.'] := by
    rcases hcases with h | h
    · exact .inl (by rw [← String.toList_append, h]; rfl)
    · exact .inr (by rw [← String.toList_append, h]; rfl)
  have htriv : ∀ s : String, s.toList = [] ∨ s.toList = ['.'] → isTrivial s = true := by
    intro s hs
    have : s = "" ∨ s = "." := hs.imp (fun e => String.toList_inj.mp e) fun e => String.toList_inj.mp e
    simpa [isTrivial] using this
  rcases hlists with h | h
  · have := List.append_eq_nil_iff.mp h
    exact ⟨htriv a (.inl this.1), htriv b (.inl this.2)⟩
  · rcases List.append_eq_singleton_iff.mp h with ⟨ha, hb⟩ | ⟨ha, hb⟩
    · exact ⟨htriv a (.inl ha), htriv b (.inr hb)⟩
    · exact ⟨htriv a (.inr ha), htriv b (.inl hb)⟩

/-- The pieces of a path of parts are those of each part. -/
theorem pieces_ofParts_eq : ∀ {parts : List String}, parts ≠ [] →
    pieces (ofParts parts) = parts.flatMap pieces
  | [s], _ => by
    rw [ofParts, Text.join, String.intercalate_singleton, List.flatMap_singleton]
  | s :: t :: rest, _ => by
    have ih := pieces_ofParts_eq (List.cons_ne_nil t rest)
    rw [ofParts, Text.join] at ih ⊢
    rw [String.intercalate_cons_cons, pieces_slash, ih, ← List.flatMap_cons]

theorem slashed_append (a b : String) : slashed (a ++ b) = slashed a ++ slashed b := by
  rw [slashed, slashed, slashed, Text.replaceChar, Text.replaceChar, Text.replaceChar,
    ← String.toList_inj]
  simp

theorem slashed_ofParts : ∀ parts : List String,
    slashed (ofParts parts) = ofParts (parts.map slashed)
  | [] => slashed_of_not_mem (by decide)
  | [s] => by
    rw [List.map_singleton, ofParts, Text.join, String.intercalate_singleton, ofParts, Text.join,
      String.intercalate_singleton]
  | s :: t :: rest => by
    have ih := slashed_ofParts (t :: rest)
    rw [ofParts, ofParts, Text.join, Text.join] at ih ⊢
    rw [String.intercalate_cons_cons, slashed_append, slashed_append, ih,
      slashed_of_not_mem (s := "/") (by decide), List.map_cons, List.map_cons, List.map_cons,
      String.intercalate_cons_cons]

/-- Parts are names if they are once slashes stand for their backslashes. -/
theorem isName_of_slashed {parts : List String} (hslash : ∀ s ∈ parts, '/' ∉ s.toList)
    (h : ∀ s ∈ pieces (slashed (ofParts parts)), IsName s) : ∀ s ∈ parts, IsName s := by
  intro s hs
  have hne : parts ≠ [] := List.ne_nil_of_mem hs
  -- what is no name without having a slash has no backslash either
  have hplain : '\\' ∉ s.toList → IsName s := by
    intro hback
    refine h s ?_
    rw [slashed_ofParts, pieces_ofParts_eq (by simpa using hne), List.mem_flatMap]
    refine ⟨s, List.mem_map.mpr ⟨s, hs, slashed_of_not_mem hback⟩, ?_⟩
    rw [pieces_of_not_mem (hslash s hs)]
    exact List.mem_singleton_self s
  refine ⟨?_, ?_, hslash s hs⟩
  · rw [Bool.eq_false_iff]
    intro htriv
    have hcases : s = "" ∨ s = "." := by simpa [isTrivial] using htriv
    have hname : IsName s := hplain (by rcases hcases with rfl | rfl <;> decide)
    rw [hname.solid] at htriv
    cases htriv
  · rintro rfl
    exact (hplain (by decide)).notUp rfl

/-! ### Names from the root -/

theorem pieces_ofNames {names : List String} (hne : names ≠ []) (h : ∀ s ∈ names, IsName s) :
    pieces (ofNames names) = "" :: names := by
  have hparts := pieces_ofParts hne fun s hs => (h s hs).noSlash
  have hslash := pieces_slash "" (ofParts names)
  rwa [pieces_empty, hparts, String.empty_append] at hslash

theorem segments_ofNames {names : List String} (h : ∀ s ∈ names, IsName s) :
    segments (ofNames names) = .root :: names.map .name := by
  by_cases hne : names = []
  · subst hne
    decide
  · rw [segments, pieces_ofNames hne h, ofPieces, if_pos (by simpa using hne), filterMap_names h]

theorem ofNames_ne_empty {names : List String} (h : ∀ s ∈ names, IsName s) : ofNames names ≠ "" := by
  intro he
  have hseg := segments_ofNames h
  rw [he, show segments "" = [] by decide] at hseg
  cases hseg

theorem isAbsolute_ofNames {names : List String} (h : ∀ s ∈ names, IsName s) :
    isAbsolute (ofNames names) = true := by
  rw [isAbsolute_iff_head, segments_ofNames h]
  rfl

/-- Whatever is joined to names from the root is cut into the names and its own pieces. -/
theorem pieces_join_ofNames {names : List String} (h : ∀ s ∈ names, IsName s) {path : String}
    (hp : isAbsolute path = false) :
    pieces (join (ofNames names) path) = "" :: (names ++ pieces path) := by
  by_cases hne : names = []
  · subst hne
    have hjoin : join (ofNames []) path = "" ++ "/" ++ path := by
      rw [show ofNames [] = "" ++ "/" by decide, join, hp]
      rfl
    rw [hjoin, pieces_slash, pieces_empty]
    rfl
  · obtain ⟨lead, _, hlead, hj⟩ := exists_pieces_join (ofNames_ne_empty h) hp
    rw [pieces_ofNames hne h] at hlead
    rcases hlead with hlead | hlead
    · rw [hj, ← hlead, List.cons_append]
    · -- the last piece is a name, so none is left out
      have hlast : names.getLast? = some "" := by
        have := congrArg List.getLast? hlead
        rwa [List.getLast?_concat, List.getLast?_cons_of_ne_nil hne] at this
      exact absurd rfl (h "" (List.mem_of_getLast? hlast)).ne_empty

theorem isName_of_mem_segments {path s : String} (h : Segment.name s ∈ segments path) : IsName s := by
  rw [segments_eq] at h
  rcases List.mem_append.mp h with hlead | hrest
  · cases hp : pieces path with
    | nil =>
      rw [hp] at hlead
      cases hlead
    | cons first rest =>
      rw [hp, leadOf] at hlead
      split at hlead
      · simp at hlead
      · split at hlead <;> simp at hlead
  · obtain ⟨piece, hmem, hseg⟩ := List.mem_filterMap.mp hrest
    rw [segment?] at hseg
    split at hseg
    · cases hseg
    · rename_i htriv
      split at hseg
      · cases hseg
      · rename_i hup
        cases hseg
        exact ⟨by simpa using htriv, by simpa using hup, not_mem_of_mem_pieces hmem⟩

/-- Taking a segment onto names leaves names. -/
theorem isName_of_push? {names out : List String} {seg : Segment} (h : push? names seg = some out)
    (hnames : ∀ s ∈ names, IsName s) (hseg : ∀ s, seg = .name s → IsName s) : ∀ s ∈ out, IsName s := by
  cases seg with
  | root =>
    cases h
    exact hnames
  | here =>
    cases h
    exact hnames
  | up =>
    cases names with
    | nil => cases h
    | cons name names =>
      cases h
      exact fun s hs => hnames s (List.mem_cons_of_mem _ hs)
  | name text =>
    cases h
    intro s hs
    rcases List.mem_cons.mp hs with rfl | hs
    · exact hseg s rfl
    · exact hnames s hs

theorem isName_of_pushAll? : ∀ {segs : List Segment} {names out : List String},
    pushAll? names segs = some out → (∀ s ∈ names, IsName s) →
    (∀ s, Segment.name s ∈ segs → IsName s) → ∀ s ∈ out, IsName s
  | [], names, out, h, hnames, _ => by
    cases h
    exact hnames
  | seg :: segs, names, out, h, hnames, hsegs => by
    rw [pushAll?] at h
    obtain ⟨next, hnext, hrest⟩ := Option.bind_eq_some_iff.mp h
    have hseg : ∀ s, seg = .name s → IsName s := fun s hs => hsegs s (hs ▸ List.mem_cons_self)
    exact isName_of_pushAll? hrest (isName_of_push? hnext hnames hseg) fun s hs =>
      hsegs s (List.mem_cons_of_mem _ hs)

theorem isName_of_normalize? {segs : List Segment} {names : List String}
    (h : normalize? segs = some names) (hsegs : ∀ s, Segment.name s ∈ segs → IsName s) :
    ∀ s ∈ names, IsName s := by
  obtain ⟨out, hout, rfl⟩ := Option.map_eq_some_iff.mp h
  intro s hs
  exact isName_of_pushAll? hout (by simp) hsegs s (List.mem_reverse.mp hs)

theorem isName_of_absolute? {cwd names : List String} {path : String} (hcwd : ∀ s ∈ cwd, IsName s)
    (h : absolute? cwd path = some names) : ∀ s ∈ names, IsName s := by
  have hpath : ∀ s, Segment.name s ∈ segments path → IsName s := fun _ => isName_of_mem_segments
  rw [absolute?] at h
  split at h
  · cases h
  · split at h
    · exact isName_of_normalize? h hpath
    · refine isName_of_normalize? h fun s hs => ?_
      rcases List.mem_append.mp hs with hs | hs
      · obtain ⟨t, ht, he⟩ := List.mem_map.mp hs
        cases he
        exact hcwd s ht
      · exact hpath s hs

theorem exists_pushAll? : ∀ (segs : List Segment) (names : List String), Segment.up ∉ segs →
    ∃ out, pushAll? names segs = some out
  | [], names, _ => ⟨names, rfl⟩
  | seg :: segs, names, h => by
    rw [List.mem_cons, not_or] at h
    rw [pushAll?]
    cases seg with
    | root => exact exists_pushAll? segs _ h.2
    | here => exact exists_pushAll? segs _ h.2
    | up => exact absurd rfl h.1
    | name text => exact exists_pushAll? segs _ h.2

/-- A path that has no place from the root does not hold any that has. -/
theorem not_isWithin_of_absolute?_eq_none {cwd names : List String} {path : String} (hne : path ≠ "")
    (h : absolute? cwd path = none) (hn : ∀ s ∈ names, IsName s) :
    isWithin path (ofNames names) = false := by
  have hpath : (path == "") = false := by simpa using hne
  rw [Bool.eq_false_iff, Ne, isWithin_iff, segments_ofNames hn]
  rintro ⟨rest, hrest⟩
  have hhead : (segments path).head? = some .root := by
    cases hs : segments path with
    | nil => exact absurd hs (segments_ne_nil hne)
    | cons first more =>
      rw [hs, List.cons_append, List.cons.injEq] at hrest
      rw [hrest.1]
      rfl
  have hup : Segment.up ∉ segments path := by
    intro hmem
    have : Segment.up ∈ Segment.root :: names.map Segment.name := hrest ▸ List.mem_append_left _ hmem
    simp at this
  obtain ⟨out, hout⟩ := exists_pushAll? (segments path) [] hup
  rw [absolute?, hpath, if_neg Bool.false_ne_true, if_pos (isAbsolute_iff_head.mpr hhead), normalize?,
    hout] at h
  cases h

theorem isWithin_ofNames {a b : List String} (ha : ∀ s ∈ a, IsName s) (hb : ∀ s ∈ b, IsName s) :
    isWithin (ofNames a) (ofNames b) = true ↔ a <+: b := by
  rw [isWithin_iff, segments_ofNames ha, segments_ofNames hb, List.cons_prefix_cons]
  constructor
  · rintro ⟨-, h⟩
    exact (List.prefix_map_iff_of_injective fun s t e => by cases e; rfl).mp h
  · exact fun h => ⟨rfl, h.map _⟩

/-! ### What is left below names from the root -/

/-- The pieces without those at either end that mean nothing. -/
def core (parts : List String) : List String := dropEnd (parts.dropWhile isTrivial)

theorem core_names {names : List String} (h : ∀ s ∈ names, IsName s) : core names = names := by
  have hdrop : ([] ++ names).dropWhile isTrivial = names := dropWhile_trivial (by simp) h
  rw [List.nil_append] at hdrop
  rw [core, hdrop, dropEnd_names h]

theorem exists_core (parts : List String) : ∃ before after, (∀ s ∈ before, isTrivial s = true) ∧
    (∀ s ∈ after, isTrivial s = true) ∧ parts = before ++ (core parts ++ after) := by
  obtain ⟨after, hafter, hparts⟩ := exists_dropEnd (parts.dropWhile isTrivial)
  refine ⟨parts.takeWhile isTrivial, after, ?_, hafter, ?_⟩
  · intro s hs
    exact List.all_eq_true.mp List.all_takeWhile s hs
  · rw [core, ← hparts, List.takeWhile_append_dropWhile]

theorem mem_of_mem_core {parts : List String} {s : String} (h : s ∈ core parts) : s ∈ parts := by
  obtain ⟨before, after, _, _, hparts⟩ := exists_core parts
  rw [hparts]
  exact List.mem_append_right _ (List.mem_append_left _ h)

theorem filterMap_core (parts : List String) :
    (core parts).filterMap segment? = parts.filterMap segment? := by
  obtain ⟨before, after, hbefore, hafter, hparts⟩ := exists_core parts
  conv => rhs; rw [hparts]
  rw [List.filterMap_append, List.filterMap_append, filterMap_trivial hbefore,
    filterMap_trivial hafter, List.append_nil, List.nil_append]

theorem dropSegments_names (rest : List String) : ∀ {names : List String}, (∀ s ∈ names, IsName s) →
    dropSegments names.length (names ++ rest) = rest
  | [], _ => by simp [dropSegments]
  | s :: names, h => by
    have hs := (h s List.mem_cons_self).solid
    rw [List.length_cons, List.cons_append, dropSegments, hs, if_neg Bool.false_ne_true]
    exact dropSegments_names rest fun t ht => h t (List.mem_cons_of_mem _ ht)

section Below

variable {names rest : List String} {path : String}

theorem segments_below (hn : ∀ s ∈ names, IsName s) (hne : names ++ rest ≠ [])
    (hp : pieces path = "" :: (names ++ rest)) :
    segments path = .root :: (names.map .name ++ rest.filterMap segment?) := by
  rw [segments, hp, ofPieces, if_pos (by simpa using hne), List.filterMap_append, filterMap_names hn]

/-- Below names, what is left of a path is its further pieces. -/
theorem strip?_below (hn : ∀ s ∈ names, IsName s) (hne : rest ≠ [])
    (hp : pieces path = "" :: (names ++ rest)) :
    strip? (ofNames names) path = some (ofParts (core rest)) := by
  have hne' : names ++ rest ≠ [] := fun e => hne (List.append_eq_nil_iff.mp e).2
  have hwithin : isWithin (ofNames names) path = true := by
    rw [isWithin_iff, segments_ofNames hn, segments_below hn hne' hp]
    exact ⟨rest.filterMap segment?, rfl⟩
  have hleads : leads ("" :: (names ++ rest)) = true := by
    rw [leads]
    simpa using fun _ => hne
  rw [strip?, hwithin, segments_ofNames hn, hp]
  simp only [hleads, Bool.not_true, Bool.false_eq_true, if_false, List.length_cons, List.length_map,
    Nat.add_one_ne_zero, if_true, Nat.add_one_sub_one, List.tail_cons]
  rw [dropSegments_names rest hn, core]

/-- A path that has another piece in the place of the last name is not below the names. -/
theorem strip?_beside {last piece : String} (hn : ∀ s ∈ names ++ [last], IsName s)
    (hp : pieces path = "" :: (names ++ piece :: rest)) (hpiece : piece ≠ last)
    (htriv : isTrivial piece = false) : strip? (ofNames (names ++ [last])) path = none := by
  have hnames : ∀ s ∈ names, IsName s := fun s hs => hn s (List.mem_append_left _ hs)
  have hwithin : isWithin (ofNames (names ++ [last])) path = false := by
    rw [Bool.eq_false_iff, Ne, isWithin_iff, segments_ofNames hn,
      segments_below hnames (by simp) hp, List.cons_prefix_cons, List.map_append,
      List.prefix_append_right_inj]
    rintro ⟨-, h⟩
    have hseg : segment? piece = some .up ∨ segment? piece = some (.name piece) := by
      rw [segment?, htriv]
      by_cases hup : (piece == "..") = true
      · exact .inl (by simp [hup])
      · exact .inr (by simp [hup])
    rcases hseg with hseg | hseg
    · rw [List.filterMap_cons, hseg] at h
      simp at h
    · rw [List.filterMap_cons, hseg] at h
      simp [Ne.symm hpiece] at h
  rw [strip?, hwithin]
  rfl

end Below

theorem isAbsolute_slashed {path : String} (h : isAbsolute path = true) :
    isAbsolute (slashed path) = true := by
  rw [isAbsolute, Text.beginsWith, List.isPrefixOf_iff_prefix] at h ⊢
  obtain ⟨cs, hcs⟩ := h
  rw [slashed, Text.replaceChar, String.toList_map, ← hcs]
  exact ⟨cs.map fun c => if c == '\\' then '/' else c, rfl⟩

end Path

end CodeAtlas
