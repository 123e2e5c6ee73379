/-
# Normal forms of paths

Taking segments onto names fails just if some first segments have more steps up than there are names
to take back (`Path.pushAll?_eq_none_iff`). Whatever follows segments is taken onto the names that they
lead to (`Path.normalize?_append`), so a normal form stands for its path wherever the path goes on
(`Path.normal?_join`).

On the texts themselves, a name is joined to a path and a step up goes to its parent. From the root
this leads to the path of the names (`Path.foldlM_segments`).

Key definitions: `Path.Escapes`, `Path.follow?`, `Path.normal?`.
Key theorems: `Path.pushAll?_eq_none_iff`, `Path.normalize?_append`, `Path.foldlM_segments`,
`Path.normal?_join`, `Path.normal_exact`.
-/
import CodeAtlas.Proofs.Anchored

namespace CodeAtlas

/-- Whether a segment is a name. -/
def Segment.isNamed : Segment → Bool
  | .name _ => true
  | .root | .here | .up => false

namespace Path

/-! ### Steps up from too few names -/

/-- Some first segments have more steps up than names, even with `depth` names before them. -/
def Escapes (depth : Nat) (segs : List Segment) : Prop :=
  ∃ before, before <+: segs ∧ depth + before.countP Segment.isNamed < before.count .up

section Escapes

variable {depth : Nat} {names : List String} {seg : Segment} {segs : List Segment}

theorem not_escapes_nil : ¬ Escapes depth [] := by
  rintro ⟨before, hbefore, hlt⟩
  rw [List.prefix_nil.mp hbefore] at hlt
  exact Nat.not_lt_zero _ hlt

theorem escapes_cons : Escapes depth (seg :: segs) ↔ ∃ before, before <+: segs ∧
    depth + (seg :: before).countP Segment.isNamed < (seg :: before).count .up := by
  constructor
  · rintro ⟨before, hbefore, hlt⟩
    rcases List.prefix_cons_iff.mp hbefore with rfl | ⟨rest, rfl, hrest⟩
    · exact absurd hlt (Nat.not_lt_zero _)
    · exact ⟨rest, hrest, hlt⟩
  · rintro ⟨before, hbefore, hlt⟩
    exact ⟨seg :: before, List.cons_prefix_cons.mpr ⟨rfl, hbefore⟩, hlt⟩

/-- Segments escape from names if the first cannot be taken onto them, and otherwise if the rest escape
from the names that it leaves. -/
theorem escapes_cons_iff_push? : Escapes names.length (seg :: segs) ↔
    ∀ next, push? names seg = some next → Escapes next.length segs := by
  rw [escapes_cons]
  cases seg with
  | root => simp [push?, Escapes, Segment.isNamed]
  | here => simp [push?, Escapes, Segment.isNamed]
  | up =>
    cases names with
    | nil =>
      -- nothing can be taken back, and this step alone is one too many
      constructor
      · intro _ next hnext
        cases hnext
      · intro _
        exact ⟨[], List.nil_prefix, by decide⟩
    | cons s names =>
      simp only [push?, Option.some.injEq, forall_eq', Escapes, List.length_cons]
      refine exists_congr fun before => and_congr_right fun _ => ?_
      rw [List.countP_cons_of_neg (by simp [Segment.isNamed]), List.count_cons_self]
      omega
  | name s =>
    simp only [push?, Option.some.injEq, forall_eq', Escapes, List.length_cons]
    refine exists_congr fun before => and_congr_right fun _ => ?_
    rw [List.countP_cons_of_pos rfl, List.count_cons_of_ne (by simp)]
    omega

theorem pushAll?_eq_none_iff : pushAll? names segs = none ↔ Escapes names.length segs := by
  induction segs generalizing names with
  | nil => simp [pushAll?, not_escapes_nil]
  | cons seg segs ih =>
    rw [pushAll?, Option.bind_eq_none_iff, escapes_cons_iff_push?]
    exact forall_congr' fun next => imp_congr_right fun _ => ih

end Escapes

/-! ### Segments after segments -/

theorem pushAll?_append (b : List Segment) : ∀ (a : List Segment) (names : List String),
    pushAll? names (a ++ b) = (pushAll? names a).bind (pushAll? · b)
  | [], _ => rfl
  | seg :: a, names => by
    rw [List.cons_append, pushAll?, pushAll?]
    cases push? names seg with
    | none => rfl
    | some next => exact pushAll?_append b a next

theorem pushAll?_names : ∀ names stack : List String,
    pushAll? stack (names.map .name) = some (names.reverse ++ stack)
  | [], _ => rfl
  | s :: names, stack => by
    rw [List.map_cons, pushAll?, push?, Option.bind_some, pushAll?_names names, List.reverse_cons,
      List.append_assoc, List.singleton_append]

theorem normalize?_names (names : List String) : normalize? (names.map .name) = some names := by
  rw [normalize?, pushAll?_names, List.append_nil, Option.map_some, List.reverse_reverse]

/-- What comes after segments is taken onto the names that they lead to. -/
theorem normalize?_append (a b : List Segment) :
    normalize? (a ++ b) = (normalize? a).bind fun names => normalize? (names.map .name ++ b) := by
  rw [normalize?, pushAll?_append, normalize?]
  cases pushAll? [] a with
  | none => rfl
  | some stack => simp [normalize?, pushAll?_append, pushAll?_names]

/-! ### Following segments on texts -/

section OfNames

variable {names : List String} {s : String}

theorem withLead_names (h : ∀ t ∈ names, IsName t) : withLead "" names = ofNames names := by
  rw [withLead, dropEnd_names h]
  cases names with
  | nil => decide
  | cons t rest =>
    have hparts := ofParts_pieces (ofNames (t :: rest))
    rwa [pieces_ofNames (List.cons_ne_nil t rest) h] at hparts

theorem join_ofNames (h : ∀ t ∈ names, IsName t) (hs : IsName s) :
    join (ofNames names) s = ofNames (names ++ [s]) := by
  have hall : ∀ t ∈ names ++ [s], IsName t := by simpa [or_imp, forall_and, hs] using h
  apply eq_of_pieces_eq
  rw [pieces_join_ofNames h (isAbsolute_name hs), pieces_of_not_mem hs.noSlash,
    pieces_ofNames (by simp) hall]

theorem parent?_ofNames (h : ∀ t ∈ names ++ [s], IsName t) :
    parent? (ofNames (names ++ [s])) = some (ofNames names) := by
  have hne : names ++ [s] ≠ [] := by simp
  have hleads : leads ("" :: (names ++ [s])) = true := by simp [leads]
  have hlead : withLead "" (names ++ [s]).dropLast = ofNames names := by
    rw [List.dropLast_concat, withLead_names fun t ht => h t (List.mem_append_left _ ht)]
  rw [parent?, pieces_ofNames hne h, parentOf, if_pos hleads, dropEnd_names h, ← hlead]
  cases hd : names ++ [s] with
  | nil => exact absurd hd hne
  | cons t rest => rfl

end OfNames

/-- The path that a segment leads to from `path`. -/
def follow? (path : String) : Segment → Option String
  | .root => some (join path "/")
  | .here => some path
  | .up => parent? path
  | .name s => some (join path s)

/-- Below the root, a segment leads from path to path as it leads from names to names. -/
theorem follow?_ofNames {stack : List String} {seg : Segment} (h : ∀ s ∈ stack, IsName s)
    (hseg : ∀ s, seg = .name s → IsName s) (hroot : seg ≠ .root) :
    follow? (ofNames stack.reverse) seg =
      (push? stack seg).map fun names => ofNames names.reverse := by
  have hrev : ∀ s ∈ stack.reverse, IsName s := fun s hs => h s (List.mem_reverse.mp hs)
  cases seg with
  | root => exact absurd rfl hroot
  | here => rfl
  | up =>
    cases stack with
    | nil => decide
    | cons s stack =>
      rw [List.reverse_cons] at hrev ⊢
      exact parent?_ofNames hrev
  | name s =>
    rw [follow?, push?, Option.map_some, List.reverse_cons, join_ofNames hrev (hseg s rfl)]

/-- Along segments below the root, the path reached is that of the names so far. -/
theorem foldlM_follow? : ∀ {segs : List Segment} {stack : List String}, (∀ s ∈ stack, IsName s) →
    (∀ s, Segment.name s ∈ segs → IsName s) → Segment.root ∉ segs →
    segs.foldlM follow? (ofNames stack.reverse) =
      (pushAll? stack segs).map fun names => ofNames names.reverse
  | [], _, _, _, _ => rfl
  | seg :: segs, stack, hstack, hsegs, hroot => by
    rw [List.mem_cons, not_or] at hroot
    have hseg : ∀ s, seg = .name s → IsName s := fun s hs => hsegs s (hs ▸ List.mem_cons_self)
    rw [List.foldlM_cons, follow?_ofNames hstack hseg (Ne.symm hroot.1), pushAll?]
    cases hnext : push? stack seg with
    | none => rfl
    | some next =>
      exact foldlM_follow? (isName_of_push? hnext hstack hseg)
        (fun s hs => hsegs s (List.mem_cons_of_mem _ hs)) hroot.2

/-! ### Normal forms -/

/-- The path without dots that a path from the root leads to. -/
def normal? (path : String) : Option String := (normalize? (segments path)).map ofNames

section Normal

variable {path : String} {names : List String}

theorem segments_of_isAbsolute (h : isAbsolute path = true) :
    segments path = .root :: (pieces path).filterMap segment? := by
  rw [segments_eq, (isAbsolute_eq path).mp h, List.singleton_append]

/-- From the root, the segments of a path lead to its normal form. -/
theorem foldlM_segments (h : isAbsolute path = true) :
    (segments path).foldlM follow? "" = normal? path := by
  have hnames : ∀ s, Segment.name s ∈ (pieces path).filterMap segment? → IsName s := fun s hs =>
    isName_of_mem_segments (segments_of_isAbsolute h ▸ List.mem_cons_of_mem _ hs)
  have hfirst : follow? "" .root = some (ofNames [].reverse) := by decide
  have hrest := @foldlM_follow? _ [] (by simp) hnames (root_not_mem_filterMap (pieces path))
  rw [normal?, segments_of_isAbsolute h, List.foldlM_cons, hfirst, normalize?, Option.map_map]
  exact hrest

theorem normal?_eq_none_iff : normal? path = none ↔ ∃ before, before <+: segments path ∧
    before.countP Segment.isNamed < before.count .up := by
  rw [normal?, normalize?, Option.map_eq_none_iff, Option.map_eq_none_iff, pushAll?_eq_none_iff]
  simp only [Escapes, List.length_nil, Nat.zero_add]

theorem normal?_ofNames (h : ∀ s ∈ names, IsName s) :
    normal? (ofNames names) = some (ofNames names) := by
  have hroot : normalize? (.root :: names.map .name) = normalize? (names.map .name) := rfl
  rw [normal?, segments_ofNames h, hroot, normalize?_names, Option.map_some]

theorem isName_of_mem_pieces (h : ∀ t ∈ names, IsName t) {s : String}
    (hs : s ∈ pieces (ofNames names)) : s = "" ∨ IsName s := by
  by_cases hne : names = []
  · subst hne
    have hpieces : pieces (ofNames []) = ["", ""] := by decide
    exact .inl (by simpa [hpieces] using hs)
  · rw [pieces_ofNames hne h] at hs
    exact (List.mem_cons.mp hs).imp_right (h s)

/-- A path goes on as its normal form does. -/
theorem normal?_join (hpath : path ≠ "") {rel : String} (hrel : isAbsolute rel = false) :
    normal? (join path rel) = (normal? path).bind fun out => normal? (join out rel) := by
  rw [normal?, segments_join hpath hrel, normalize?_append, normal?]
  cases hn : normalize? (segments path) with
  | none => rfl
  | some names =>
    have hnames := isName_of_normalize? hn fun _ => isName_of_mem_segments
    rw [Option.bind_some, Option.map_some, Option.bind_some, normal?,
      segments_join (ofNames_ne_empty hnames) hrel, segments_ofNames hnames]
    rfl

/-- A path from the root leads to its normal form, one segment after the other, unless some first
segments have more steps up than names. A normal form begins at the root, has no dots and is its own
normal form, and the path goes on as its normal form does. -/
theorem normal_exact (h : isAbsolute path = true) :
    (segments path).foldlM follow? "" = normal? path ∧
      (normal? path = none ↔ ∃ before, before <+: segments path ∧
        before.countP Segment.isNamed < before.count .up) ∧
      (∀ out, normal? path = some out →
        isAbsolute out = true ∧ "." ∉ pieces out ∧ ".." ∉ pieces out ∧ normal? out = some out) ∧
      ∀ rel, isAbsolute rel = false →
        normal? (join path rel) = (normal? path).bind fun out => normal? (join out rel) := by
  have hne : path ≠ "" := by
    rintro rfl
    exact absurd h (by decide)
  refine ⟨foldlM_segments h, normal?_eq_none_iff, fun out hout => ?_, fun rel hrel =>
    normal?_join hne hrel⟩
  obtain ⟨names, hn, rfl⟩ := Option.map_eq_some_iff.mp hout
  have hnames := isName_of_normalize? hn fun _ => isName_of_mem_segments
  refine ⟨isAbsolute_ofNames hnames, fun hdot => ?_, fun hup => ?_, normal?_ofNames hnames⟩
  · exact absurd (isName_of_mem_pieces hnames hdot) (by decide)
  · exact absurd (isName_of_mem_pieces hnames hup) (by decide)

theorem normal_of_dotted :
    isAbsolute "/srv//app/./src/../lib/" = true ∧ isAbsolute "./../../etc" = false ∧
      normal? "/srv//app/./src/../lib/" = some "/srv/app/lib" ∧
      normal? "/srv/app/lib" = some "/srv/app/lib" ∧
      normal? (join "/srv//app/./src/../lib/" "./../../etc") =
        normal? (join "/srv/app/lib" "./../../etc") ∧
      normal? (join "/srv/app/lib" "./../../etc") = some "/srv/etc" ∧
      isAbsolute "/srv/../../etc" = true ∧ normal? "/srv/../../etc" = none := by
  have habs : isAbsolute "/srv//app/./src/../lib/" = true := by decide
  have hrel : isAbsolute "./../../etc" = false := by decide
  have hout : normal? "/srv//app/./src/../lib/" = some "/srv/app/lib" := by decide +kernel
  have hlost : isAbsolute "/srv/../../etc" = true := by decide
  obtain ⟨-, -, hfixed, hjoin⟩ := normal_exact habs
  obtain ⟨-, -, -, hsame⟩ := hfixed _ hout
  obtain ⟨-, hnone, -⟩ := normal_exact hlost
  refine ⟨habs, hrel, hout, hsame, ?_, by decide +kernel, hlost, hnone.mpr ?_⟩
  · rw [hjoin _ hrel, hout, Option.bind_some]
  · exact ⟨[.root, .name "srv", .up, .up], by decide +kernel, by decide⟩

end Normal

end Path

end CodeAtlas
