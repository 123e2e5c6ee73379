/-
# The order of the files of an index

Which file stands for an export that several files declare, and which entry of a method is the last, depend
on the order in which the files were indexed. The answers do not. Among the declarations of one kind and
name, the ids tell apart no more than how near a candidate is, its package, and the file it is kept to
(`Candidate.view`), and a lookup answers with the least of these, whichever candidates came first
(`SymbolIndex.find?_nearest`). The entries of a method are of one class, and so have one id
(`FileFacts.methodId_of_classId`).

Key definitions: `Candidate.view`, `Candidate.Alike`, `Candidate.Nearest`.
Key theorems: `Candidate.Nearest.id_eq`, `SymbolIndex.find?_nearest`, `SymbolIndex.find?_of_perm`,
`SymbolIndex.method?_of_perm`, `SymbolIndex.lookups_of_perm`.
-/
import CodeAtlas.Proofs.Lookup

namespace CodeAtlas

/-- What is found in a list depends on its members only, where all that could be found comes to the
same. -/
theorem map_find?_congr {α β : Type} {l l' : List α} {p : α → Bool} {g : α → β}
    (hmem : ∀ a, a ∈ l' ↔ a ∈ l) (hg : ∀ a ∈ l, ∀ b ∈ l, p a = true → p b = true → g a = g b) :
    (l'.find? p).map g = (l.find? p).map g := by
  cases h' : l'.find? p with
  | none =>
    have hnone : l.find? p = none :=
      List.find?_eq_none.mpr fun a ha => List.find?_eq_none.mp h' a ((hmem a).mpr ha)
    rw [hnone]
  | some a =>
    have ha := (hmem a).mp (List.mem_of_find?_eq_some h')
    cases h : l.find? p with
    | none => exact absurd (List.find?_some h') (List.find?_eq_none.mp h a ha)
    | some b =>
      exact congrArg some (hg a ha b (List.mem_of_find?_eq_some h) (List.find?_some h') (List.find?_some h))

/-! ### The nearest candidate -/

namespace Candidate

variable {l : List Candidate} {c d o : Candidate} {package path : String}

/-- How near a candidate is, its package, and the file that it is kept to. -/
def view (package path : String) (c : Candidate) : ℕ ×ₗ String ×ₗ String :=
  toLex (c.rank package path, toLex (c.package, if c.exported then "" else c.path))

/-- The candidates that a lookup is over: they are coherent, of one kind and name, and those in the file
are of its package. -/
structure Alike (l : List Candidate) (package path : String) : Prop where
  coherent : Coherent l
  kind_eq : ∀ c ∈ l, ∀ d ∈ l, c.kind = d.kind
  name_eq : ∀ c ∈ l, ∀ d ∈ l, c.name = d.name
  package_eq : ∀ c ∈ l, c.path = path → c.package = package

/-- The candidate counts, and its view is the least. -/
structure Nearest (l : List Candidate) (package path : String) (c : Candidate) : Prop where
  mem : c ∈ l
  rank_lt : c.rank package path < 4
  least : ∀ d ∈ l, c.view package path ≤ d.view package path

/-- Candidates outside the file that are equally near are both exported, or both not. -/
theorem exported_of_rank (hc : c.path ≠ path) (hd : d.path ≠ path)
    (hrank : c.rank package path = d.rank package path) : c.exported = d.exported := by
  grind [rank]

/-- Outside the file, a candidate that precedes another has no greater view. -/
theorem Precedes.view_le (h : Precedes package path c d) (hc : c.path ≠ path) (hd : d.path ≠ path) :
    c.view package path ≤ d.view package path := by
  rw [view, view, Prod.Lex.toLex_le_toLex, Prod.Lex.toLex_le_toLex]
  rcases h with hlt | ⟨hrank, hplace⟩
  · exact .inl hlt
  · have hexported := exported_of_rank hc hd hrank
    refine .inr ⟨hrank, ?_⟩
    rcases Prod.Lex.toLex_le_toLex.mp hplace with hlt | ⟨hpackage, _⟩
    · exact .inl hlt
    · refine .inr ⟨hpackage, ?_⟩
      have hpath : c.path ≤ d.path := by
        rcases path_le_of_place hpackage hexported hplace with hlt | ⟨heq, _⟩
        · exact hlt.le
        · exact heq.le
      rw [hexported]
      split
      · exact le_rfl
      · exact hpath

namespace Alike

/-- A file has one declaration of the kind and the name. -/
theorem id_of_path (h : Alike l package path) (hc : c ∈ l) (hd : d ∈ l) (hpath : c.path = d.path) :
    c.id = d.id := by
  obtain ⟨hpackage, hexported⟩ := h.coherent.of_path c hc d hd hpath
  refine h.coherent.id_of_key hc hd ?_
  rw [key, key, h.kind_eq c hc d hd, h.name_eq c hc d hd, hpackage, hexported (h.name_eq c hc d hd), hpath]

/-- A package exports one declaration of the kind and the name. -/
theorem id_of_package (h : Alike l package path) (hc : c ∈ l) (hd : d ∈ l)
    (hpackage : c.package = d.package) (hce : c.exported = true) (hde : d.exported = true) : c.id = d.id :=
  h.coherent.id_eq_of_exported hc hd (h.kind_eq c hc d hd) (h.name_eq c hc d hd) hpackage hce hde

/-- The view tells the id. -/
theorem id_of_view (h : Alike l package path) (hc : c ∈ l) (hd : d ∈ l)
    (hview : c.view package path = d.view package path) : c.id = d.id := by
  obtain ⟨hrank, hrest⟩ := Prod.mk.inj (toLex_inj.mp hview)
  obtain ⟨hpackage, hkept⟩ := Prod.mk.inj (toLex_inj.mp hrest)
  by_cases hpath : c.path = path
  · have hdpath : d.path = path := by grind [rank]
    exact h.id_of_path hc hd (hpath.trans hdpath.symm)
  · have hdpath : d.path ≠ path := by grind [rank]
    have hexported := exported_of_rank hpath hdpath hrank
    cases hce : c.exported with
    | true => exact h.id_of_package hc hd hpackage hce (hexported ▸ hce)
    | false =>
      rw [hce] at hexported
      rw [hce, ← hexported] at hkept
      exact h.id_of_path hc hd hkept

/-- Where none is in the file, the id tells the view. -/
theorem view_of_id (h : Alike l package path) (hown : ∀ e ∈ l, e.path ≠ path) (hc : c ∈ l) (hd : d ∈ l)
    (hid : c.id = d.id) : c.view package path = d.view package path := by
  obtain ⟨_, hpackage, _, hexported, hpath⟩ := h.coherent.of_id hc hd hid
  rw [view, view, h.coherent.rank_eq hown hc hd hid, hpackage, ← hexported]
  cases hce : c.exported with
  | true => rfl
  | false => rw [hpath hce]

/-- A declaration in the file is nearest. -/
theorem nearest_of_path (h : Alike l package path) (ho : o ∈ l) (hpath : o.path = path) :
    Nearest l package path o := by
  have hzero : o.rank package path = 0 := rank_eq_zero_iff.mpr hpath
  refine ⟨ho, by omega, fun d hd => ?_⟩
  by_cases hdpath : d.path = path
  · obtain ⟨hpackage, hexported⟩ := h.coherent.of_path o ho d hd (hpath.trans hdpath.symm)
    have hdzero : d.rank package path = 0 := rank_eq_zero_iff.mpr hdpath
    rw [view, view, hzero, hdzero, hpackage, hexported (h.name_eq o ho d hd), hpath, hdpath]
  · have hpos : d.rank package path ≠ 0 := fun hdzero => hdpath (rank_eq_zero_iff.mp hdzero)
    exact Prod.Lex.toLex_le_toLex.mpr (.inl (by dsimp only; omega))

end Alike

/-- Two nearest candidates have one id. -/
theorem Nearest.id_eq (h : Alike l package path) (hc : Nearest l package path c)
    (hd : Nearest l package path d) : c.id = d.id :=
  h.id_of_view hc.mem hd.mem (le_antisymm (hc.least d hd.mem) (hd.least c hc.mem))

end Candidate

/-! ### Lookups -/

namespace SymbolIndex

open Candidate

variable {ix ix' : SymbolIndex} {kinds : List NodeKind} {name package path : String}

/-- A lookup from a file that declares the name answers with the declaration of the file. -/
theorem find?_of_path (h : Alike (ix.matching kinds name) package path) {o : Candidate}
    (ho : o ∈ ix.matching kinds name) (hpath : o.path = path) :
    ix.find? kinds name package path = some o.id := by
  obtain ⟨e, he, hid⟩ := exists_first ho
  obtain ⟨_, hpackage, _, hexported, hkept⟩ := h.coherent.of_id he.mem ho hid
  have hopackage := h.package_eq o ho hpath
  -- what came first in its place is in the file, or an export of the package
  have hrank : e.rank package path = 0 ∨ e.rank package path = 1 ∧ o.exported = true := by grind [rank]
  rcases ix.find?_cases kinds name package path with ⟨c, hfind, hc, _, hall⟩ | ⟨_, hall⟩
  · rw [hfind]
    refine congrArg some ?_
    have hle := (hall e he).rank_le
    by_cases hcpath : c.path = path
    · exact h.id_of_path hc.mem ho (hcpath.trans hpath.symm)
    · have hone : c.exported = true ∧ c.package = package ∧ o.exported = true := by grind [rank]
      exact h.id_of_package hc.mem ho (hone.2.1.trans hopackage.symm) hone.1 hone.2.2
  · have := hall e he
    omega

/-- A lookup answers with a nearest candidate, or with nothing where no candidate counts. -/
theorem find?_nearest (h : Alike (ix.matching kinds name) package path) :
    (∃ c, Nearest (ix.matching kinds name) package path c ∧
      ix.find? kinds name package path = some c.id) ∨
    (ix.find? kinds name package path = none ∧
      ∀ d ∈ ix.matching kinds name, d.rank package path = 4) := by
  by_cases hown : ∃ o ∈ ix.matching kinds name, o.path = path
  · obtain ⟨o, ho, hpath⟩ := hown
    exact .inl ⟨o, h.nearest_of_path ho hpath, find?_of_path h ho hpath⟩
  · have hnone : ∀ o ∈ ix.matching kinds name, o.path ≠ path := fun o ho hpath => hown ⟨o, ho, hpath⟩
    rcases ix.find?_cases kinds name package path with ⟨c, hfind, hc, hrank, hall⟩ | ⟨hfind, hall⟩
    · refine .inl ⟨c, ⟨hc.mem, hrank, fun d hd => ?_⟩, hfind⟩
      obtain ⟨e, he, hid⟩ := exists_first hd
      rw [← h.view_of_id hnone he.mem hd hid]
      exact (hall e he).view_le (hnone c hc.mem) (hnone e he.mem)
    · refine .inr ⟨hfind, fun d hd => ?_⟩
      obtain ⟨e, he, hid⟩ := exists_first hd
      rw [← h.coherent.rank_eq hnone he.mem hd hid]
      exact hall e he

/-- The declarations of one kind and name are alike. -/
theorem alike_matching (h : Coherent ix.declared)
    (hpackage : ∀ c ∈ ix.declared, c.path = path → c.package = package) (kind : NodeKind) (name : String) :
    Alike (ix.matching [kind] name) package path where
  coherent := h.of_subset fun _ hc => (mem_matching.mp hc).1
  kind_eq c hc d hd := by
    have hck := (mem_matching.mp hc).2.1
    have hdk := (mem_matching.mp hd).2.1
    rw [List.mem_singleton] at hck hdk
    exact hck.trans hdk.symm
  name_eq _ hc _ hd := (mem_matching.mp hc).2.2.trans (mem_matching.mp hd).2.2.symm
  package_eq c hc := hpackage c (mem_matching.mp hc).1

/-- The answer among declarations of one kind depends on what is declared, and not on its order. -/
theorem find?_congr (hmem : ∀ c, c ∈ ix'.declared ↔ c ∈ ix.declared) (h : Coherent ix.declared)
    (hpackage : ∀ c ∈ ix.declared, c.path = path → c.package = package) (kind : NodeKind) (name : String) :
    ix'.find? [kind] name package path = ix.find? [kind] name package path := by
  have hmatching : ∀ c, c ∈ ix'.matching [kind] name ↔ c ∈ ix.matching [kind] name := fun c => by
    rw [mem_matching, mem_matching, hmem]
  have halike : Alike (ix.matching [kind] name) package path := alike_matching h hpackage kind name
  have halike' : Alike (ix'.matching [kind] name) package path :=
    alike_matching (h.of_subset fun c hc => (hmem c).mp hc) (fun c hc => hpackage c ((hmem c).mp hc))
      kind name
  rcases find?_nearest halike' with ⟨c, hc, hfind'⟩ | ⟨hfind', hnone'⟩
  · have hmatch := (hmatching c).mp hc.mem
    rcases find?_nearest halike with ⟨d, hd, hfind⟩ | ⟨_, hnone⟩
    · have hc' : Nearest (ix.matching [kind] name) package path c :=
        ⟨hmatch, hc.rank_lt, fun d hd => hc.least d ((hmatching d).mpr hd)⟩
      rw [hfind', hfind, Nearest.id_eq halike hc' hd]
    · exact absurd (hnone c hmatch) hc.rank_lt.ne
  · rcases find?_nearest halike with ⟨d, hd, _⟩ | ⟨hfind, _⟩
    · exact absurd (hnone' d ((hmatching d).mpr hd.mem)) hd.rank_lt.ne
    · rw [hfind', hfind]

/-! ### Files in another order -/

variable {files : List FileFacts} {entries : List (String × FileSymbols)}

/-- A method in the index of files is one of a class in one of them. -/
theorem of_mem_methods_ofFiles {e : MethodEntry} (he : e ∈ (ofFiles (files.map FileFacts.entry)).methods) :
    ∃ f ∈ files, ∃ c, (Scope.ofFacts f).key .classType none c ∈ f.ownerKeys ∧
      e.owner = (Scope.ofFacts f).classId c ∧ e.id = (Scope.ofFacts f).methodId c e.name := by
  obtain ⟨_, hentry, he⟩ := List.mem_flatMap.mp he
  obtain ⟨f, hf, rfl⟩ := List.mem_map.mp hentry
  obtain ⟨x, hx, he⟩ := List.mem_filterMap.mp he
  obtain ⟨owner, howner, rfl⟩ := Option.map_eq_some_iff.mp he
  exact ⟨f, hf, FileFacts.of_mem_owned hx howner⟩

/-- The answer to a method does not depend on the order of the files. -/
theorem method?_of_perm (howners : Key.Distinct (files.flatMap FileFacts.ownerKeys))
    (hperm : entries.Perm (files.map FileFacts.entry)) (owner name : String) :
    (ofFiles entries).method? owner name = (ofFiles (files.map FileFacts.entry)).method? owner name := by
  refine map_find?_congr (fun e => ?_) fun a ha b hb hpa hpb => ?_
  · rw [List.mem_reverse, List.mem_reverse]
    exact (hperm.flatMap_right _).mem_iff
  · simp only [Bool.and_eq_true, beq_iff_eq] at hpa hpb
    obtain ⟨f, hf, c, hc, hfowner, hfid⟩ := of_mem_methods_ofFiles (List.mem_reverse.mp ha)
    obtain ⟨g, hg, d, hd, hgowner, hgid⟩ := of_mem_methods_ofFiles (List.mem_reverse.mp hb)
    rw [hfid, hgid, hpa.2, hpb.2]
    refine FileFacts.methodId_of_classId howners hf hg hc hd ?_ name
    rw [← hfowner, ← hgowner, hpa.1, hpb.1]

/-- The answer among declarations of one kind does not depend on the order of the files. -/
theorem find?_of_perm (hpaths : ∀ f ∈ files, ∀ g ∈ files, f.path = g.path → f = g)
    (hids : Key.Distinct (files.flatMap FileFacts.keys)) (hperm : entries.Perm (files.map FileFacts.entry))
    (hpackage : ∀ f ∈ files, f.path = path → f.package = package) (kind : NodeKind) (name : String) :
    (ofFiles entries).find? [kind] name package path =
      (ofFiles (files.map FileFacts.entry)).find? [kind] name package path := by
  have hdeclared : ∀ c, c ∈ (ofFiles (files.map FileFacts.entry)).declared ↔
      c ∈ files.flatMap FileFacts.candidates := fun _ => mem_declared_ofFiles fun _ => Iff.rfl
  refine find?_congr (fun c => ?_) ?_ (fun c hc hpath => ?_) kind name
  · rw [hdeclared, mem_declared_ofFiles fun _ => hperm.mem_iff]
  · exact (FileFacts.coherent_candidates hpaths hids).of_subset fun c hc => (hdeclared c).mp hc
  · obtain ⟨f, hf, hc⟩ := List.mem_flatMap.mp ((hdeclared c).mp hc)
    obtain ⟨hcpath, hcpackage, _⟩ := FileFacts.of_mem_candidates hc
    rw [hcpackage, hpackage f hf (hcpath.symm.trans hpath)]

/-- An index of files answers the same whatever the order of the files: to a name, seen from a path with
the package of the file there, and to a method of a class. -/
theorem lookups_of_perm (hpaths : ∀ f ∈ files, ∀ g ∈ files, f.path = g.path → f = g)
    (hids : Key.Distinct (files.flatMap FileFacts.keys))
    (howners : Key.Distinct (files.flatMap FileFacts.ownerKeys))
    (hperm : entries.Perm (files.map FileFacts.entry)) :
    (∀ name package path, (∀ f ∈ files, f.path = path → f.package = package) →
      (ofFiles entries).function? name package path =
        (ofFiles (files.map FileFacts.entry)).function? name package path ∧
      (ofFiles entries).class? name package path =
        (ofFiles (files.map FileFacts.entry)).class? name package path ∧
      (ofFiles entries).interface? name package path =
        (ofFiles (files.map FileFacts.entry)).interface? name package path) ∧
    ∀ owner name, (ofFiles entries).method? owner name =
      (ofFiles (files.map FileFacts.entry)).method? owner name :=
  ⟨fun name _ _ hpackage => ⟨find?_of_perm hpaths hids hperm hpackage .function name,
      find?_of_perm hpaths hids hperm hpackage .classType name,
      find?_of_perm hpaths hids hperm hpackage .interface name⟩,
    method?_of_perm howners hperm⟩

end SymbolIndex

namespace Trial

open SymbolIndex

/-- Two files that export one class, in either order: the class is listed under different paths, and the
class and its method are found alike. -/
theorem lookups_swapped :
    Key.Distinct ([classes "a.ts", classes "b.ts"].flatMap FileFacts.keys) ∧
    Key.Distinct ([classes "a.ts", classes "b.ts"].flatMap FileFacts.ownerKeys) ∧
    (ofFiles [(classes "b.ts").entry, (classes "a.ts").entry]).candidates [.classType] "C" ≠
      (ofFiles [(classes "a.ts").entry, (classes "b.ts").entry]).candidates [.classType] "C" ∧
    (ofFiles [(classes "b.ts").entry, (classes "a.ts").entry]).class? "C" "app" "b.ts" =
      (ofFiles [(classes "a.ts").entry, (classes "b.ts").entry]).class? "C" "app" "b.ts" ∧
    ∀ owner, (ofFiles [(classes "b.ts").entry, (classes "a.ts").entry]).method? owner "m" =
      (ofFiles [(classes "a.ts").entry, (classes "b.ts").entry]).method? owner "m" := by
  have hpaths : ∀ f ∈ [classes "a.ts", classes "b.ts"], ∀ g ∈ [classes "a.ts", classes "b.ts"],
      f.path = g.path → f = g := by
    decide
  have hids : Key.Distinct ([classes "a.ts", classes "b.ts"].flatMap FileFacts.keys) := by decide +kernel
  have howners : Key.Distinct ([classes "a.ts", classes "b.ts"].flatMap FileFacts.ownerKeys) := by
    decide +kernel
  have hpackage : ∀ f ∈ [classes "a.ts", classes "b.ts"], f.path = "b.ts" → f.package = "app" := by decide
  obtain ⟨hnames, hmethods⟩ := lookups_of_perm hpaths hids howners (.swap ..)
  exact ⟨hids, howners, by decide +kernel, (hnames "C" "app" "b.ts" hpackage).2.1, fun _ => hmethods _ _⟩

end Trial

end CodeAtlas
