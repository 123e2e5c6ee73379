/-
# What a name stands for

Seen from a file, a name stands for a declaration of that file; or else for one that the package of the
file exports; or else for one that any package exports; or else for one that the package keeps to itself
(`Candidate.Follows`).

A function, a class and an interface are always found in this order. A type may be any of three kinds, and
there the order can be missed: where files before it export each of a file's own declarations of the name
too, they are listed under the paths of those files, and the name is taken for what the package exports
first, which may be of another kind (`Candidate.Eclipsed`). That is the one way to miss it
(`SymbolIndex.follows_iff`).

Key definitions: `Candidate.Follows`, `Candidate.Foremost`, `Candidate.Eclipsed`, `Candidate.Declared`.
Key theorems: `SymbolIndex.follows_of_no_own`, `SymbolIndex.find?_of_repeated`, `SymbolIndex.follows_iff`,
`Candidate.Coherent.not_eclipsed`, `SymbolIndex.names_follow_preference`.
-/
import CodeAtlas.Proofs.Lookup

namespace CodeAtlas

/-! ### The order of preference -/

namespace Candidate

variable {D : Candidate → Prop} {l : List Candidate} {c d : Candidate} {package path : String}
  {answer : Option String}

/-- The answer to a name, seen from a file of a package, by the order of preference: a declaration of the
file, or else one that the package exports, or else any that is exported, or else one of the package. -/
inductive Follows (D : Candidate → Prop) (package path : String) : Option String → Prop where
  | own {c : Candidate} (hc : D c) (hpath : c.path = path) : Follows D package path (some c.id)
  | ofPackage {c : Candidate} (hown : ∀ d, D d → d.path ≠ path) (hc : D c) (hexported : c.exported = true)
      (hpackage : c.package = package) : Follows D package path (some c.id)
  | exported {c : Candidate} (hown : ∀ d, D d → d.path ≠ path)
      (hpackage : ∀ d, D d → d.exported = true → d.package ≠ package) (hc : D c)
      (hexported : c.exported = true) : Follows D package path (some c.id)
  | hidden {c : Candidate} (hown : ∀ d, D d → d.path ≠ path)
      (hexported : ∀ d, D d → d.exported = false) (hc : D c)
      (hpackage : c.package = package) : Follows D package path (some c.id)
  | none (hown : ∀ d, D d → d.path ≠ path) (hexported : ∀ d, D d → d.exported = false)
      (hpackage : ∀ d, D d → d.package ≠ package) : Follows D package path .none

/-- The first of what a package exports, by path and id. -/
structure Foremost (D : Candidate → Prop) (package : String) (c : Candidate) : Prop where
  mem : D c
  exported : c.exported = true
  package_eq : c.package = package
  least : ∀ d, D d → d.exported = true → d.package = package →
    c.path < d.path ∨ c.path = d.path ∧ c.id ≤ d.id

/-- The declarations of a file are passed over: files before it export each of them too, and what the
package exports first is none of them. -/
structure Eclipsed (D : Candidate → Prop) (package path : String) : Prop where
  declared : ∃ c, D c ∧ c.path = path
  repeated : ∀ c, D c → c.path = path → ∃ d, D d ∧ d.id = c.id ∧ d.path < path
  foremost : ∃ c, Foremost D package c ∧ ∀ d, D d → d.path = path → d.id ≠ c.id

theorem Foremost.id_eq (hc : Foremost D package c) (hd : Foremost D package d) : c.id = d.id := by
  rcases hc.least d hd.mem hd.exported hd.package_eq with hlt | ⟨hpath, hcd⟩
  · rcases hd.least c hc.mem hc.exported hc.package_eq with hlt' | ⟨hpath, _⟩
    · exact absurd hlt' hlt.asymm
    · exact absurd hpath hlt.ne'
  · rcases hd.least c hc.mem hc.exported hc.package_eq with hlt' | ⟨_, hdc⟩
    · exact absurd hpath hlt'.ne'
    · exact le_antisymm hcd hdc

/-- In a file that declares the name, the answer is to be a declaration of the file. -/
theorem follows_iff_own (hown : ∃ c, D c ∧ c.path = path) :
    Follows D package path answer ↔ ∃ c, D c ∧ c.path = path ∧ answer = some c.id := by
  constructor
  · intro h
    obtain ⟨o, ho, hpath⟩ := hown
    cases h with
    | own hc hpath => exact ⟨_, hc, hpath, rfl⟩
    | ofPackage hown => exact absurd hpath (hown o ho)
    | exported hown => exact absurd hpath (hown o ho)
    | hidden hown => exact absurd hpath (hown o ho)
    | none hown => exact absurd hpath (hown o ho)
  · rintro ⟨c, hc, hpath, rfl⟩
    exact .own hc hpath

/-- A candidate of least rank is an answer by the order of preference. -/
theorem Follows.of_rank (hc : D c) (hrank : c.rank package path < 4)
    (hall : ∀ d, D d → c.rank package path ≤ d.rank package path) :
    Follows D package path (some c.id) := by
  by_cases hpath : c.path = path
  · exact .own hc hpath
  · have hown : ∀ d, D d → d.path ≠ path := fun d hd => by have := hall d hd; grind [rank]
    by_cases hexported : c.exported = true
    · by_cases hpackage : c.package = package
      · exact .ofPackage hown hc hexported hpackage
      · exact .exported hown (fun d hd _ => by have := hall d hd; grind [rank]) hc hexported
    · exact .hidden hown (fun d hd => by have := hall d hd; grind [rank]) hc (by grind [rank])

/-- Where every candidate is private to another package, there is no answer. -/
theorem Follows.none_of_rank (hall : ∀ d, D d → d.rank package path = 4) :
    Follows D package path .none := by
  refine .none (fun d hd => ?_) (fun d hd => ?_) fun d hd => ?_
  all_goals
    have := hall d hd
    grind [rank]

/-- A file is passed over only where none of its declarations comes first. -/
theorem Eclipsed.path_ne (hsorted : l.Pairwise fun a b => a.path ≤ b.path)
    (h : Eclipsed (· ∈ l) package path) (hc : IsFirst l c) : c.path ≠ path := by
  intro hpath
  obtain ⟨d, hd, hid, hlt⟩ := h.repeated c hc.mem hpath
  have hle : c.path ≤ d.path := hc.path_le hsorted hd hid.symm
  exact absurd (hpath ▸ hlt) hle.not_gt

/-- Where none of its declarations comes first, a file is passed over unless what the package exports first
is one of them. -/
theorem eclipsed_iff (hsorted : l.Pairwise fun a b => a.path ≤ b.path)
    (hown : ∃ o ∈ l, o.path = path) (hrepeated : ∀ d, IsFirst l d → d.path ≠ path)
    (hc : Foremost (· ∈ l) package c) :
    Eclipsed (· ∈ l) package path ↔ ∀ d ∈ l, d.path = path → d.id ≠ c.id := by
  constructor
  · rintro ⟨_, _, e, he, hother⟩ d hd hpath
    exact he.id_eq hc ▸ hother d hd hpath
  · refine fun hother => ⟨hown, fun d hd hpath => ?_, c, hc, hother⟩
    obtain ⟨e, he, hid⟩ := exists_first hd
    exact ⟨e, he.mem, hid, lt_of_le_of_ne (hpath ▸ he.path_le hsorted hd hid) (hrepeated e he)⟩

end Candidate

namespace SymbolIndex

open Candidate

section Preference

variable {ix : SymbolIndex} {kinds : List NodeKind} {name package path : String}

/-- Seen from a file without a declaration of the name, the answer follows the order of preference. -/
theorem follows_of_no_own (h : Coherent (ix.matching kinds name))
    (hown : ∀ c ∈ ix.matching kinds name, c.path ≠ path) :
    Follows (· ∈ ix.matching kinds name) package path (ix.find? kinds name package path) := by
  have hfirst : ∀ d ∈ ix.matching kinds name, ∃ e, IsFirst (ix.matching kinds name) e ∧
      e.rank package path = d.rank package path := by
    intro d hd
    obtain ⟨e, he, hid⟩ := exists_first hd
    exact ⟨e, he, h.rank_eq hown he.mem hd hid⟩
  rcases ix.find?_cases kinds name package path with ⟨c, hfind, hc, hrank, hall⟩ | ⟨hfind, hall⟩
  · rw [hfind]
    refine .of_rank hc.mem hrank fun d hd => ?_
    obtain ⟨e, he, hed⟩ := hfirst d hd
    exact hed ▸ (hall e he).rank_le
  · rw [hfind]
    refine .none_of_rank fun d hd => ?_
    obtain ⟨e, he, hed⟩ := hfirst d hd
    exact hed ▸ hall e he

/-- Where no file before it declares one of a file's declarations too, the answer is in the file. -/
theorem find?_of_first (package : String) {o : Candidate} (ho : IsFirst (ix.matching kinds name) o)
    (hpath : o.path = path) :
    ∃ c ∈ ix.matching kinds name, c.path = path ∧ ix.find? kinds name package path = some c.id := by
  have hzero : o.rank package path = 0 := rank_eq_zero_iff.mpr hpath
  rcases ix.find?_cases kinds name package path with ⟨c, hfind, hc, _, hall⟩ | ⟨_, hall⟩
  · have hle := (hall o ho).rank_le
    have hczero : c.rank package path = 0 := by omega
    exact ⟨c, hc.mem, rank_eq_zero_iff.mp hczero, hfind⟩
  · have := hall o ho
    omega

/-- Where files before it declare all of a file's declarations too, the answer is what the package exports
first. -/
theorem find?_of_repeated (h : Coherent (ix.matching kinds name))
    (hsorted : (ix.matching kinds name).Pairwise fun a b => a.path ≤ b.path)
    (hpackage : ∀ c ∈ ix.matching kinds name, c.path = path → c.package = package)
    {o : Candidate} (ho : o ∈ ix.matching kinds name) (hpath : o.path = path)
    (hrepeated : ∀ c, IsFirst (ix.matching kinds name) c → c.path ≠ path) :
    ∃ c, Foremost (· ∈ ix.matching kinds name) package c ∧
      ix.find? kinds name package path = some c.id := by
  -- what came first in place of the file's declaration is an export of the package
  obtain ⟨e, he, heo⟩ := exists_first ho
  have hee : e.exported = true := h.exported_of_path_ne he.mem ho heo (hpath ▸ hrepeated e he)
  have hep : e.package = package := (h.of_id he.mem ho heo).2.1.trans (hpackage o ho hpath)
  have hone : e.rank package path = 1 := rank_eq_one_iff.mpr ⟨hrepeated e he, hee, hep⟩
  rcases ix.find?_cases kinds name package path with ⟨c, hfind, hc, _, hall⟩ | ⟨_, hall⟩
  · have hle := (hall e he).rank_le
    have hpos : c.rank package path ≠ 0 := fun hzero => hrepeated c hc (rank_eq_zero_iff.mp hzero)
    have hcone : c.rank package path = 1 := by omega
    obtain ⟨_, hce, hcp⟩ := rank_eq_one_iff.mp hcone
    refine ⟨c, ⟨hc.mem, hce, hcp, fun d hd hde hdp => ?_⟩, hfind⟩
    obtain ⟨g, hg, hgd⟩ := exists_first hd
    obtain ⟨_, hgp, _, hge, _⟩ := h.of_id hg.mem hd hgd
    have hgpath : g.path ≤ d.path := hg.path_le hsorted hd hgd
    have hgone : g.rank package path = 1 :=
      rank_eq_one_iff.mpr ⟨hrepeated g hg, hge.trans hde, hgp.trans hdp⟩
    have hplace : c.place ≤ g.place := (hall g hg).place_le (hcone.trans hgone.symm)
    rcases path_le_of_place (hcp.trans (hgp.trans hdp).symm) (hce.trans (hge.trans hde).symm) hplace
      with hlt | ⟨heq, hid⟩
    · exact .inl (hlt.trans_le hgpath)
    · rcases (heq ▸ hgpath : c.path ≤ d.path).lt_or_eq with hlt | heq
      · exact .inl hlt
      · exact .inr ⟨heq, hgd ▸ hid⟩
  · have := hall e he
    omega

/-- The answer follows the order of preference exactly where the declarations of the file are not
passed over. -/
theorem follows_iff (h : Coherent (ix.matching kinds name))
    (hsorted : (ix.matching kinds name).Pairwise fun a b => a.path ≤ b.path)
    (hpackage : ∀ c ∈ ix.matching kinds name, c.path = path → c.package = package) :
    Follows (· ∈ ix.matching kinds name) package path (ix.find? kinds name package path) ↔
      ¬ Eclipsed (· ∈ ix.matching kinds name) package path := by
  by_cases hown : ∃ o ∈ ix.matching kinds name, o.path = path
  · by_cases hfirst : ∃ o, IsFirst (ix.matching kinds name) o ∧ o.path = path
    · obtain ⟨o, ho, hpath⟩ := hfirst
      obtain ⟨c, hc, hcpath, hfind⟩ := find?_of_first package ho hpath
      exact iff_of_true (hfind ▸ .own hc hcpath) fun hecl => hecl.path_ne hsorted ho hpath
    · have hrepeated : ∀ c, IsFirst (ix.matching kinds name) c → c.path ≠ path :=
        fun c hc hpath => hfirst ⟨c, hc, hpath⟩
      obtain ⟨o, ho, hpath⟩ := hown
      obtain ⟨c, hc, hfind⟩ := find?_of_repeated h hsorted hpackage ho hpath hrepeated
      rw [hfind, follows_iff_own ⟨o, ho, hpath⟩, eclipsed_iff hsorted ⟨o, ho, hpath⟩ hrepeated hc]
      simp only [not_forall, not_not, exists_prop, Option.some.injEq, eq_comm]
  · have hnone : ∀ o ∈ ix.matching kinds name, o.path ≠ path := fun o ho hpath => hown ⟨o, ho, hpath⟩
    exact iff_of_true (follows_of_no_own h hnone) fun hecl => hown hecl.declared

end Preference

end SymbolIndex

/-- Among candidates of one kind and name, those of a file are never passed over. -/
theorem Candidate.Coherent.not_eclipsed {l : List Candidate} {package path : String} (h : Coherent l)
    (hsame : ∀ c ∈ l, ∀ d ∈ l, c.kind = d.kind ∧ c.name = d.name)
    (hpackage : ∀ c ∈ l, c.path = path → c.package = package) :
    ¬ Eclipsed (· ∈ l) package path := by
  rintro ⟨⟨o, ho, hpath⟩, hrepeated, c, hc, hother⟩
  obtain ⟨d, hd, hid, hlt⟩ := hrepeated o ho hpath
  have hexported : o.exported = true := h.exported_of_path_ne ho hd hid.symm (hpath ▸ hlt.ne')
  obtain ⟨hkind, hname⟩ := hsame o ho c hc.mem
  exact hother o ho hpath (h.id_eq_of_exported ho hc.mem hkind hname
    ((hpackage o ho hpath).trans hc.package_eq.symm) hexported hc.exported)

/-! ### The declarations of files -/

/-- The files declare the candidate, which is of the name and one of the kinds. -/
def Candidate.Declared (files : List FileFacts) (kinds : List NodeKind) (name : String)
    (c : Candidate) : Prop :=
  (∃ f ∈ files, c ∈ f.candidates) ∧ c.kind ∈ kinds ∧ c.name = name

/-- The map of the symbols of files with paths of their own has one entry for each file. -/
theorem SymbolMap.mem_entries_ofFacts {files : List FileFacts}
    (hpaths : ∀ f ∈ files, ∀ g ∈ files, f.path = g.path → f = g)
    {e : String × FileSymbols} : e ∈ (SymbolMap.ofFacts files).entries ↔ e ∈ files.map FileFacts.entry := by
  constructor
  · intro he
    exact SortedMap.mem_of_get?_ofList (SortedMap.get?_of_mem_entries he)
  · intro he
    obtain ⟨f, hf, rfl⟩ := List.mem_map.mp he
    refine SortedMap.get?_eq_some_iff.mp ?_
    rw [ofFacts, SortedMap.ofList_eq_writes]
    refine SortedMap.get?_writes_of_mem (List.mem_map.mpr ⟨f, hf, rfl⟩) rfl fun e he hpath => ?_
    obtain ⟨g, hg, rfl⟩ := List.mem_map.mp he
    rw [hpaths g hg f hf hpath]

namespace SymbolIndex

open Candidate

variable {files : List FileFacts} {f : FileFacts}

/-- The declarations of parsed files are in the order of their paths. -/
theorem ascending_declared_ofFacts (files : List FileFacts) :
    (ofFacts files).declared.Pairwise fun a b => a.path ≤ b.path := by
  refine List.pairwise_flatMap.mpr ⟨fun e _ => ?_, ?_⟩
  · rw [List.pairwise_map]
    exact List.pairwise_of_forall fun _ _ => le_rfl
  · refine (SymbolMap.ofFacts files).ascending.imp fun {a b} hab c hc d hd => ?_
    obtain ⟨x, _, rfl⟩ := List.mem_map.mp hc
    obtain ⟨y, _, rfl⟩ := List.mem_map.mp hd
    exact (compare_lt_iff_lt.mp hab).le

section OfFiles

variable (hpaths : ∀ f ∈ files, ∀ g ∈ files, f.path = g.path → f = g)

include hpaths

theorem mem_matching_ofFacts {kinds : List NodeKind} {name : String} {c : Candidate} :
    c ∈ (ofFacts files).matching kinds name ↔ Declared files kinds name c := by
  rw [mem_matching, ofFacts, ofMap, mem_declared_ofFiles fun _ => SymbolMap.mem_entries_ofFacts hpaths,
    List.mem_flatMap]
  rfl

theorem matching_ofFacts_eq (kinds : List NodeKind) (name : String) :
    (· ∈ (ofFacts files).matching kinds name) = Declared files kinds name :=
  funext fun _ => propext (mem_matching_ofFacts hpaths)

/-- The declarations of the kinds and the name, of files whose ids do not collide, are coherent. -/
theorem coherent_matching_ofFacts (hids : Key.Distinct (files.flatMap FileFacts.keys))
    (kinds : List NodeKind) (name : String) : Coherent ((ofFacts files).matching kinds name) := by
  refine (FileFacts.coherent_candidates hpaths hids).of_subset fun c hc => ?_
  exact (mem_declared_ofFiles fun _ => SymbolMap.mem_entries_ofFacts hpaths).mp (mem_matching.mp hc).1

/-- What a file declares is of its package. -/
theorem package_of_matching_ofFacts (hf : f ∈ files) {kinds : List NodeKind} {name : String} {c : Candidate}
    (hc : c ∈ (ofFacts files).matching kinds name) (hpath : c.path = f.path) : c.package = f.package := by
  obtain ⟨⟨g, hg, hc⟩, _⟩ := (mem_matching_ofFacts hpaths).mp hc
  obtain ⟨hcpath, hpackage, _⟩ := FileFacts.of_mem_candidates hc
  rw [hpackage, hpaths g hg f hf (hcpath.symm.trans hpath)]

/-- What a file looks up follows the order of preference exactly where its declarations are not passed
over. -/
theorem follows_ofFacts_iff (hids : Key.Distinct (files.flatMap FileFacts.keys)) (hf : f ∈ files)
    (kinds : List NodeKind) (name : String) :
    Follows (Declared files kinds name) f.package f.path
        ((ofFacts files).find? kinds name f.package f.path) ↔
      ¬ Eclipsed (Declared files kinds name) f.package f.path := by
  rw [← matching_ofFacts_eq hpaths]
  exact follows_iff (coherent_matching_ofFacts hpaths hids kinds name)
    ((ascending_declared_ofFacts files).filter _) fun _ hc => package_of_matching_ofFacts hpaths hf hc

/-- What a file looks up among the declarations of one kind follows the order of preference. -/
theorem follows_ofFacts (hids : Key.Distinct (files.flatMap FileFacts.keys)) (hf : f ∈ files)
    (kind : NodeKind) (name : String) :
    Follows (Declared files [kind] name) f.package f.path
      ((ofFacts files).find? [kind] name f.package f.path) := by
  rw [follows_ofFacts_iff hpaths hids hf, ← matching_ofFacts_eq hpaths]
  refine (coherent_matching_ofFacts hpaths hids [kind] name).not_eclipsed (fun c hc d hd => ?_)
    fun _ hc => package_of_matching_ofFacts hpaths hf hc
  obtain ⟨_, hck, hcn⟩ := mem_matching.mp hc
  obtain ⟨_, hdk, hdn⟩ := mem_matching.mp hd
  rw [List.mem_singleton] at hck hdk
  exact ⟨hck.trans hdk.symm, hcn.trans hdn.symm⟩

end OfFiles

/-- Seen from a file, a name stands for a function, a class or an interface by the order of preference,
and for a type by it exactly where the declarations of the file are not passed over. -/
theorem names_follow_preference (hpaths : ∀ f ∈ files, ∀ g ∈ files, f.path = g.path → f = g)
    (hids : Key.Distinct (files.flatMap FileFacts.keys)) (hf : f ∈ files) (name : String) :
    Follows (Declared files [.function] name) f.package f.path
      ((ofFacts files).function? name f.package f.path) ∧
    Follows (Declared files [.classType] name) f.package f.path
      ((ofFacts files).class? name f.package f.path) ∧
    Follows (Declared files [.interface] name) f.package f.path
      ((ofFacts files).interface? name f.package f.path) ∧
    (Follows (Declared files [.classType, .interface, .typeAlias] name) f.package f.path
        ((ofFacts files).type? name f.package f.path) ↔
      ¬ Eclipsed (Declared files [.classType, .interface, .typeAlias] name) f.package f.path) :=
  ⟨follows_ofFacts hpaths hids hf .function name, follows_ofFacts hpaths hids hf .classType name,
    follows_ofFacts hpaths hids hf .interface name,
    follows_ofFacts_iff hpaths hids hf [.classType, .interface, .typeAlias] name⟩

end SymbolIndex

namespace Trial

open Candidate SymbolIndex

/-- An exported interface `X`. -/
def interfaceX : Declaration := .interface ⟨"X", true, [], [], [], 2, 2, none⟩

/-- A file that exports a class and an interface of one name. -/
def bothKinds : FileFacts :=
  { classes "a.ts" with
    declarations := [.classType ⟨"X", false, true, none, [], [], [], none, 1, 1, none⟩, interfaceX] }

/-- A file that exports the interface too. -/
def oneKind : FileFacts := { classes "b.ts" with declarations := [interfaceX] }

theorem distinct_kinds : Key.Distinct ([bothKinds, oneKind].flatMap FileFacts.keys) := by decide +kernel

/-- Both files export the interface, and seen from the second the name stands for it by the order of
preference, as an interface; as a type it does so exactly where the second file is not passed over. -/
theorem preference_oneKind :
    (∀ f ∈ [bothKinds, oneKind], ∀ g ∈ [bothKinds, oneKind], f.path = g.path → f = g) ∧
    Key.Distinct ([bothKinds, oneKind].flatMap FileFacts.keys) ∧
    Follows (Declared [bothKinds, oneKind] [.interface] "X") "app" "b.ts"
      ((ofFacts [bothKinds, oneKind]).interface? "X" "app" "b.ts") ∧
    (Follows (Declared [bothKinds, oneKind] [.classType, .interface, .typeAlias] "X") "app" "b.ts"
        ((ofFacts [bothKinds, oneKind]).type? "X" "app" "b.ts") ↔
      ¬ Eclipsed (Declared [bothKinds, oneKind] [.classType, .interface, .typeAlias] "X") "app" "b.ts") := by
  have hpaths : ∀ f ∈ [bothKinds, oneKind], ∀ g ∈ [bothKinds, oneKind], f.path = g.path → f = g := by
    decide
  have hf : oneKind ∈ [bothKinds, oneKind] := by simp
  obtain ⟨_, _, hinterface, htype⟩ := names_follow_preference hpaths distinct_kinds hf "X"
  exact ⟨hpaths, distinct_kinds, hinterface, htype⟩

/-- The second file declares a type of the name, but there the name is taken for the class that only the
first file declares. -/
theorem not_follows_oneKind :
    Key.Distinct ([bothKinds, oneKind].flatMap FileFacts.keys) ∧
    (ofFacts [bothKinds, oneKind]).type? "X" oneKind.package oneKind.path =
      some ((Scope.ofFacts bothKinds).topLevelId .classType "X") ∧
    ¬ Follows (Declared [bothKinds, oneKind] [.classType, .interface, .typeAlias] "X")
      oneKind.package oneKind.path
      ((ofFacts [bothKinds, oneKind]).type? "X" oneKind.package oneKind.path) := by
  refine ⟨distinct_kinds, by decide +kernel, fun h => ?_⟩
  have hown : ∃ c ∈ oneKind.candidates, c.kind ∈ [.classType, .interface, .typeAlias] ∧ c.name = "X" ∧
      c.path = oneKind.path := by
    decide +kernel
  have hother : ∀ f ∈ [bothKinds, oneKind], ∀ c ∈ f.candidates, c.path = oneKind.path →
      (ofFacts [bothKinds, oneKind]).type? "X" oneKind.package oneKind.path ≠ some c.id := by
    decide +kernel
  obtain ⟨o, ho, hkind, hname, hpath⟩ := hown
  obtain ⟨c, ⟨⟨f, hf, hc⟩, _⟩, hcpath, hanswer⟩ :=
    (follows_iff_own ⟨o, ⟨⟨oneKind, by simp, ho⟩, hkind, hname⟩, hpath⟩).mp h
  exact hother f hf c hc hcpath hanswer

end Trial

end CodeAtlas
