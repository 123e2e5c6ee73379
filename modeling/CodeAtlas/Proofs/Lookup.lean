/-
# Looking a name up

The candidates for a name come without those whose id came before, in the order of their places, and a
candidate is picked by four rules, one after the other. What comes of it is one order: by how near a
candidate is to the file that the name stands in (`Candidate.rank`), and then by place
(`Candidate.Precedes`). A lookup answers with the one that precedes all, of the candidates that come first
with their ids (`SymbolIndex.find?_cases`).

The candidates of parsed files are coherent (`Candidate.Coherent`): one id is one kind, name and package,
and what is not exported has its id in one file only.

Key definitions: `Candidate.rank`, `Candidate.Precedes`, `SymbolIndex.matching`, `Candidate.Coherent`,
`FileFacts.candidates`.
Key theorems: `SymbolIndex.pick_eq_some`, `SymbolIndex.find?_cases`, `FileFacts.coherent_candidates`.
-/
import Mathlib.Data.Prod.Lex
import Mathlib.Data.String.Basic
import CodeAtlas.Proofs.Agreement

namespace CodeAtlas

/-! ### Sorted lists -/

section Sorted

variable {α β : Type} [LinearOrder β] {f : α → β} {le : α → α → Bool}

theorem Ordered.ascending_insert (h : ∀ a b, le a b = true ↔ f a ≤ f b) (a : α) {l : List α}
    (hl : l.Pairwise fun a b => f a ≤ f b) :
    (Ordered.insert le a l).Pairwise fun a b => f a ≤ f b := by
  induction l with
  | nil => simp [Ordered.insert]
  | cons b rest ih =>
    obtain ⟨hb, hrest⟩ := List.pairwise_cons.mp hl
    unfold Ordered.insert
    split
    · rename_i hab
      have hab := (h a b).mp hab
      refine List.pairwise_cons.mpr ⟨fun c hc => ?_, hl⟩
      rcases List.mem_cons.mp hc with rfl | hc
      · exact hab
      · exact hab.trans (hb c hc)
    · rename_i hab
      have hba : f b ≤ f a := le_of_not_ge fun hle => hab ((h a b).mpr hle)
      refine List.pairwise_cons.mpr ⟨fun c hc => ?_, ih hrest⟩
      rcases List.mem_cons.mp ((Ordered.insert_perm le a rest).mem_iff.mp hc) with rfl | hc
      · exact hba
      · exact hb c hc

/-- A list sorted by the order of some values is in that order. -/
theorem Ordered.ascending_sort (h : ∀ a b, le a b = true ↔ f a ≤ f b) (l : List α) :
    (Ordered.sort le l).Pairwise fun a b => f a ≤ f b := by
  induction l with
  | nil => exact .nil
  | cons a rest ih => exact Ordered.ascending_insert h a ih

/-- In a list that is in order, what is found first is the least of what could be found. -/
theorem le_of_find?_eq_some {p : α → Bool} {l : List α} {a b : α}
    (hl : l.Pairwise fun a b => f a ≤ f b) (ha : l.find? p = some a) (hb : b ∈ l) (hp : p b = true) :
    f a ≤ f b := by
  obtain ⟨_, front, back, rfl, hfront⟩ := List.find?_eq_some_iff_append.mp ha
  rcases List.mem_append.mp hb with hb | hb
  · have := hfront b hb
    simp [hp] at this
  · rcases List.mem_cons.mp hb with rfl | hb
    · exact le_rfl
    · exact (List.pairwise_cons.mp (List.pairwise_append.mp hl).2.1).1 b hb

end Sorted

/-! ### Candidates -/

namespace Candidate

variable {l : List Candidate} {c d : Candidate} {package path : String}

/-- In a list in the order of paths, the first with an id has the least path. -/
theorem IsFirst.path_le (hl : l.Pairwise fun a b => a.path ≤ b.path) (h : IsFirst l c) (hd : d ∈ l)
    (hid : c.id = d.id) : c.path ≤ d.path :=
  le_of_find?_eq_some hl h hd (by simp [hid])

/-- What candidates are sorted by. -/
abbrev Place := String ×ₗ String ×ₗ ℕ ×ₗ String

/-- The place of a candidate: its package, its path, whether it is exported, and its id. -/
def place (c : Candidate) : Place :=
  toLex (c.package, toLex (c.path, toLex (c.exported.toNat, c.id)))

theorem place_lt_iff : c.place < d.place ↔ c.package < d.package ∨ c.package = d.package ∧
    (c.path < d.path ∨ c.path = d.path ∧
      (c.exported.toNat < d.exported.toNat ∨ c.exported.toNat = d.exported.toNat ∧ c.id < d.id)) := by
  simp only [place, Prod.Lex.toLex_lt_toLex]

theorem isLE_compare_iff : (c.compare d).isLE = true ↔ c.place ≤ d.place := by
  have hgt : c.compare d = .gt ↔ d.place < c.place := by
    simp only [compare, place_lt_iff, Ordering.then_eq_gt, compare_gt_iff_gt, compare_eq_iff_eq]
    simp only [eq_comm]
  rw [← not_lt, ← hgt]
  cases c.compare d <;> simp

/-- Of two exports of a package, or two others, the one that comes first does so by path and id. -/
theorem path_le_of_place (hpackage : c.package = d.package) (hexported : c.exported = d.exported)
    (h : c.place ≤ d.place) : c.path < d.path ∨ c.path = d.path ∧ c.id ≤ d.id := by
  simpa [place, Prod.Lex.toLex_le_toLex, hpackage, hexported] using h

/-- How near a candidate is to a file of a package: it is in the file, exported by the package, exported by
another, in the package, or none of these. -/
def rank (package path : String) (c : Candidate) : ℕ :=
  if c.path = path then 0
  else if c.exported then (if c.package = package then 1 else 2)
  else if c.package = package then 3 else 4

theorem rank_eq_zero_iff : c.rank package path = 0 ↔ c.path = path := by
  grind [rank]

theorem rank_eq_one_iff : c.rank package path = 1 ↔
    c.path ≠ path ∧ c.exported = true ∧ c.package = package := by
  grind [rank]

/-- The candidate is preferred to another, seen from a file of a package: it is nearer, or it is as near
and has no later place. -/
def Precedes (package path : String) (c d : Candidate) : Prop :=
  c.rank package path < d.rank package path ∨
    c.rank package path = d.rank package path ∧ c.place ≤ d.place

theorem Precedes.rank_le (h : Precedes package path c d) : c.rank package path ≤ d.rank package path := by
  rcases h with h | h
  · exact h.le
  · exact h.1.le

theorem Precedes.place_le (h : Precedes package path c d)
    (hrank : c.rank package path = d.rank package path) : c.place ≤ d.place := by
  rcases h with h | h
  · exact absurd hrank h.ne
  · exact h.2

end Candidate

/-! ### What is picked -/

namespace SymbolIndex

open Candidate

variable {l : List Candidate} {c : Candidate} {package path : String}

/-- What is found among the nearest candidates precedes all. -/
theorem precedes_of_find? {p : Candidate → Bool} {i : ℕ} (hl : l.Pairwise fun a b => a.place ≤ b.place)
    (hfind : l.find? p = some c) (hp : ∀ d ∈ l, p d = true ↔ d.rank package path = i)
    (hlow : ∀ d ∈ l, i ≤ d.rank package path) :
    c ∈ l ∧ c.rank package path = i ∧ ∀ d ∈ l, Precedes package path c d := by
  have hc : c ∈ l := List.mem_of_find?_eq_some hfind
  have hrank : c.rank package path = i := (hp c hc).mp (List.find?_some hfind)
  refine ⟨hc, hrank, fun d hd => ?_⟩
  rcases (hlow d hd).lt_or_eq with hlt | heq
  · exact .inl (hrank ▸ hlt)
  · exact .inr ⟨hrank.trans heq, le_of_find?_eq_some hl hfind hd ((hp d hd).mpr heq.symm)⟩

/-- Of candidates in their order, the one that is picked precedes all. -/
theorem pick_eq_some (hl : l.Pairwise fun a b => a.place ≤ b.place) (h : pick l package path = some c) :
    c ∈ l ∧ c.rank package path < 4 ∧ ∀ d ∈ l, Precedes package path c d := by
  have hnearest {p : Candidate → Bool} {i : ℕ} (hfind : l.find? p = some c) (hi : i < 4)
      (hp : ∀ d ∈ l, (p d = true ↔ d.rank package path = i) ∧ i ≤ d.rank package path) :
      c ∈ l ∧ c.rank package path < 4 ∧ ∀ d ∈ l, Precedes package path c d := by
    obtain ⟨hc, hrank, hall⟩ := precedes_of_find? hl hfind (fun d hd => (hp d hd).1) fun d hd => (hp d hd).2
    exact ⟨hc, hrank ▸ hi, hall⟩
  simp only [pick, Option.or_eq_some_iff, List.find?_eq_none] at h
  -- each rule comes to one rank where the rules before it found nothing
  rcases h with h0 | ⟨hn0, h1 | ⟨hn1, h2 | ⟨hn2, h3⟩⟩⟩
  · refine hnearest (i := 0) h0 (by decide) fun d _ => ?_
    grind [rank]
  · refine hnearest (i := 1) h1 (by decide) fun d hd => ?_
    have := hn0 d hd
    grind [rank]
  · refine hnearest (i := 2) h2 (by decide) fun d hd => ?_
    have := hn0 d hd
    have := hn1 d hd
    grind [rank]
  · refine hnearest (i := 3) h3 (by decide) fun d hd => ?_
    have := hn0 d hd
    have := hn2 d hd
    grind [rank]

/-- Where nothing is picked, no candidate counts. -/
theorem pick_eq_none (h : pick l package path = none) : ∀ d ∈ l, d.rank package path = 4 := by
  intro d hd
  simp only [pick, Option.or_eq_none_iff, List.find?_eq_none] at h
  obtain ⟨hn0, _, hn2, hn3⟩ := h
  have := hn0 d hd
  have := hn2 d hd
  have := hn3 d hd
  grind [rank]

/-- The declarations of a name and certain kinds. -/
def matching (ix : SymbolIndex) (kinds : List NodeKind) (name : String) : List Candidate :=
  ix.declared.filter fun c => kinds.contains c.kind && c.name == name

theorem mem_matching {ix : SymbolIndex} {kinds : List NodeKind} {name : String} :
    c ∈ ix.matching kinds name ↔ c ∈ ix.declared ∧ c.kind ∈ kinds ∧ c.name = name := by
  simp [matching]

/-- A lookup answers with the one that precedes all, of the candidates that come first with their ids; or
with nothing, where none of them counts. -/
theorem find?_cases (ix : SymbolIndex) (kinds : List NodeKind) (name package path : String) :
    (∃ c, ix.find? kinds name package path = some c.id ∧ IsFirst (ix.matching kinds name) c ∧
      c.rank package path < 4 ∧
      ∀ d, IsFirst (ix.matching kinds name) d → Precedes package path c d) ∨
    (ix.find? kinds name package path = none ∧
      ∀ d, IsFirst (ix.matching kinds name) d → d.rank package path = 4) := by
  have hmem : ∀ d, d ∈ ix.candidates kinds name ↔ IsFirst (ix.matching kinds name) d := by
    intro d
    rw [candidates, Ordered.mem_sort, mem_distinct]
    rfl
  have hsorted : (ix.candidates kinds name).Pairwise fun a b => a.place ≤ b.place := by
    rw [candidates]
    exact Ordered.ascending_sort (f := place) (fun _ _ => isLE_compare_iff) _
  rw [find?]
  cases hpick : pick (ix.candidates kinds name) package path with
  | none => exact .inr ⟨rfl, fun d hd => pick_eq_none hpick d ((hmem d).mpr hd)⟩
  | some c =>
    obtain ⟨hc, hrank, hall⟩ := pick_eq_some hsorted hpick
    exact .inl ⟨c, rfl, (hmem c).mp hc, hrank, fun d hd => hall d ((hmem d).mpr hd)⟩

end SymbolIndex

/-! ### Candidates of files -/

namespace Candidate

/-- What the id of a candidate is made of. -/
def key (c : Candidate) : Key :=
  ⟨c.kind, c.package, c.name, if c.exported then .exported else .inFile c.path⟩

/-- A candidate has the id of its key and an id tells the key; and a file has one package and exports a name
or does not. -/
structure Coherent (l : List Candidate) : Prop where
  id_eq : ∀ c ∈ l, c.id = c.key.id
  key_eq : ∀ c ∈ l, ∀ d ∈ l, c.id = d.id → c.key = d.key
  of_path : ∀ c ∈ l, ∀ d ∈ l, c.path = d.path →
    c.package = d.package ∧ (c.name = d.name → c.exported = d.exported)

namespace Coherent

variable {l l' : List Candidate} {c d : Candidate} {package path : String}

theorem of_subset (h : Coherent l) (hsub : l' ⊆ l) : Coherent l' where
  id_eq c hc := h.id_eq c (hsub hc)
  key_eq c hc d hd := h.key_eq c (hsub hc) d (hsub hd)
  of_path c hc d hd := h.of_path c (hsub hc) d (hsub hd)

/-- Candidates with one id are of one kind, package and name, both exported or both of one file. -/
theorem of_id (h : Coherent l) (hc : c ∈ l) (hd : d ∈ l) (hid : c.id = d.id) :
    c.kind = d.kind ∧ c.package = d.package ∧ c.name = d.name ∧ c.exported = d.exported ∧
      (c.exported = false → c.path = d.path) := by
  obtain ⟨hkind, hpackage, hname, hmark⟩ := Key.mk.inj (h.key_eq c hc d hd hid)
  refine ⟨hkind, hpackage, hname, ?_⟩
  cases hce : c.exported <;> cases hde : d.exported <;> simp_all

/-- Candidates of one key have one id. -/
theorem id_of_key (h : Coherent l) (hc : c ∈ l) (hd : d ∈ l) (hkey : c.key = d.key) : c.id = d.id := by
  rw [h.id_eq c hc, h.id_eq d hd, hkey]

/-- A package exports one declaration of a kind and a name. -/
theorem id_eq_of_exported (h : Coherent l) (hc : c ∈ l) (hd : d ∈ l) (hkind : c.kind = d.kind)
    (hname : c.name = d.name) (hpackage : c.package = d.package) (hce : c.exported = true)
    (hde : d.exported = true) : c.id = d.id := by
  refine h.id_of_key hc hd ?_
  simp only [key, hkind, hname, hpackage, hce, hde, if_true]

/-- What has one id in two files is exported. -/
theorem exported_of_path_ne (h : Coherent l) (hc : c ∈ l) (hd : d ∈ l) (hid : c.id = d.id)
    (hne : c.path ≠ d.path) : c.exported = true := by
  obtain ⟨_, _, _, _, hpath⟩ := h.of_id hc hd hid
  by_contra hce
  exact hne (hpath (by simpa using hce))

/-- Where none is in the file, candidates with one id are equally near. -/
theorem rank_eq (h : Coherent l) (hown : ∀ e ∈ l, e.path ≠ path) (hc : c ∈ l) (hd : d ∈ l)
    (hid : c.id = d.id) : c.rank package path = d.rank package path := by
  obtain ⟨_, hpackage, _, hexported, _⟩ := h.of_id hc hd hid
  simp only [rank, hown c hc, hown d hd, hpackage, hexported]

end Coherent

end Candidate

namespace FileFacts

variable {f : FileFacts} {files : List FileFacts} {c : Candidate}

/-- The declarations of a file that names may stand for. -/
def candidates (f : FileFacts) : List Candidate :=
  ((FileSymbols.ofFacts f).symbols.filter (·.owner.isNone)).map
    (Candidate.ofSymbol f.path (FileSymbols.ofFacts f))

/-- The path of a file, and what the file declares. -/
def entry (f : FileFacts) : String × FileSymbols := (f.path, FileSymbols.ofFacts f)

theorem of_mem_candidates (h : c ∈ f.candidates) : c.path = f.path ∧ c.package = f.package ∧
    c.exported = (Scope.ofFacts f).isExported c.name ∧ c.id = c.key.id ∧ c.key ∈ f.keys := by
  obtain ⟨x, hx, rfl⟩ := List.mem_map.mp h
  obtain ⟨hx, howner⟩ := List.mem_filter.mp hx
  obtain ⟨d, hd, hsymbol⟩ := List.mem_filterMap.mp hx
  obtain ⟨hid, ho, hexported⟩ := Scope.of_symbol? hsymbol
  -- a symbol without an owner is not in a class
  have hclass : d.className? = none := by
    rw [ho] at howner
    simpa using howner
  have hkey : (Scope.ofFacts f).key x.kind d.className? x.name =
      (Candidate.ofSymbol f.path (FileSymbols.ofFacts f) x).key := by
    rw [hclass, Candidate.key, Candidate.ofSymbol, hexported hclass]
    rfl
  refine ⟨rfl, rfl, hexported hclass, ?_, ?_⟩
  · rw [← hkey]
    exact hid
  · rw [← hkey]
    exact f.key_mem_keys hd hsymbol

/-- The candidates of files with paths of their own, whose ids do not collide, are coherent. -/
theorem coherent_candidates (hpaths : ∀ f ∈ files, ∀ g ∈ files, f.path = g.path → f = g)
    (hids : Key.Distinct (files.flatMap keys)) : Candidate.Coherent (files.flatMap candidates) where
  id_eq c hc := by
    obtain ⟨f, _, hc⟩ := List.mem_flatMap.mp hc
    exact (of_mem_candidates hc).2.2.2.1
  key_eq c hc d hd hid := by
    obtain ⟨f, hf, hc⟩ := List.mem_flatMap.mp hc
    obtain ⟨g, hg, hd⟩ := List.mem_flatMap.mp hd
    obtain ⟨_, _, _, hcid, hck⟩ := of_mem_candidates hc
    obtain ⟨_, _, _, hdid, hdk⟩ := of_mem_candidates hd
    refine hids _ (List.mem_flatMap.mpr ⟨f, hf, hck⟩) _ (List.mem_flatMap.mpr ⟨g, hg, hdk⟩) ?_
    rw [← hcid, ← hdid, hid]
  of_path c hc d hd hpath := by
    obtain ⟨f, hf, hc⟩ := List.mem_flatMap.mp hc
    obtain ⟨g, hg, hd⟩ := List.mem_flatMap.mp hd
    obtain ⟨hcp, hcpkg, hce, _, _⟩ := of_mem_candidates hc
    obtain ⟨hdp, hdpkg, hde, _, _⟩ := of_mem_candidates hd
    obtain rfl : f = g := hpaths f hf g hg (hcp.symm.trans (hpath.trans hdp))
    refine ⟨hcpkg.trans hdpkg.symm, fun hname => ?_⟩
    rw [hce, hde, hname]

end FileFacts

namespace SymbolIndex

variable {files : List FileFacts} {entries : List (String × FileSymbols)} {c : Candidate}

/-- The declarations of an index are those of its entries, whatever their order. -/
theorem mem_declared_ofFiles (h : ∀ e, e ∈ entries ↔ e ∈ files.map FileFacts.entry) :
    c ∈ (ofFiles entries).declared ↔ c ∈ files.flatMap FileFacts.candidates := by
  constructor
  · intro hc
    obtain ⟨e, he, hc⟩ := List.mem_flatMap.mp hc
    obtain ⟨f, hf, rfl⟩ := List.mem_map.mp ((h e).mp he)
    exact List.mem_flatMap.mpr ⟨f, hf, hc⟩
  · intro hc
    obtain ⟨f, hf, hc⟩ := List.mem_flatMap.mp hc
    exact List.mem_flatMap.mpr ⟨f.entry, (h _).mpr (List.mem_map.mpr ⟨f, hf, rfl⟩), hc⟩

end SymbolIndex

end CodeAtlas
