/-
# Packages that nothing depends on

The node of a package outside the project is built with each import of it, and belongs to no file. No
file takes it along when it is retired, so it stays until a reset: after a run the packages of the graph
are those that some file imported when it was read since the last reset (`Run.packaged`). The
dependencies on a package go with their files: those of the graph come from the files of the scan that
imported it when they were last read (`Run.depended`). So every package is the target of a dependency
exactly where each that was imported since the last reset is still imported by a file of the scan
(`Run.depended_on_iff`). When the last file that imports a package is deleted, its node is left with no
relationship at all (`Run.exists_orphaned_package`).

That a file of the scan has its dependencies in the graph takes that the ids of the files tell them
apart (`Project.Apart`): else a dependency of two files is retired with the one it was stored for.

Key definitions: `Build.imports`, `importedSince`, `importedLast`, `Packaged`, `Depended`.
Key theorems: `Build.imports_of_node`, `Build.imports_of_dependsOn`, `Packaged.store`, `Run.packaged`,
`Depended.store`, `Run.depended`, `Run.depended_on_iff`.
-/
import CodeAtlas.Proofs.Incremental
import CodeAtlas.Proofs.Owners

namespace CodeAtlas

/-! ### Imports of packages -/

namespace Build

/-- The ids of the packages that a declaration imports. -/
def packageIds : Declaration → List String
  | .import i => ((importedPackage? i).map Ident.package).toList
  | _ => []

/-- Whether the file imports the package of the id. -/
def imports (f : FileFacts) (id : String) : Bool := (f.declarations.flatMap packageIds).contains id

variable {f : FileFacts} {id : String} {n : Node} {r : Relationship} {createdAt : Int}
  {ix : SymbolIndex}

theorem imports_iff : imports f id = true ↔ ∃ i package, .import i ∈ f.declarations ∧
    importedPackage? i = some package ∧ Ident.package package = id := by
  rw [imports, List.contains_iff_mem, List.mem_flatMap]
  constructor
  · rintro ⟨d, hd, hid⟩
    unfold packageIds at hid
    split at hid
    · rename_i i
      rw [Option.mem_toList] at hid
      obtain ⟨package, hp, rfl⟩ := Option.map_eq_some_iff.mp hid
      exact ⟨i, package, hd, hp, rfl⟩
    · cases hid
  · rintro ⟨i, package, hi, hp, rfl⟩
    refine ⟨.import i, hi, ?_⟩
    rw [packageIds, hp]
    exact List.mem_cons_self

theorem tagged_of_imports (h : imports f id = true) : NodeKind.Tagged .module id := by
  obtain ⟨_, package, _, _, rfl⟩ := imports_iff.mp h
  exact NodeKind.tagged_node .module _ _ _

/-- A package that is imported has a node of the file. -/
theorem exists_node_of_imports (h : imports f id = true) : ∃ n ∈ fileNodes f, n.id = id := by
  obtain ⟨i, package, hi, hp, rfl⟩ := imports_iff.mp h
  exact ⟨packageNode package, mem_fileNodes.mpr (.package hi hp), rfl⟩

/-- The packages among the nodes of a file are those that it imports. -/
theorem imports_of_node (hn : n ∈ fileNodes f) (hk : n.kind = .module) : imports f n.id = true := by
  cases mem_fileNodes.mp hn with
  | package hi hname => exact imports_iff.mpr ⟨_, _, hi, hname, rfl⟩
  | file | function | classType | interface | typeAlias | imported | exported => cases hk

/-- A file depends on the packages that it imports. -/
theorem exists_dependsOn_of_imports (createdAt : Int) (ix : SymbolIndex) (h : imports f id = true) :
    ∃ r ∈ fileRelationships createdAt ix f, r.triple = (.dependsOn, Ident.file f.path, id) := by
  obtain ⟨i, package, hi, hp, rfl⟩ := imports_iff.mp h
  exact ⟨_, mem_fileRelationships.mpr (.importedPackage hi hp), rfl⟩

/-- A dependency of a file leads from the file, and to a package only if the file imports it. -/
theorem imports_of_dependsOn (hr : r ∈ fileRelationships createdAt ix f) (hk : r.kind = .dependsOn) :
    r.source = Ident.file f.path ∧ (NodeKind.Tagged .module r.target → imports f r.target = true) := by
  cases mem_fileRelationships.mp hr with
  | importedFile =>
    refine ⟨rfl, fun htag => ?_⟩
    cases NodeKind.tagged_unique htag (tagged_file _)
  | importedPackage hi hname => exact ⟨rfl, fun _ => imports_iff.mpr ⟨_, _, hi, hname, rfl⟩⟩
  | method | function | call | usedType | classType | superclass | implemented | interface | parent
    | typeAlias | imported | exported | reference => cases hk

end Build

/-! ### Imports in a run -/

/-- Whether the pass reads a file that imports the package of the id. -/
def Pass.imports {p : Project} (a : Pass p) (reader : Reader) (id : String) : Bool :=
  (a.facts reader).any (Build.imports · id)

/-- Whether the operation reads a file that imports the package of the id. -/
def Turn.imports (p : Project) (reader : Reader) (t : Turn) (id : String) : Bool :=
  (t.pass? p).any (·.imports reader id)

/-- Whether since the last reset a file was read that imports the package of the id. -/
def importedSince (p : Project) (reader : Reader) : List Turn → String → Bool
  | [], _ => false
  | t :: ts, id => t.imports p reader id || match t.act with
    | .reset => false
    | .sync _ | .clean => importedSince p reader ts id

/-- Whether the file at a path imported the package of the id when it was last read. -/
def importedLast (p : Project) (reader : Reader) (ts : List Turn) (path id : String) : Bool :=
  (lastFacts p reader ts path).any (Build.imports · id)

section History

variable {p : Project} {reader : Reader} {t : Turn} {ts : List Turn} {a : Pass p} {q id : String}
  {r : Relationship}

theorem Pass.imports_iff : a.imports reader id = true ↔
    ∃ f ∈ a.facts reader, Build.imports f id = true := List.any_eq_true

theorem Turn.imports_eq (ha : t.pass? p = some a) : t.imports p reader id = a.imports reader id := by
  rw [Turn.imports, ha]
  rfl

theorem importedLast_of_not_mem (ha : t.pass? p = some a) (hq : q ∉ a.plan.changes.toExtract) :
    importedLast p reader (t :: ts) q id = importedLast p reader ts q id := by
  rw [importedLast, lastFacts_of_not_mem ha hq, importedLast]

theorem importedLast_of_none (ht : t.pass? p = none) :
    importedLast p reader (t :: ts) q id = importedLast p reader ts q id := by
  rw [importedLast, lastFacts_of_none ht, importedLast]

/-- What a file imports that is read now was imported by a file of the scan. -/
theorem exists_importedLast (ha : t.pass? p = some a) (hp : p.Plain (t.seen p))
    (himports : a.imports reader id = true) : ∃ path, (p.scan (t.seen p)).contains path = true ∧
      importedLast p reader (t :: ts) path id = true := by
  rw [← Turn.files_of_pass? ha] at hp ⊢
  obtain ⟨f, hf, hid⟩ := Pass.imports_iff.mp himports
  refine ⟨f.path, Pass.contains_of_mem (Pass.path_of_mem hp hf).1, ?_⟩
  rw [importedLast, lastFacts_of_facts ha hp hf]
  exact hid

/-- What was built for a path when its file was last read was built from what was then known of it. -/
theorem exists_facts_of_lastBuilt : ∀ {ts : List Turn}, r ∈ lastBuilt p reader ts q →
    ∃ f createdAt ix, r ∈ Build.fileRelationships createdAt ix f ∧ f.path = q ∧
      ((∀ u ∈ ts, p.Plain (u.seen p)) → lastFacts p reader ts q = some f)
  | [], hr => by cases hr
  | t :: ts, hr => by
    cases ha : t.pass? p with
    | none =>
      rw [lastBuilt_of_none ha] at hr
      obtain ⟨f, createdAt, ix, hr, hq, hlast⟩ := exists_facts_of_lastBuilt hr
      refine ⟨f, createdAt, ix, hr, hq, fun hp => ?_⟩
      rw [lastFacts_of_none ha]
      exact hlast fun u hu => hp u (List.mem_cons_of_mem _ hu)
    | some a =>
      by_cases hx : q ∈ a.plan.changes.toExtract
      · rw [lastBuilt_of_mem ha hx] at hr
        obtain ⟨f, hread, hmade⟩ := List.mem_flatMap.mp hr
        obtain ⟨hf, hq⟩ := List.mem_filter.mp hread
        obtain rfl := of_decide_eq_true hq
        refine ⟨f, _, _, hmade, rfl, fun hp => ?_⟩
        exact lastFacts_of_facts ha (Turn.files_of_pass? ha ▸ hp t List.mem_cons_self) hf
      · rw [lastBuilt_of_not_mem ha hx] at hr
        obtain ⟨f, createdAt, ix, hr, hq, hlast⟩ := exists_facts_of_lastBuilt hr
        refine ⟨f, createdAt, ix, hr, hq, fun hp => ?_⟩
        rw [lastFacts_of_not_mem ha hx]
        exact hlast fun u hu => hp u (List.mem_cons_of_mem _ hu)

/-- A dependency that was built for a path leads from the file at the path. -/
theorem source_of_lastBuilt (hr : r ∈ lastBuilt p reader ts q) (hk : r.kind = .dependsOn) :
    r.source = Ident.file q := by
  obtain ⟨f, _, _, hmade, rfl, _⟩ := exists_facts_of_lastBuilt hr
  exact (Build.imports_of_dependsOn hmade hk).1

/-- A dependency on a package that was built for a path is that of an import. -/
theorem importedLast_of_lastBuilt (hp : ∀ u ∈ ts, p.Plain (u.seen p))
    (hr : r ∈ lastBuilt p reader ts q) (hk : r.kind = .dependsOn)
    (htag : NodeKind.Tagged .module r.target) : importedLast p reader ts q r.target = true := by
  obtain ⟨f, _, _, hmade, _, hlast⟩ := exists_facts_of_lastBuilt hr
  rw [importedLast, hlast hp]
  exact (Build.imports_of_dependsOn hmade hk).2 htag

end History

/-! ### The packages of the graph -/

/-- The packages of the store are those that are known, and these are resolved. -/
structure Packaged (known : String → Bool) (s : Store) : Prop where
  tagged : ∀ {id}, known id = true → NodeKind.Tagged .module id
  of_stored : ∀ {id n}, s.nodes.get? id = some n → n.node.kind = .module → known id = true
  stored : ∀ {id}, known id = true → ∃ n, s.nodes.get? id = some n ∧ n.resolved = true

namespace Packaged

variable {p : Project} {reader : Reader} {a : Pass p} {s : Store} {known : String → Bool}
  {id : String}

theorem empty : Packaged (fun _ => false) .empty where
  tagged h := by cases h
  of_stored h := by cases h
  stored h := by cases h

/-- A package that is stored comes from the batch or was there. -/
theorem of_stored_store (h : Packaged known s) {n : StoredNode}
    (hn : (a.store reader s).nodes.get? id = some n) (hk : n.node.kind = .module) :
    (a.imports reader id || known id) = true := by
  rw [Bool.or_eq_true]
  rw [Pass.nodes_store] at hn
  rcases Store.of_get?_addAllEnds hn with hn | ⟨_, rfl, _⟩
  · refine Store.mergeNodes_induction
      (P := fun n => n.node.kind = .module → a.imports reader id = true ∨ known id = true)
      (a.batch reader).nodes (fun n hn hk => ?_) (fun m hm hid old _ hk => ?_) n hn hk
    · obtain ⟨old, hold, hnode⟩ := Pass.get?_retired_nodes hn
      exact .inr (h.of_stored hold (hnode ▸ hk))
    · have hkind : m.kind = .module := by
        cases old with
        | none => exact hk
        | some o => exact hk
      obtain ⟨f, hf, hm⟩ := List.mem_flatMap.mp (Build.mem_of_mem_distinctNodes hm)
      exact .inl (Pass.imports_iff.mpr ⟨f, hf, hid ▸ Build.imports_of_node hm hkind⟩)
  · cases hk

/-- A package that is imported is stored, and one that was there is not retired. -/
theorem stored_store (h : Packaged known s) (hheld : Held a.state s)
    (hid : (a.imports reader id || known id) = true) :
    ∃ n, (a.store reader s).nodes.get? id = some n ∧ n.resolved = true := by
  by_cases hwritten : ∃ m ∈ (a.batch reader).nodes, m.id = id
  · obtain ⟨n, hn, hr⟩ := Store.exists_mergeNodes_of_mem (P := fun n => n.resolved = true)
      (a.batch reader).nodes (m := (a.retired s).nodes) hwritten
      fun m _ _ old => Store.resolved_mergeNodeInto old m
    exact ⟨n, (Pass.get?_store_resolved hr).mpr hn, hr⟩
  · have hne : ∀ m ∈ (a.batch reader).nodes, m.id ≠ id := fun m hm he => hwritten ⟨m, hm, he⟩
    have hknown : known id = true := by
      refine ((Bool.or_eq_true _ _).mp hid).resolve_left fun himports => hwritten ?_
      obtain ⟨f, hf, himports⟩ := Pass.imports_iff.mp himports
      obtain ⟨m, hm, rfl⟩ := Build.exists_node_of_imports himports
      exact Build.exists_mem_distinctNodes (List.mem_flatMap.mpr ⟨f, hf, hm⟩)
    obtain ⟨n, hn, hr⟩ := h.stored hknown
    have hpath : n.node.filePath? = none := by
      rw [Node.filePath?, (hheld.package hn (h.tagged hknown)).2]
      rfl
    refine ⟨n, (Pass.get?_store_resolved hr).mpr ?_, hr⟩
    rw [Store.get?_mergeNodes_of_ne _ hne]
    refine (Pass.get?_retired_resolved hr).mpr ⟨hn, ?_⟩
    rw [hpath]
    rfl

theorem store (h : Packaged known s) (hheld : Held a.state s) :
    Packaged (fun id => a.imports reader id || known id) (a.store reader s) where
  tagged hid := by
    rcases (Bool.or_eq_true _ _).mp hid with hid | hid
    · obtain ⟨f, _, himports⟩ := Pass.imports_iff.mp hid
      exact Build.tagged_of_imports himports
    · exact h.tagged hid
  of_stored := h.of_stored_store
  stored := h.stored_store hheld

end Packaged

section Runs

variable {p : Project} {reader : Reader} {t : Turn} {ts : List Turn} {m : Memory} {w : World Memory}

/-- What a reset leaves. -/
theorem Turn.reset_ok (hact : t.act = .reset) (h : t.Leads p reader m w) :
    ∃ a, t.pass? p = some a ∧ a.state = .fresh ∧ w.backend.store = a.store reader .empty := by
  rw [Leads, hact] at h
  obtain ⟨r, h⟩ := h
  obtain ⟨hclear, h⟩ := Project.reset_ok h
  obtain ⟨a, ha, hstore, _⟩ := Project.syncNow_ok
    (w := ⟨p.cleared t.files, { m with store := .empty }⟩) (p.sound_cleared t.sound) t.signed h
  rw [pass?, hact]
  refine ⟨a, ha, ?_, hstore⟩
  rw [(Project.of_pass? ha).2.2.1, Project.state_cleared hclear]

theorem Run.held (h : Run p reader ts w) (hp : ∀ u ∈ ts, p.Plain (u.seen p)) :
    Held (p.state w.files) w.backend.store :=
  (Run.induction (P := fun _ _ _ => True) (fun _ => trivial) (fun _ _ _ _ => trivial)
    (fun _ _ => trivial) h hp).1

/-- After a run the packages of the graph are those that were imported since the last reset. -/
theorem Run.packaged (h : Run p reader ts w) (hp : ∀ u ∈ ts, p.Plain (u.seen p)) :
    Packaged (importedSince p reader ts) w.backend.store := by
  induction h with
  | start => exact .empty
  | @turn ts w w' t hrun hstate hleads ih =>
    have hp' : ∀ u ∈ ts, p.Plain (u.seen p) := fun u hu => hp u (List.mem_cons_of_mem _ hu)
    have hheld := hrun.held hp'
    cases hact : t.act with
    | sync force =>
      obtain ⟨a, ha, _, hfrom, _, hstore⟩ := Turn.sync_ok hact hleads
      have hsince : importedSince p reader (t :: ts) =
          fun id => a.imports reader id || importedSince p reader ts id := by
        funext id
        rw [importedSince, Turn.imports_eq ha, hact]
      rw [hsince, hstore]
      exact (ih hp').store (hfrom.trans hstate ▸ hheld)
    | clean =>
      have hnone : t.pass? p = none := by rw [Turn.pass?, hact]
      have hsince : importedSince p reader (t :: ts) = importedSince p reader ts := by
        funext id
        rw [importedSince, Turn.imports, hnone, hact]
        rfl
      rw [Turn.Leads, hact] at hleads
      obtain ⟨r, hclean⟩ := hleads
      rw [Project.clean_eq (w := ⟨t.files, w.backend⟩) hheld.orderly.proper_of_mem] at hclean
      cases hclean
      rw [hsince]
      exact ih hp'
    | reset =>
      obtain ⟨a, ha, hfresh, hstore⟩ := Turn.reset_ok hact hleads
      have hsince : importedSince p reader (t :: ts) = fun id => a.imports reader id || false := by
        funext id
        rw [importedSince, Turn.imports_eq ha, hact]
      rw [hsince, hstore]
      exact Packaged.empty.store (hfresh ▸ .fresh)

end Runs

/-! ### The dependencies of the graph -/

/-- The ids of the files of the tree tell them apart. -/
def Project.Apart (p : Project) (fs : FileSystem) : Prop := ((p.scan fs).keys.map Ident.file).Nodup

instance (p : Project) (fs : FileSystem) : Decidable (p.Apart fs) :=
  inferInstanceAs (Decidable (List.Nodup _))

/-- The files that are known have different ids, and the graph says of each what it imported when it was
last read. -/
structure Depended (p : Project) (reader : Reader) (ts : List Turn) (state : SyncState) (s : Store) :
    Prop where
  apart : (state.files.keys.map Ident.file).Nodup
  said : ∀ {q id}, state.files.contains q = true → importedLast p reader ts q id = true →
    s.Says (.dependsOn, Ident.file q, id)

namespace Depended

variable {p : Project} {reader : Reader} {t : Turn} {ts : List Turn} {a : Pass p} {s : Store}
  {state : SyncState}

theorem fresh (ts : List Turn) : Depended p reader ts .fresh .empty where
  apart := .nil
  said h := by cases h

theorem skip (h : Depended p reader ts state s) (ht : t.pass? p = none) :
    Depended p reader (t :: ts) state s where
  apart := h.apart
  said hq hlast := by
    rw [importedLast_of_none ht] at hlast
    exact h.said hq hlast

/-- Two files that are known and have one id are one. -/
theorem eq_of_file (h : Depended p reader ts state s) {q q' : String}
    (hq : state.files.contains q = true) (hq' : state.files.contains q' = true)
    (hid : Ident.file q = Ident.file q') : q = q' :=
  List.inj_on_of_nodup_map h.apart (SortedMap.mem_keys.mpr hq) (SortedMap.mem_keys.mpr hq') hid

section Store

variable (h : Depended p reader ts a.state s) (hcurrent : Current p reader ts s)
  (hheld : Held a.state s) (ha : t.pass? p = some a) (hp : p.Plain a.files)
  (hfree : CollisionFree p reader (t :: ts))
include h hcurrent hheld ha hp hfree

theorem said_store {q id : String} (hq : (a.next reader).files.contains q = true)
    (hlast : importedLast p reader (t :: ts) q id = true) :
    (a.store reader s).Says (.dependsOn, Ident.file q, id) := by
  rw [Pass.says_store_iff hcurrent hheld ha hp hfree]
  by_cases hx : q ∈ a.plan.changes.toExtract
  · -- the file is read now, and its dependencies are built
    refine .inr ⟨q, ?_⟩
    rw [importedLast, lastFacts_of_mem ha hx] at hlast
    obtain ⟨f, hf, himports⟩ := (Option.any_eq_true ..).mp hlast
    obtain rfl := Project.path_of_factsOf a.sound hp (Pass.contains_of_mem hx) hf
    obtain ⟨r, hr, htriple⟩ :=
      Build.exists_dependsOn_of_imports a.now (.ofMap (a.symbols reader)) himports
    refine List.mem_map.mpr ⟨r, ?_, htriple⟩
    rw [Pass.built_eq hp, if_pos hx, hf]
    exact List.mem_flatMap.mpr ⟨f, List.mem_cons_self, hr⟩
  · -- the file is unchanged, and what the graph has of it was stored for it and no other
    have hu := Pass.mem_unchanged_of_contains hq hx
    obtain ⟨_, print, hknown, _⟩ := a.follows.unchanged q hu
    have hknown : a.state.files.contains q = true := SortedMap.contains_of_get? hknown
    rw [importedLast_of_not_mem ha hx] at hlast
    obtain ⟨i, r, hr, htriple⟩ := Store.says_iff.mp (h.said hknown hlast)
    obtain ⟨q', hq', b, hb, _, hsame⟩ := hcurrent.said hr
    have hb' : b.triple = (.dependsOn, Ident.file q, id) := hsame.trans htriple
    simp only [Relationship.triple, Prod.mk.injEq] at hb'
    obtain ⟨hkind, hsource, _⟩ := hb'
    have hfile : Ident.file q = Ident.file q' := hsource.symm.trans (source_of_lastBuilt hb hkind)
    obtain rfl := h.eq_of_file hknown (hheld.filed hr hq') hfile
    exact .inl ⟨r, SortedMap.mem_values.mpr ⟨i, hr⟩, htriple, q, hu, hq'⟩

theorem store (hapart : p.Apart a.files) :
    Depended p reader (t :: ts) (a.next reader) (a.store reader s) where
  apart := by
    rw [Pass.next, a.follows.fingerprints]
    exact hapart
  said := h.said_store hcurrent hheld ha hp hfree

end Store

end Depended

section Runs

variable {p : Project} {reader : Reader} {t : Turn} {ts : List Turn} {w : World Memory}

/-- After a run the graph says of each file that is known what it imported when it was last read. -/
theorem Run.depended (h : Run p reader ts w) (hp : ∀ u ∈ ts, p.Plain (u.seen p))
    (hapart : ∀ u ∈ ts, p.Apart (u.seen p)) (hfree : CollisionFree p reader ts) :
    Depended p reader ts (p.state w.files) w.backend.store := by
  refine ((Run.induction (P := fun ts state s => (∀ u ∈ ts, p.Apart (u.seen p)) →
    CollisionFree p reader ts → Current p reader ts s ∧ Depended p reader ts state s)
    (fun ts _ _ => ⟨.empty ts, .fresh ts⟩) (fun {t ts a s} ha hp hheld ih hapart hfree => ?_)
    (fun {t ts state s} ht ih hapart hfree => ?_) h hp).2 hapart hfree).2
  · obtain ⟨hcurrent, hdepended⟩ :=
      ih (fun u hu => hapart u (List.mem_cons_of_mem _ hu)) hfree.of_cons
    have hfiles : p.Apart a.files := Turn.files_of_pass? ha ▸ hapart t List.mem_cons_self
    exact ⟨hcurrent.store hheld ha hp hfree, hdepended.store hcurrent hheld ha hp hfree hfiles⟩
  · obtain ⟨hcurrent, hdepended⟩ :=
      ih (fun u hu => hapart u (List.mem_cons_of_mem _ hu)) hfree.of_cons
    exact ⟨hcurrent.skip ht, hdepended.skip ht⟩

/-- A package that was imported since the last reset is in the graph. -/
theorem Run.exists_package (h : Run p reader ts w) (hp : ∀ u ∈ ts, p.Plain (u.seen p)) {id : String}
    (hsince : importedSince p reader ts id = true) :
    ∃ n, w.backend.store.nodes.get? id = some n ∧ n.node.kind = .module := by
  have hpackaged := h.packaged hp
  obtain ⟨n, hn, _⟩ := hpackaged.stored hsince
  exact ⟨n, hn, ((h.held hp).package hn (hpackaged.tagged hsince)).1⟩

/-- After a sync or a reset every package of the graph is the target of a dependency, exactly where each
package that was imported since the last reset was imported by a file of the scan when that was last
read. -/
theorem Run.depended_on_iff (h : Run p reader (t :: ts) w) (hact : t.act ≠ .clean)
    (hp : ∀ u ∈ t :: ts, p.Plain (u.seen p)) (hapart : ∀ u ∈ t :: ts, p.Apart (u.seen p))
    (hfree : CollisionFree p reader (t :: ts)) :
    (∀ id n, w.backend.store.nodes.get? id = some n → n.node.kind = .module →
      ∃ r ∈ w.backend.store.relationships.values, r.kind = .dependsOn ∧ r.target = id) ↔
    ∀ id, importedSince p reader (t :: ts) id = true →
      ∃ path, (p.scan (t.seen p)).contains path = true ∧
        importedLast p reader (t :: ts) path id = true := by
  have hpackaged := h.packaged hp
  have hdepended := h.depended hp hapart hfree
  obtain ⟨hheld, hcurrent⟩ := h.current hp hfree
  rw [← h.files_eq hact]
  constructor
  · intro hall id hsince
    obtain ⟨n, hn, hmodule⟩ := h.exists_package hp hsince
    obtain ⟨r, hr, hkind, rfl⟩ := hall id n hn hmodule
    obtain ⟨i, hi⟩ := SortedMap.mem_values.mp hr
    obtain ⟨q, hq, b, hb, _, hsame⟩ := hcurrent.said hi
    simp only [Relationship.triple, Prod.mk.injEq] at hsame
    refine ⟨q, hheld.filed hi hq, ?_⟩
    rw [← hsame.2.2]
    exact importedLast_of_lastBuilt hp hb (hsame.1.trans hkind)
      (hsame.2.2 ▸ hpackaged.tagged hsince)
  · intro hall id n hn hkind
    obtain ⟨path, hpath, hlast⟩ := hall id (hpackaged.of_stored hn hkind)
    obtain ⟨i, r, hr, htriple⟩ := Store.says_iff.mp (hdepended.said hpath hlast)
    simp only [Relationship.triple, Prod.mk.injEq] at htriple
    exact ⟨r, SortedMap.mem_values.mpr ⟨i, hr⟩, htriple.1, htriple.2.2⟩

end Runs

namespace Trial

/-- The sync of a source that imports a package. -/
def padded : Turn := sync (tree [(["p", "a.ts"], written importPad)]) (by decide +kernel) false

/-- The pass of the sync of the source. -/
def padding : Pass project := opening project padded

theorem run_padded : padded.pass? project = some padding ∧
    ∃ fs, project.state fs = padding.next reader ∧ Run project reader [padded]
      ⟨fs, { Memory.empty with store := padding.store reader .empty }⟩ :=
  run_opening rfl (by decide +kernel) (by decide +kernel)

/-- The id of the package. -/
def pad : String := Ident.package "left-pad"

theorem since_padded : importedSince project reader [padded] pad = true := by
  rw [importedSince, Turn.imports_eq run_padded.1]
  decide +kernel

theorem free_padded : CollisionFree project reader [padded] := by
  rw [CollisionFree, List.flatMap_cons, Turn.builds_eq run_padded.1]
  decide +kernel

/-- While the source is there, its package is the target of a dependency. -/
theorem depended_on_padded : ∃ w, (Run project reader [padded] w ∧ padded.act ≠ .clean ∧
      (∀ u ∈ [padded], project.Plain (u.seen project)) ∧
      (∀ u ∈ [padded], project.Apart (u.seen project)) ∧ CollisionFree project reader [padded]) ∧
    (∃ n, w.backend.store.nodes.get? pad = some n ∧ n.node.kind = .module) ∧
    ∀ id n, w.backend.store.nodes.get? id = some n → n.node.kind = .module →
      ∃ r ∈ w.backend.store.relationships.values, r.kind = .dependsOn ∧ r.target = id := by
  obtain ⟨hpass, fs, _, hrun⟩ := run_padded
  have hact : padded.act ≠ .clean := by simp [padded, sync]
  have hplain : ∀ u ∈ [padded], project.Plain (u.seen project) := by decide +kernel
  have hapart : ∀ u ∈ [padded], project.Apart (u.seen project) := by decide +kernel
  refine ⟨_, ⟨hrun, hact, hplain, hapart, free_padded⟩, hrun.exists_package hplain since_padded,
    (hrun.depended_on_iff hact hplain hapart free_padded).mpr fun id hsince => ?_⟩
  refine exists_importedLast hpass (hplain padded List.mem_cons_self) ?_
  rw [importedSince, Turn.imports_eq hpass, Bool.or_eq_true] at hsince
  exact hsince.resolve_right (by simp [padded, sync, importedSince])

/-- The sync of the tree when the source is gone. -/
def gone : Turn := sync (tree (saved (padding.next reader))) (by decide +kernel) false

theorem make_gone : SyncPlan.make project.sync (padding.next reader) (project.scan gone.files) 0
    false = some (.ofChanges (padding.next reader) (project.scan gone.files)) :=
  make_soon (by decide +kernel) rfl _

/-- The pass of the sync of the tree when the source is gone. -/
def leaving : Pass project := gone.passFrom make_gone

theorem state_gone : project.state gone.files = padding.next reader :=
  SyncState.load_of_read (padding.inRange_next reader) rfl rfl

theorem facts_leaving : leaving.facts reader = [] := by
  have hextract : leaving.plan.changes.toExtract = [] := by decide +kernel
  rw [Pass.facts, Project.files_extract, hextract]
  rfl

theorem leads_gone (m : Memory) : ∃ fs, project.state fs = leaving.next reader ∧
    gone.Leads project reader m ⟨fs, { m with store := leaving.store reader m.store }⟩ :=
  Turn.leads_sync rfl state_gone make_gone (by decide +kernel) m

end Trial

/-- A package can be left that nothing depends on: where the one source that imported it is gone, its
node is there without any relationship. -/
theorem Run.exists_orphaned_package : ∃ (p : Project) (reader : Reader) (ts : List Turn)
    (w : World Memory) (id : String) (n : StoredNode), Run p reader ts w ∧
      (∀ u ∈ ts, u.act = .sync false) ∧ (∀ u ∈ ts, p.Plain (u.seen p)) ∧
      (∀ u ∈ ts, p.Apart (u.seen p)) ∧ CollisionFree p reader ts ∧
      w.backend.store.nodes.get? id = some n ∧ n.node.kind = .module ∧
      w.backend.store.relationships.values = [] := by
  open Trial in
  obtain ⟨hpass, fs, hstate, hrun⟩ := run_padded
  have hpass' : gone.pass? project = some leaving := Turn.pass?_sync rfl state_gone make_gone
  obtain ⟨fs', _, hleads⟩ := leads_gone { Memory.empty with store := padding.store reader .empty }
  have hrun' := hrun.turn (state_gone.trans hstate.symm) hleads
  have hplain : ∀ u ∈ [gone, padded], project.Plain (u.seen project) := by decide +kernel
  have hsince : importedSince project reader [gone, padded] pad = true := by
    have hact : gone.act = .sync false := rfl
    rw [importedSince, hact]
    exact (Bool.or_eq_true _ _).mpr (.inr since_padded)
  obtain ⟨n, hn, hkind⟩ := hrun'.exists_package hplain hsince
  refine ⟨project, reader, [gone, padded], _, pad, n, hrun', by simp [gone, padded, sync], hplain,
    by decide +kernel, ?_, hn, hkind, ?_⟩
  · have hbuilds : gone.builds project reader = [] := by
      rw [Turn.builds_eq hpass', Pass.batch, facts_leaving]
      rfl
    rw [CollisionFree, List.flatMap_cons, hbuilds, List.nil_append]
    exact free_padded
  · -- no file is left, so there are packages only
    have hfiles := hrun'.files_eq (t := gone) (by simp [gone, sync])
    have hempty : (project.scan (gone.seen project)).isEmpty = true := by decide +kernel
    have hbare := (hrun'.held hplain).bare (hfiles ▸ hempty)
    refine List.eq_nil_iff_forall_not_mem.mpr fun r hr => ?_
    obtain ⟨i, hi⟩ := SortedMap.mem_values.mp hr
    rw [hbare.relationships i] at hi
    cases hi

end CodeAtlas
