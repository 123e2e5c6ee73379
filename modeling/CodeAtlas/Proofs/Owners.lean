/-
# The file that a declaration is kept for

Exported declarations of one package and name have one id, whatever files they are in, and one node. A
node carries the path of one file: of the files read in the last turn that read a file with such a
declaration, the first one (`lastOwner`). When that file is retired, the node is no longer resolved,
though other files may declare it still. So after a sync or a reset, what a file declares is resolved
exactly where the owner is there and declared it when it was last read (`Run.resolved_iff_owner`). With
one file for each declaration all of them are resolved; with two, deleting the owner leaves what the
other declares unresolved (`Run.exists_unresolved`).

Key definitions: `Store.isResolved`, `lastFacts`, `declaredLast`, `lastOwner`, `Owned`.
Key theorems: `Pass.exists_written`, `Pass.get?_store_of_not_declared`, `Owned.store`, `Run.owned`,
`Run.resolved_iff_owner`.
-/
import CodeAtlas.Proofs.LastExtraction

namespace CodeAtlas

/-- Whether there is a resolved node of the id. -/
def Store.isResolved (s : Store) (id : String) : Bool := (s.nodes.get? id).any (·.resolved)

theorem Store.isResolved_iff {s : Store} {id : String} :
    s.isResolved id = true ↔ ∃ n, s.nodes.get? id = some n ∧ n.resolved = true :=
  Option.any_eq_true ..

/-- What the operation knows of the file at a path, if it reads the file. -/
def Turn.read? (p : Project) (reader : Reader) (t : Turn) (path : String) :
    Option (Option FileFacts) :=
  (t.pass? p).bind fun a =>
    if path ∈ a.plan.changes.toExtract then some (p.factsOf reader a.files path) else none

/-- What was known of the file at a path when it was last read; nothing where that failed. -/
def lastFacts (p : Project) (reader : Reader) : List Turn → String → Option FileFacts
  | [], _ => none
  | t :: ts, path => (t.read? p reader path).getD (lastFacts p reader ts path)

/-- Whether the file at a path declared the id when it was last read. -/
def declaredLast (p : Project) (reader : Reader) (ts : List Turn) (path id : String) : Bool :=
  (lastFacts p reader ts path).any (Build.declares · id)

/-- The path of the first file that the operation reads and that declares the id. -/
def Turn.owner? (p : Project) (reader : Reader) (t : Turn) (id : String) : Option String :=
  (t.pass? p).bind fun a => ((a.facts reader).find? (Build.declares · id)).map (·.path)

/-- The path of the file that the node of the id was last written for. -/
def lastOwner (p : Project) (reader : Reader) : List Turn → String → Option String
  | [], _ => none
  | t :: ts, id => (t.owner? p reader id).or (lastOwner p reader ts id)

section History

variable {p : Project} {reader : Reader} {t : Turn} {ts : List Turn} {a : Pass p} {q id : String}

theorem lastFacts_of_mem (ha : t.pass? p = some a) (hq : q ∈ a.plan.changes.toExtract) :
    lastFacts p reader (t :: ts) q = p.factsOf reader a.files q := by
  rw [lastFacts, Turn.read?, ha, Option.bind_some, if_pos hq]
  rfl

theorem lastFacts_of_facts {f : FileFacts} (ha : t.pass? p = some a) (hp : p.Plain a.files)
    (hf : f ∈ a.facts reader) : lastFacts p reader (t :: ts) f.path = some f := by
  obtain ⟨hx, hfacts⟩ := Pass.path_of_mem hp hf
  rw [lastFacts_of_mem ha hx, hfacts]

theorem lastFacts_of_not_mem (ha : t.pass? p = some a) (hq : q ∉ a.plan.changes.toExtract) :
    lastFacts p reader (t :: ts) q = lastFacts p reader ts q := by
  rw [lastFacts, Turn.read?, ha, Option.bind_some, if_neg hq]
  rfl

theorem lastFacts_of_none (ht : t.pass? p = none) :
    lastFacts p reader (t :: ts) q = lastFacts p reader ts q := by
  rw [lastFacts, Turn.read?, ht]
  rfl

theorem declaredLast_of_mem {f : FileFacts} (ha : t.pass? p = some a) (hp : p.Plain a.files)
    (hf : f ∈ a.facts reader) :
    declaredLast p reader (t :: ts) f.path id = Build.declares f id := by
  rw [declaredLast, lastFacts_of_facts ha hp hf]
  rfl

theorem declaredLast_of_not_mem (ha : t.pass? p = some a) (hq : q ∉ a.plan.changes.toExtract) :
    declaredLast p reader (t :: ts) q id = declaredLast p reader ts q id := by
  rw [declaredLast, lastFacts_of_not_mem ha hq, declaredLast]

theorem declaredLast_of_none (ht : t.pass? p = none) :
    declaredLast p reader (t :: ts) q id = declaredLast p reader ts q id := by
  rw [declaredLast, lastFacts_of_none ht, declaredLast]

theorem lastOwner_of_find? {f : FileFacts} (ha : t.pass? p = some a)
    (hf : (a.facts reader).find? (Build.declares · id) = some f) :
    lastOwner p reader (t :: ts) id = some f.path := by
  rw [lastOwner, Turn.owner?, ha, Option.bind_some, hf]
  rfl

theorem lastOwner_of_find?_none (ha : t.pass? p = some a)
    (hf : (a.facts reader).find? (Build.declares · id) = none) :
    lastOwner p reader (t :: ts) id = lastOwner p reader ts id := by
  rw [lastOwner, Turn.owner?, ha, Option.bind_some, hf]
  rfl

theorem lastOwner_of_none (ht : t.pass? p = none) :
    lastOwner p reader (t :: ts) id = lastOwner p reader ts id := by
  rw [lastOwner, Turn.owner?, ht]
  rfl

/-- A file that declared the id when it was last read is not read where no file that declares it is. -/
theorem not_mem_of_find?_none (ha : t.pass? p = some a)
    (hf : (a.facts reader).find? (Build.declares · id) = none)
    (h : declaredLast p reader (t :: ts) q id = true) : q ∉ a.plan.changes.toExtract := by
  intro hq
  rw [declaredLast, lastFacts_of_mem ha hq] at h
  obtain ⟨f, hfacts, hdeclares⟩ := (Option.any_eq_true ..).mp h
  exact List.find?_eq_none.mp hf f (Pass.mem_facts.mpr ⟨q, hq, hfacts⟩) hdeclares

theorem isSymbol_of_declaredLast (h : declaredLast p reader ts q id = true) : Build.IsSymbol id := by
  obtain ⟨f, _, hdeclares⟩ := (Option.any_eq_true ..).mp h
  exact Build.isSymbol_of_declares hdeclares

theorem exists_of_declaredLast (h : declaredLast p reader ts q id = true) :
    ∃ f x, lastFacts p reader ts q = some f ∧ x ∈ (FileSymbols.ofFacts f).symbols ∧ x.id = id := by
  obtain ⟨f, hf, hdeclares⟩ := (Option.any_eq_true ..).mp h
  obtain ⟨x, hx, hid⟩ := List.any_eq_true.mp hdeclares
  exact ⟨f, x, hf, hx, beq_iff_eq.mp hid⟩

/-- What a file declared has an owner. -/
theorem exists_lastOwner : ∀ {ts : List Turn}, declaredLast p reader ts q id = true →
    ∃ o, lastOwner p reader ts id = some o
  | [], h => by cases h
  | t :: ts, h => by
    cases ha : t.pass? p with
    | none =>
      rw [declaredLast_of_none ha] at h
      rw [lastOwner_of_none ha]
      exact exists_lastOwner h
    | some a =>
      cases hf : (a.facts reader).find? (Build.declares · id) with
      | some f => exact ⟨f.path, lastOwner_of_find? ha hf⟩
      | none =>
        rw [declaredLast_of_not_mem ha (not_mem_of_find?_none ha hf h)] at h
        rw [lastOwner_of_find?_none ha hf]
        exact exists_lastOwner h

end History

/-! ### What one pass does to a declared node -/

namespace Pass

variable {p : Project} {reader : Reader} {a : Pass p} {s : Store} {id : String}

/-- What a file that is read declares is resolved, and carries the path of the first such file. -/
theorem exists_written {f : FileFacts}
    (hf : (a.facts reader).find? (Build.declares · id) = some f) :
    ∃ n, (a.store reader s).nodes.get? id = some n ∧ n.resolved = true ∧
      n.node.filePath? = some f.path := by
  have hdeclares : Build.declares f id = true := List.find?_some (p := (Build.declares · id)) hf
  obtain ⟨k, hk, htag⟩ := Build.isSymbol_of_declares hdeclares
  have hexists : ∃ n ∈ (a.batch reader).nodes, n.id = id := by
    obtain ⟨n, hn, hid⟩ := Build.exists_node_of_declares hdeclares
    obtain ⟨n', hn', hid'⟩ := Build.exists_mem_distinctNodes
      (List.mem_flatMap.mpr ⟨f, List.mem_of_find?_eq_some hf, hn⟩)
    exact ⟨n', hn', hid'.trans hid⟩
  obtain ⟨n, hn, hres, hpath⟩ := Store.exists_mergeNodes_of_mem
    (P := fun n => n.resolved = true ∧ n.node.filePath? = some f.path) (a.batch reader).nodes
    (m := (a.retired s).nodes) hexists fun n hn hid old => by
      subst hid
      obtain ⟨g, hg, hng⟩ := Build.find?_declares_of_mem hn ⟨k, hk, htag⟩
      obtain rfl : f = g := Option.some.inj (hf.symm.trans hg)
      have hof := Build.nodeOf_of_mem hng
      refine ⟨Store.resolved_mergeNodeInto old n, Store.filePath?_mergeNodeInto hof ?_ old⟩
      intro hm
      rw [← NodeKind.tagged_unique hof.tagged htag, hm] at hk
      cases hk
  exact ⟨n, (get?_store_resolved hres).mpr hn, hres, hpath⟩

/-- What no file that is read declares is resolved if it was, and its file is not retired. -/
theorem get?_store_of_not_declared (hid : Build.IsSymbol id)
    (hf : (a.facts reader).find? (Build.declares · id) = none) {n : StoredNode}
    (hr : n.resolved = true) : (a.store reader s).nodes.get? id = some n ↔
      s.nodes.get? id = some n ∧ Store.isOf a.plan.retire n.node.filePath? = false := by
  have hne : ∀ n ∈ (a.batch reader).nodes, n.id ≠ id := by
    rintro n hn rfl
    obtain ⟨g, hg, _⟩ := Build.find?_declares_of_mem hn hid
    rw [hf] at hg
    cases hg
  rw [get?_store_resolved hr, Store.get?_mergeNodes_of_ne _ hne]
  exact get?_retired_resolved hr

end Pass

/-! ### The invariant -/

/-- A resolved node of a declaration carries the path of its owner, which is there and declared it when
it was last read; and where there is such an owner, there is such a node. -/
structure Owned (p : Project) (reader : Reader) (ts : List Turn) (state : SyncState) (s : Store) :
    Prop where
  owner : ∀ {id n}, Build.IsSymbol id → s.nodes.get? id = some n → n.resolved = true →
    ∃ o, n.node.filePath? = some o ∧ lastOwner p reader ts id = some o ∧
      state.files.contains o = true ∧ declaredLast p reader ts o id = true
  kept : ∀ {id o}, lastOwner p reader ts id = some o → state.files.contains o = true →
    declaredLast p reader ts o id = true →
    ∃ n, s.nodes.get? id = some n ∧ n.resolved = true

namespace Owned

variable {p : Project} {reader : Reader} {t : Turn} {ts : List Turn} {a : Pass p} {s : Store}
  {state : SyncState}

theorem fresh (ts : List Turn) : Owned p reader ts .fresh .empty where
  owner _ h := by cases h
  kept _ h := by cases h

theorem skip (h : Owned p reader ts state s) (ht : t.pass? p = none) :
    Owned p reader (t :: ts) state s where
  owner hid hn hr := by
    simp only [lastOwner_of_none ht, declaredLast_of_none ht]
    exact h.owner hid hn hr
  kept ho hc hd := by
    rw [lastOwner_of_none ht] at ho
    rw [declaredLast_of_none ht] at hd
    exact h.kept ho hc hd

section Store

variable (h : Owned p reader ts a.state s) (ha : t.pass? p = some a) (hp : p.Plain a.files)
include h ha hp

theorem owner_store {id : String} {n : StoredNode} (hid : Build.IsSymbol id)
    (hn : (a.store reader s).nodes.get? id = some n) (hr : n.resolved = true) :
    ∃ o, n.node.filePath? = some o ∧ lastOwner p reader (t :: ts) id = some o ∧
      (a.next reader).files.contains o = true ∧ declaredLast p reader (t :: ts) o id = true := by
  cases hf : (a.facts reader).find? (Build.declares · id) with
  | some f =>
    have hmem := List.mem_of_find?_eq_some hf
    obtain ⟨m, hm, _, hpath⟩ := Pass.exists_written (s := s) hf
    obtain rfl : n = m := Option.some.inj (hn.symm.trans hm)
    refine ⟨f.path, hpath, lastOwner_of_find? ha hf, ?_, ?_⟩
    · exact Pass.contains_next_of_mem (Pass.path_of_mem hp hmem).1
    · rw [declaredLast_of_mem ha hp hmem]
      exact List.find?_some (p := (Build.declares · id)) hf
  | none =>
    -- it was there, and its owner is unchanged
    obtain ⟨hold, hof⟩ := (Pass.get?_store_of_not_declared hid hf hr).mp hn
    obtain ⟨o, hpath, ho, hc, hd⟩ := h.owner hid hold hr
    rw [hpath] at hof
    have hu := Pass.unchanged_of_kept hc hof
    have hx : o ∉ a.plan.changes.toExtract := fun hx => ((a.follows.extract o).mp hx).2 hu
    refine ⟨o, hpath, ?_, Pass.contains_of_unchanged hu, ?_⟩
    · rwa [lastOwner_of_find?_none ha hf]
    · rwa [declaredLast_of_not_mem ha hx]

omit hp in
theorem kept_store {id o : String} (ho : lastOwner p reader (t :: ts) id = some o)
    (hc : (a.next reader).files.contains o = true)
    (hd : declaredLast p reader (t :: ts) o id = true) :
    ∃ n, (a.store reader s).nodes.get? id = some n ∧ n.resolved = true := by
  cases hf : (a.facts reader).find? (Build.declares · id) with
  | some f =>
    obtain ⟨n, hn, hr, _⟩ := Pass.exists_written (s := s) hf
    exact ⟨n, hn, hr⟩
  | none =>
    -- the owner was not read, for it would declare the id; so it is unchanged
    have hx := not_mem_of_find?_none ha hf hd
    have hu := Pass.mem_unchanged_of_contains hc hx
    obtain ⟨_, print, hknown, _⟩ := a.follows.unchanged o hu
    rw [lastOwner_of_find?_none ha hf] at ho
    rw [declaredLast_of_not_mem ha hx] at hd
    obtain ⟨n, hn, hr⟩ := h.kept ho (SortedMap.contains_of_get? hknown) hd
    have hid := isSymbol_of_declaredLast hd
    refine ⟨n, (Pass.get?_store_of_not_declared hid hf hr).mpr ⟨hn, ?_⟩, hr⟩
    obtain ⟨o', hpath, ho', _⟩ := h.owner hid hn hr
    obtain rfl : o = o' := Option.some.inj (ho.symm.trans ho')
    rw [hpath, Bool.eq_false_iff]
    intro hof
    obtain ⟨q, hq, hretire⟩ := Store.isOf_iff.mp hof
    cases hq
    exact ((a.follows.retire o).mp hretire).2 hu

theorem store : Owned p reader (t :: ts) (a.next reader) (a.store reader s) where
  owner := h.owner_store ha hp
  kept := h.kept_store ha

end Store

end Owned

/-! ### Runs -/

section Runs

variable {p : Project} {reader : Reader} {t : Turn} {ts : List Turn} {w : World Memory}

theorem Run.owned (h : Run p reader ts w) (hp : ∀ u ∈ ts, p.Plain (u.seen p)) :
    Owned p reader ts (p.state w.files) w.backend.store :=
  (Run.induction (P := Owned p reader) Owned.fresh (fun ha hp _ ih => ih.store ha hp)
    (fun ht ih => ih.skip ht) h hp).2

/-- After a sync or a reset, what a file declared when it was last read has an owner, and it is resolved
exactly where the owner is of the scan and declared it too when it was last read. -/
theorem Run.resolved_iff_owner (h : Run p reader (t :: ts) w) (hact : t.act ≠ .clean)
    (hp : ∀ u ∈ t :: ts, p.Plain (u.seen p)) {path : String} {f : FileFacts}
    (hf : lastFacts p reader (t :: ts) path = some f) {x : Symbol}
    (hx : x ∈ (FileSymbols.ofFacts f).symbols) :
    ∃ o, lastOwner p reader (t :: ts) x.id = some o ∧
      (w.backend.store.isResolved x.id = true ↔ (p.scan (t.seen p)).contains o = true ∧
        declaredLast p reader (t :: ts) o x.id = true) := by
  have hlast : declaredLast p reader (t :: ts) path x.id = true := by
    rw [declaredLast, hf]
    exact List.any_eq_true.mpr ⟨x, hx, by simp⟩
  obtain ⟨o, ho⟩ := exists_lastOwner hlast
  have howned := h.owned hp
  rw [← h.files_eq hact]
  refine ⟨o, ho, ?_⟩
  rw [Store.isResolved_iff]
  constructor
  · rintro ⟨n, hn, hr⟩
    obtain ⟨o', _, ho', hc, hd⟩ := howned.owner (isSymbol_of_declaredLast hlast) hn hr
    obtain rfl : o = o' := Option.some.inj (ho.symm.trans ho')
    exact ⟨hc, hd⟩
  · rintro ⟨hc, hd⟩
    exact howned.kept ho hc hd

end Runs

namespace Trial

/-- The sync of two sources, both of which export `f`. -/
def twins : Turn :=
  sync (tree [(["p", "a.ts"], written exportFunction), (["p", "b.ts"], written exportFunction)])
    (by decide +kernel) false

/-- The pass of the sync of the two sources. -/
def paired : Pass project := opening project twins

theorem run_twins : twins.pass? project = some paired ∧
    ∃ fs, project.state fs = paired.next reader ∧ Run project reader [twins]
      ⟨fs, { Memory.empty with store := paired.store reader .empty }⟩ :=
  run_opening rfl (by decide +kernel) (by decide +kernel)

/-- The id of `f`. -/
def shared : String := Ident.node .function "p" "f" none

theorem extract_paired : paired.plan.changes.toExtract = ["a.ts", "b.ts"] := by decide +kernel

/-- Of the two sources the first is the owner of `f`. -/
theorem owner_paired :
    ((paired.facts reader).find? (Build.declares · shared)).map (·.path) = some "a.ts" := by
  rw [Pass.facts, Project.files_extract, extract_paired]
  decide +kernel

theorem owner_twins : lastOwner project reader [twins] shared = some "a.ts" := by
  obtain ⟨f, hf, hpath⟩ := Option.map_eq_some_iff.mp owner_paired
  rw [lastOwner_of_find? run_twins.1 hf, hpath]

/-- The second source declares it too. -/
theorem declared_twins : declaredLast project reader [twins] "b.ts" shared = true := by
  rw [declaredLast, lastFacts_of_mem run_twins.1 (by simp [extract_paired])]
  decide +kernel

theorem plain_twins : ∀ u ∈ [twins], project.Plain (u.seen project) := by decide +kernel

/-- What the second source declares is resolved while the first is there. -/
theorem resolved_twins : ∃ w f x, (Run project reader [twins] w ∧ twins.act ≠ .clean ∧
      (∀ u ∈ [twins], project.Plain (u.seen project)) ∧
      lastFacts project reader [twins] "b.ts" = some f ∧ x ∈ (FileSymbols.ofFacts f).symbols) ∧
    w.backend.store.isResolved x.id = true ∧
    ∃ o, lastOwner project reader [twins] x.id = some o ∧
      (w.backend.store.isResolved x.id = true ↔
        (project.scan (twins.seen project)).contains o = true ∧
          declaredLast project reader [twins] o x.id = true) := by
  obtain ⟨_, fs, _, hrun⟩ := run_twins
  obtain ⟨f, x, hf, hx, hid⟩ := exists_of_declaredLast declared_twins
  have hact : twins.act ≠ .clean := by simp [twins, sync]
  refine ⟨_, f, x, ⟨hrun, hact, plain_twins, hf, hx⟩, ?_,
    hrun.resolved_iff_owner hact plain_twins hf hx⟩
  obtain ⟨g, hg, _⟩ := Option.map_eq_some_iff.mp owner_paired
  obtain ⟨n, hn, hr, _⟩ := Pass.exists_written (s := .empty) hg
  rw [hid]
  exact Store.isResolved_iff.mpr ⟨n, hn, hr⟩

/-- The sync of the second source when the first is gone. -/
def bereft : Turn :=
  sync (tree ((["p", "b.ts"], written exportFunction) :: saved (paired.next reader)))
    (by decide +kernel) false

theorem make_bereft : SyncPlan.make project.sync (paired.next reader) (project.scan bereft.files) 0
    false = some (.ofChanges (paired.next reader) (project.scan bereft.files)) :=
  make_soon (by decide +kernel) rfl _

/-- The pass of the sync of the second source. -/
def parted : Pass project := bereft.passFrom make_bereft

theorem state_bereft : project.state bereft.files = paired.next reader :=
  SyncState.load_of_read (paired.inRange_next reader) rfl rfl

theorem leads_bereft (m : Memory) : ∃ fs, project.state fs = parted.next reader ∧
    bereft.Leads project reader m ⟨fs, { m with store := parted.store reader m.store }⟩ :=
  Turn.leads_sync rfl state_bereft make_bereft (by decide +kernel) m

theorem run_bereft : bereft.pass? project = some parted ∧
    ∃ w, Run project reader [bereft, twins] w := by
  obtain ⟨_, fs, hstate, hrun⟩ := run_twins
  obtain ⟨fs', _, hleads⟩ := leads_bereft
    { Memory.empty with store := paired.store reader .empty }
  exact ⟨Turn.pass?_sync rfl state_bereft make_bereft, _,
    hrun.turn (state_bereft.trans hstate.symm) hleads⟩

/-- The second source is unchanged, so nothing is read. -/
theorem extract_parted : parted.plan.changes.toExtract = [] := by decide +kernel

end Trial

/-- A file can declare what is not resolved: where the owner is gone, the declaration of another file
is not. -/
theorem Run.exists_unresolved : ∃ (p : Project) (reader : Reader) (t : Turn) (ts : List Turn)
    (w : World Memory) (path : String) (f : FileFacts) (x : Symbol), Run p reader (t :: ts) w ∧
      t.act ≠ .clean ∧ (∀ u ∈ t :: ts, p.Plain (u.seen p)) ∧
      (p.scan (t.seen p)).contains path = true ∧ lastFacts p reader (t :: ts) path = some f ∧
      x ∈ (FileSymbols.ofFacts f).symbols ∧ w.backend.store.isResolved x.id = false := by
  open Trial in
  obtain ⟨hpass, w, hrun⟩ := run_bereft
  have hplain : ∀ u ∈ [bereft, twins], project.Plain (u.seen project) := by decide +kernel
  have hact : bereft.act ≠ .clean := by simp [bereft, sync]
  have hread : ∀ q, q ∉ parted.plan.changes.toExtract := by simp [extract_parted]
  have hdeclared : declaredLast project reader [bereft, twins] "b.ts" shared = true := by
    rw [declaredLast_of_not_mem hpass (hread _), declared_twins]
  have howner : lastOwner project reader [bereft, twins] shared = some "a.ts" := by
    have hnone : (parted.facts reader).find? (Build.declares · shared) = none := by
      rw [Pass.facts, Project.files_extract, extract_parted]
      rfl
    rw [lastOwner_of_find?_none hpass hnone, owner_twins]
  obtain ⟨f, x, hf, hx, hid⟩ := exists_of_declaredLast hdeclared
  refine ⟨project, reader, bereft, [twins], w, "b.ts", f, x, hrun, hact, hplain,
    by decide +kernel, hf, hx, ?_⟩
  rw [Bool.eq_false_iff]
  intro hres
  obtain ⟨n, hn, hr⟩ := Store.isResolved_iff.mp (hid ▸ hres)
  -- a resolved node would have an owner that is still there
  obtain ⟨o, _, ho, hc, _⟩ :=
    (hrun.owned hplain).owner (isSymbol_of_declaredLast hdeclared) hn hr
  obtain rfl : "a.ts" = o := Option.some.inj (howner.symm.trans ho)
  rw [hrun.files_eq hact] at hc
  have hgone : (project.scan (bereft.seen project)).contains "a.ts" = false := by decide +kernel
  rw [hgone] at hc
  cases hc

end CodeAtlas
