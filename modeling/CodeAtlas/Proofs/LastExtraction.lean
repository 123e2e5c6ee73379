/-
# Every edge is of the last extraction

After a sync or a reset each relationship of the graph comes from a file that is there, and says what
was built for that file when it was last read; each unresolved node is an end of one
(`Run.stored_from_last_extraction`). This takes that relationships of one id say the same: one that is
written over another keeps what that one said. It also takes trees without backslashes, for a file
whose name has one is known by one path and may be read from another, under which nothing retires what
it declared (`Run.exists_stale_edge`).

Key definitions: `Turn.built?`, `lastBuilt`, `Turn.builds`, `CollisionFree`, `Current`.
Key theorems: `Current.triple_of_imported`, `Current.store`, `Run.current`,
`Run.stored_from_last_extraction`.
-/
import CodeAtlas.Proofs.Runs

namespace CodeAtlas

/-- What the operation builds for a path, if it reads the file. -/
def Turn.built? (p : Project) (reader : Reader) (t : Turn) (path : String) :
    Option (List Relationship) :=
  (t.pass? p).bind fun a =>
    if path ∈ a.plan.changes.toExtract then some (a.built reader path) else none

/-- What was built for a path when its file was last read. -/
def lastBuilt (p : Project) (reader : Reader) : List Turn → String → List Relationship
  | [], _ => []
  | t :: ts, path => (t.built? p reader path).getD (lastBuilt p reader ts path)

/-- The relationships that the operation builds. -/
def Turn.builds (p : Project) (reader : Reader) (t : Turn) : List Relationship :=
  (t.pass? p).toList.flatMap fun a => (a.batch reader).relationships

/-- Of the relationships built in the turns those of one id say the same. -/
def CollisionFree (p : Project) (reader : Reader) (ts : List Turn) : Prop :=
  ∀ r ∈ ts.flatMap (·.builds p reader), ∀ r' ∈ ts.flatMap (·.builds p reader),
    r.id = r'.id → r.triple = r'.triple

instance (p : Project) (reader : Reader) (ts : List Turn) : Decidable (CollisionFree p reader ts) :=
  inferInstanceAs (Decidable (∀ r ∈ ts.flatMap (·.builds p reader),
    ∀ r' ∈ ts.flatMap (·.builds p reader), r.id = r'.id → r.triple = r'.triple))

theorem Turn.builds_eq {p : Project} {t : Turn} {a : Pass p} (ha : t.pass? p = some a)
    (reader : Reader) : t.builds p reader = (a.batch reader).relationships := by
  rw [builds, ha]
  exact List.flatMap_singleton ..

theorem collisionFree_of_length {p : Project} {reader : Reader} {ts : List Turn}
    (h : (ts.flatMap (·.builds p reader)).length ≤ 1) : CollisionFree p reader ts := by
  unfold CollisionFree
  generalize ts.flatMap (·.builds p reader) = l at h
  match l, h with
  | [], _ => simp
  | [r], _ => simp

section History

variable {p : Project} {reader : Reader} {t : Turn} {ts : List Turn} {r : Relationship} {q : String}

theorem CollisionFree.of_cons (h : CollisionFree p reader (t :: ts)) : CollisionFree p reader ts := by
  intro r hr r' hr'
  rw [CollisionFree, List.flatMap_cons] at h
  exact h r (List.mem_append_right _ hr) r' (List.mem_append_right _ hr')

theorem mem_builds_cons (h : r ∈ ts.flatMap (·.builds p reader)) :
    r ∈ (t :: ts).flatMap (·.builds p reader) := by
  rw [List.flatMap_cons]
  exact List.mem_append_right _ h

theorem mem_builds_of_pass {a : Pass p} (ha : t.pass? p = some a)
    (h : r ∈ (a.batch reader).relationships) : r ∈ (t :: ts).flatMap (·.builds p reader) := by
  rw [List.flatMap_cons, Turn.builds_eq ha]
  exact List.mem_append_left _ h

theorem mem_builds_of_lastBuilt : ∀ {ts : List Turn}, r ∈ lastBuilt p reader ts q →
    r ∈ ts.flatMap (·.builds p reader)
  | [], h => by cases h
  | t :: ts, h => by
    rw [lastBuilt, Turn.built?] at h
    cases ha : t.pass? p with
    | none =>
      rw [ha] at h
      exact mem_builds_cons (mem_builds_of_lastBuilt h)
    | some a =>
      rw [ha, Option.bind_some] at h
      split at h
      · exact mem_builds_of_pass ha (Pass.mem_batch.mpr ⟨q, h⟩)
      · exact mem_builds_cons (mem_builds_of_lastBuilt h)

variable {a : Pass p}

theorem lastBuilt_of_mem (ha : t.pass? p = some a) (hq : q ∈ a.plan.changes.toExtract) :
    lastBuilt p reader (t :: ts) q = a.built reader q := by
  rw [lastBuilt, Turn.built?, ha, Option.bind_some, if_pos hq]
  rfl

theorem lastBuilt_of_not_mem (ha : t.pass? p = some a) (hq : q ∉ a.plan.changes.toExtract) :
    lastBuilt p reader (t :: ts) q = lastBuilt p reader ts q := by
  rw [lastBuilt, Turn.built?, ha, Option.bind_some, if_neg hq]
  rfl

theorem lastBuilt_of_none (ht : t.pass? p = none) :
    lastBuilt p reader (t :: ts) q = lastBuilt p reader ts q := by
  rw [lastBuilt, Turn.built?, ht]
  rfl

end History

/-! ### The invariant -/

/-- What is stored was built for its file when that was last read, and unresolved nodes are ends. -/
structure Current (p : Project) (reader : Reader) (ts : List Turn) (s : Store) : Prop where
  said : ∀ {i r}, s.relationships.get? i = some r → ∃ q, r.filePath? = some q ∧
    ∃ b ∈ lastBuilt p reader ts q, b.Proper ∧ b.triple = r.triple
  ends : ∀ {i n}, s.nodes.get? i = some n → n.resolved = false →
    ∃ j r, s.relationships.get? j = some r ∧ Store.EndOf i r

namespace Current

variable {p : Project} {reader : Reader} {t : Turn} {ts : List Turn} {a : Pass p} {s : Store}
  {i : String} {r : Relationship}

theorem empty (ts : List Turn) : Current p reader ts .empty where
  said h := by cases h
  ends h := by cases h

theorem skip (h : Current p reader ts s) (ht : t.pass? p = none) : Current p reader (t :: ts) s where
  said hr := by
    obtain ⟨q, hq, b, hb, rest⟩ := h.said hr
    exact ⟨q, hq, b, by rwa [lastBuilt_of_none ht], rest⟩
  ends := h.ends

/-- What is stored says what something of its id says that was built. -/
theorem exists_built (h : Current p reader ts s) (hheld : Held a.state s)
    (hr : s.relationships.get? i = some r) :
    ∃ b ∈ ts.flatMap (·.builds p reader), b.id = i ∧ b.triple = r.triple := by
  obtain ⟨q, _, b, hb, hproper, htriple⟩ := h.said hr
  refine ⟨b, mem_builds_of_lastBuilt hb, ?_, htriple⟩
  rw [Reduction.id_eq_of_triple hproper (hheld.proper hr) htriple, hheld.keyed hr]

/-- Unresolved nodes are ends also when files were retired. -/
theorem ends_retired (h : Current p reader ts s) {n : StoredNode}
    (hn : (a.retired s).nodes.get? i = some n) (hr : n.resolved = false) :
    ∃ j r, (a.retired s).relationships.get? j = some r ∧ Store.EndOf i r := by
  unfold Pass.retired at hn ⊢
  split at hn
  · rename_i he
    rw [if_pos he]
    exact h.ends hn hr
  · rename_i he
    rw [if_neg he]
    refine (Store.get?_retire_nodes hn).2.resolve_left ?_
    rw [hr]
    simp

section Step

variable (h : Current p reader ts s) (hheld : Held a.state s) (ha : t.pass? p = some a)
  (hp : p.Plain a.files) (hfree : CollisionFree p reader (t :: ts))
include h hheld ha hp hfree

/-- What is stored at the id of a relationship that was imported says what that one says. -/
theorem triple_of_imported {c : Relationship} (hc : c ∈ a.imported reader)
    (hr : (a.store reader s).relationships.get? c.id = some r) : r.triple = c.triple := by
  have hbuilt : ∀ {b}, b ∈ a.imported reader → b ∈ (t :: ts).flatMap (·.builds p reader) :=
    fun hb => mem_builds_of_pass ha (Reduction.mem_of_mem hb)
  rcases Pass.stored_cases hheld.keyed hr with ⟨_, _, hnone⟩ | ⟨_, _, _, _, o, ho, hsame⟩
  · exact absurd rfl (hnone c hc)
  · rw [hsame.triple]
    rcases ho with ho | ho
    · obtain ⟨b, hb, hbid, hbt⟩ := h.exists_built hheld ho
      rw [← hbt]
      exact hfree b (mem_builds_cons hb) c (hbuilt hc) hbid
    · have hid : o.id = c.id := hsame.id ▸ (hheld.store hp).keyed hr
      exact hfree o (hbuilt ho) c (hbuilt hc) hid

theorem said_store (hr : (a.store reader s).relationships.get? i = some r) :
    ∃ q, r.filePath? = some q ∧
      ∃ b ∈ lastBuilt p reader (t :: ts) q, b.Proper ∧ b.triple = r.triple := by
  rcases Pass.stored_cases hheld.keyed hr with ⟨hold, hof, _⟩ | ⟨c, hc, rfl, hover, _⟩
  · -- it was kept, so its file is unchanged and was not read now
    obtain ⟨q, hq, b, hb, rest⟩ := h.said hold
    rw [hq] at hof
    have hu := Pass.unchanged_of_kept (hheld.filed hold hq) hof
    have hx : q ∉ a.plan.changes.toExtract := fun hx => ((a.follows.extract q).mp hx).2 hu
    exact ⟨q, hq, b, by rwa [lastBuilt_of_not_mem ha hx], rest⟩
  · obtain ⟨q, hb⟩ := Pass.built_of_imported hc
    refine ⟨q, Relationship.filePath?_of (hover (Pass.filePath_of_built hheld.symbols hb)), c, ?_,
      Pass.proper_of_built hheld.symbols hb, (h.triple_of_imported hheld ha hp hfree hc hr).symm⟩
    rwa [lastBuilt_of_mem ha (Pass.mem_toExtract_of_built hp hb)]

theorem ends_store {n : StoredNode} (hn : (a.store reader s).nodes.get? i = some n)
    (hr : n.resolved = false) :
    ∃ j r, (a.store reader s).relationships.get? j = some r ∧ Store.EndOf i r := by
  rw [Pass.nodes_store] at hn
  rcases Store.of_get?_addAllEnds hn with hn | ⟨_, _, c, hc, hend⟩
  · -- an import resolves what it writes, so the node was there after retiring
    obtain ⟨j, r, hj, hend⟩ := Store.mergeNodes_induction
      (P := fun n => n.resolved = false →
        ∃ j r, (a.retired s).relationships.get? j = some r ∧ Store.EndOf i r)
      (a.batch reader).nodes (fun _ hm hr => h.ends_retired hm hr)
      (fun _ _ _ old _ hr => by cases old <;> cases hr) n hn hr
    obtain ⟨r', hr', ht⟩ := Store.triple_of_old (a.imported reader) hj
    rw [← Pass.relationships_store] at hr'
    exact ⟨j, r', hr', hend.of_triple ht⟩
  · obtain ⟨r, hr⟩ := Store.exists_of_mem (a.imported reader) (m := (a.retired s).relationships) hc
    rw [← Pass.relationships_store] at hr
    exact ⟨c.id, r, hr, hend.of_triple (h.triple_of_imported hheld ha hp hfree hc hr)⟩

theorem store : Current p reader (t :: ts) (a.store reader s) where
  said := h.said_store hheld ha hp hfree
  ends := h.ends_store hheld ha hp hfree

end Step

end Current

/-! ### Runs -/

section Runs

variable {p : Project} {reader : Reader} {t : Turn} {ts : List Turn} {w : World Memory}

theorem Run.current (h : Run p reader ts w) (hp : ∀ u ∈ ts, p.Plain (u.seen p))
    (hfree : CollisionFree p reader ts) :
    Held (p.state w.files) w.backend.store ∧ Current p reader ts w.backend.store := by
  obtain ⟨hheld, hcurrent⟩ := Run.induction
    (P := fun ts _ s => CollisionFree p reader ts → Current p reader ts s)
    (fun ts _ => .empty ts)
    (fun ha hp hheld ih hfree => (ih hfree.of_cons).store hheld ha hp hfree)
    (fun ht ih hfree => (ih hfree.of_cons).skip ht) h hp
  exact ⟨hheld, hcurrent hfree⟩

/-- The files of the state after a sync or a reset are those it scanned. -/
theorem Run.files_eq (h : Run p reader (t :: ts) w) (hact : t.act ≠ .clean) :
    (p.state w.files).files = p.scan (t.seen p) := by
  cases h with
  | turn _ _ hleads =>
    rcases Turn.leads_cases hleads with ⟨a, s, ha, _, _, hnext⟩ | ⟨hclean, _⟩
    · rw [hnext, Pass.next, a.follows.fingerprints, Turn.files_of_pass? ha]
    · exact absurd hclean hact

/-- After a sync or a reset each relationship comes from a file of the scan and says what was built for
the file when it was last read, and each unresolved node is an end of a relationship. -/
theorem Run.stored_from_last_extraction (h : Run p reader (t :: ts) w) (hact : t.act ≠ .clean)
    (hp : ∀ u ∈ t :: ts, p.Plain (u.seen p)) (hfree : CollisionFree p reader (t :: ts)) :
    (∀ r ∈ w.backend.store.relationships.values, ∃ path, r.filePath? = some path ∧
      (p.scan (t.seen p)).contains path = true ∧
      r.triple ∈ (lastBuilt p reader (t :: ts) path).map (·.triple)) ∧
    ∀ id n, w.backend.store.nodes.get? id = some n → n.resolved = false →
      ∃ r ∈ w.backend.store.relationships.values, r.source = id ∨ r.target = id := by
  obtain ⟨hheld, hcurrent⟩ := h.current hp hfree
  refine ⟨fun r hr => ?_, fun id n hn hres => ?_⟩
  · obtain ⟨i, hi⟩ := SortedMap.mem_values.mp hr
    obtain ⟨q, hq, b, hb, _, htriple⟩ := hcurrent.said hi
    refine ⟨q, hq, ?_, List.mem_map.mpr ⟨b, hb, htriple⟩⟩
    rw [← h.files_eq hact]
    exact hheld.filed hi hq
  · obtain ⟨j, r, hj, hend⟩ := hcurrent.ends hn hres
    exact ⟨r, SortedMap.mem_values.mpr ⟨j, hj⟩, hend⟩

end Runs

namespace Trial

/-- The relationship of each source has an id of its own. -/
theorem free_second : CollisionFree project reader [second, first] := by
  rw [CollisionFree, List.flatMap_cons, List.flatMap_cons, Turn.builds_eq pass?_second,
    Turn.builds_eq run_first.1]
  decide +kernel

/-- After a second source is added, the relationship of the first is still there and of its last
extraction. -/
theorem stored_second : ∃ w, (Run project reader [second, first] w ∧ second.act ≠ .clean ∧
      (∀ u ∈ [second, first], project.Plain (u.seen project)) ∧
      CollisionFree project reader [second, first]) ∧
    w.backend.store.relationships.values ≠ [] ∧
    (∀ r ∈ w.backend.store.relationships.values, ∃ path, r.filePath? = some path ∧
      (project.scan (second.seen project)).contains path = true ∧
      r.triple ∈ (lastBuilt project reader [second, first] path).map (·.triple)) ∧
    ∀ id n, w.backend.store.nodes.get? id = some n → n.resolved = false →
      ∃ r ∈ w.backend.store.relationships.values, r.source = id ∨ r.target = id := by
  obtain ⟨_, fs, hstate, hrun⟩ := run_first
  obtain ⟨fs', _, hleads⟩ := leads_second { Memory.empty with store := before.store reader .empty }
  have hrun' := hrun.turn (state_second.trans hstate.symm) hleads
  refine ⟨_, ⟨hrun', by simp [second, sync], plain_second, free_second⟩, ?_,
    hrun'.stored_from_last_extraction (by simp [second, sync]) plain_second free_second⟩
  show (after.store reader (before.store reader .empty)).relationships.values ≠ []
  decide +kernel

/-- The sync of the tree without the source that misleads. -/
def retry : Turn := sync (tree (hidden ++ saved (misread.next reader))) (by decide +kernel) false

/-- The pass of the sync of the tree without the source that misleads. -/
def missed : Pass project := retry.passFrom (make_misread retry.files)

theorem state_retry : project.state retry.files = misread.next reader :=
  SyncState.load_of_read (misread.inRange_next reader) rfl rfl

end Trial

/-- With a backslash in a name, a relationship outlives its file. -/
theorem Run.exists_stale_edge : ∃ (p : Project) (reader : Reader) (t : Turn) (ts : List Turn)
    (w : World Memory), Run p reader (t :: ts) w ∧ t.act ≠ .clean ∧
      CollisionFree p reader (t :: ts) ∧
      ∃ r ∈ w.backend.store.relationships.values, ∀ path, r.filePath? = some path →
        (p.scan (t.seen p)).contains path = false := by
  open Trial in
  obtain ⟨hpass, fs, hstate, hrun⟩ := run_misled
  have hpass' : retry.pass? project = some missed := Turn.pass?_sync rfl state_retry _
  have hsave : ((missed.next reader).save retry.files project.statePath 0).2.toOption = some () := by
    decide +kernel
  obtain ⟨fs', _, hleads⟩ := Turn.leads_sync (t := retry) rfl state_retry
    (make_misread retry.files) hsave { Memory.empty with store := misread.store reader .empty }
  refine ⟨project, reader, retry, [misled], _, hrun.turn (state_retry.trans hstate.symm) hleads,
    by simp [retry, sync], ?_, ?_⟩
  · refine collisionFree_of_length ?_
    rw [List.flatMap_cons, List.flatMap_cons, Turn.builds_eq hpass', Turn.builds_eq hpass]
    show (((missed.batch reader).relationships ++ ((misread.batch reader).relationships ++ [])).length
      ≤ 1)
    decide +kernel
  · have hstale : ∃ r ∈ (missed.store reader (misread.store reader .empty)).relationships.values,
        r.filePath? = some "node_modules/x.ts" := by decide +kernel
    obtain ⟨r, hr, hpath⟩ := hstale
    refine ⟨r, hr, fun path hq => ?_⟩
    obtain rfl : path = "node_modules/x.ts" := Option.some.inj (hq.symm.trans hpath)
    show (project.scan retry.files).contains "node_modules/x.ts" = false
    decide +kernel

end CodeAtlas
