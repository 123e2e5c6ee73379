/-
# A sync that could not save its state is repeated safely

A sync on a graph in memory that fails has retired and imported what it would, and only the state was
not saved. Repeated on the same sources, it retires the same files and imports the same relationships
once more, and leaves the relationships that it would have left at once (`Run.retry_eq_once`).

Importing merges, so this is not for nothing: a property that only the old relationship had would stay
after one import, and be gone where the relationship was retired between two. But all that is stored has
the properties of an edge (`Drawn`), and what has one id says the same; so an import overwrites what it
finds (`Store.mergeRelationships_eq_writes`), and importing twice is importing once
(`Store.mergeRelationships_again`).

Key definitions: `Relationship.Uniform`, `Store.Overwrites`, `Drawn`, `Pass.Alike`, `Turn.Repeats`.
Key theorems: `Store.mergeRelationships_again`, `Drawn.store`, `Pass.store_again`, `Run.retry_eq_once`.
-/
import CodeAtlas.Proofs.Rebuild
import CodeAtlas.Proofs.Saving

namespace CodeAtlas

/-! ### Relationships of one form -/

/-- The properties of an edge. -/
def Build.edgeKeys : List String := ["confidence", "created_at", "description", "file_path", "line"]

/-- The relationship has the properties of an edge and no others, and no further data. -/
structure Relationship.Uniform (r : Relationship) : Prop where
  keys : ∀ key, r.properties.contains key = true ↔ key ∈ Build.edgeKeys
  metadata : r.metadata = .empty

theorem Build.EdgeOf.uniform {createdAt : Int} {file : FileFacts} {r : Relationship}
    (h : EdgeOf createdAt file r) : r.Uniform := by
  obtain ⟨kind, source, target, confidence, description, line, rfl, _⟩ := h
  refine ⟨fun key => ?_, rfl⟩
  have hnone : ¬ SortedMap.contains (.empty : Properties) key = true := by simp [SortedMap.contains]
  simp only [edge, Relationship.withProperty, Relationship.make, SortedMap.contains_insert, hnone,
    edgeKeys, List.mem_cons, List.not_mem_nil]
  tauto

namespace Store

variable {o c : Relationship}

theorem uniform_mergeInto {old : Option Relationship} (ho : ∀ o, old = some o → o.Uniform)
    (hc : c.Uniform) : (mergeInto old c).Uniform := by
  cases old with
  | none => exact hc
  | some o =>
    have ho := ho o rfl
    refine ⟨fun key => ?_, ?_⟩
    · show (o.properties.union c.properties).contains key = true ↔ _
      rw [SortedMap.contains_union, hc.keys, ho.keys, or_self]
    · show o.metadata.union c.metadata = .empty
      rw [ho.metadata, hc.metadata]
      rfl

/-- Merged into one of its form that says the same, a relationship takes its place. -/
theorem mergedRelationship_eq (ho : o.Uniform) (hc : c.Uniform) (hsame : Same o c) :
    mergedRelationship o c = c := by
  obtain ⟨hkind, hsource, htarget⟩ :
      o.kind = c.kind ∧ o.source = c.source ∧ o.target = c.target := by
    simpa [Relationship.triple] using hsame.triple
  have hproperties : o.properties.union c.properties = c.properties := by
    refine SortedMap.ext_get? fun key => ?_
    rw [SortedMap.get?_union]
    cases hc' : c.properties.get? key with
    | some v => rfl
    | none =>
      have hnone : o.properties.contains key = false := by
        rw [Bool.eq_false_iff, Ne, ho.keys, ← hc.keys, SortedMap.contains_iff, hc']
        simp
      rw [SortedMap.contains_eq_false_iff.mp hnone]
      rfl
  have hmetadata : o.metadata.union c.metadata = c.metadata := by
    rw [ho.metadata, hc.metadata]
    rfl
  rw [mergedRelationship, hproperties, hmetadata, hsame.id, hkind, hsource, htarget]

/-! ### Imports that overwrite -/

/-- Every relationship of the list takes the place of what has its id, in the map or in the list. -/
structure Overwrites (rs : List Relationship) (m : SortedMap String Relationship) : Prop where
  old : ∀ c ∈ rs, ∀ o, m.get? c.id = some o → mergedRelationship o c = c
  own : ∀ c ∈ rs, ∀ o ∈ rs, o.id = c.id → mergedRelationship o c = c

/-- An import that overwrites writes its relationships at their ids. -/
theorem mergeRelationships_eq_writes : ∀ {rs : List Relationship}
    {m : SortedMap String Relationship}, Overwrites rs m →
    rs.foldl mergeRelationship m = SortedMap.writes (·.id) (fun c => c) m rs
  | [], _, _ => rfl
  | c :: rs, m, h => by
    have hstep : mergeRelationship m c = m.insert c.id c := by
      unfold mergeRelationship
      cases ho : m.get? c.id with
      | none => rfl
      | some o => simp only [h.old c List.mem_cons_self o ho]
    have hrest : Overwrites rs (m.insert c.id c) := by
      refine ⟨fun d hd o ho => ?_, fun d hd o ho =>
        h.own d (List.mem_cons_of_mem _ hd) o (List.mem_cons_of_mem _ ho)⟩
      rw [SortedMap.get?_insert_eq] at ho
      split at ho
      · rename_i hid
        cases ho
        exact h.own d (List.mem_cons_of_mem _ hd) _ List.mem_cons_self hid.symm
      · exact h.old d (List.mem_cons_of_mem _ hd) o ho
    rw [List.foldl_cons, hstep]
    exact mergeRelationships_eq_writes hrest

/-- After an import that overwrites, whatever is taken out of what it left but nothing of what was there
before, importing once more changes nothing. -/
theorem mergeRelationships_again {rs : List Relationship} {m : SortedMap String Relationship}
    {keep : Relationship → Bool} (h : Overwrites rs m)
    (hkeep : ∀ {i r}, m.get? i = some r → keep r = true) :
    rs.foldl mergeRelationship ((rs.foldl mergeRelationship m).filter fun _ => keep) =
      rs.foldl mergeRelationship m := by
  have honce := mergeRelationships_eq_writes h
  -- what the second import finds at an id of its own, the first one wrote
  have hagain : Overwrites rs ((rs.foldl mergeRelationship m).filter fun _ => keep) := by
    refine ⟨fun c hc o ho => ?_, h.own⟩
    rw [SortedMap.get?_filter, Option.filter_eq_some_iff, honce] at ho
    obtain ⟨d, hd, hid, rfl⟩ := SortedMap.exists_of_get?_writes ⟨c, hc, rfl⟩ ho.1
    exact h.own c hc _ hd hid
  rw [mergeRelationships_eq_writes hagain, honce]
  refine SortedMap.ext_get? fun i => ?_
  rw [SortedMap.get?_writes, SortedMap.get?_filter, SortedMap.get?_writes]
  cases rs.reverse.find? fun c => c.id = i with
  | some c => rfl
  | none =>
    cases hi : m.get? i with
    | none => rfl
    | some r => simp [hkeep hi]

/-! ### Apart from the time -/

theorem filePath?_timeless (r : Relationship) : (timeless r).filePath? = r.filePath? := by
  rw [Relationship.filePath?, Relationship.filePath?, timeless, SortedMap.get?_erase_eq,
    if_neg (by decide)]

/-- The relationships that are not of the files, with or without the time. -/
theorem filter_timeless (paths : List String) (m : SortedMap String Relationship) :
    (m.filter fun _ r => !isOf paths r.filePath?).mapValues (fun _ => timeless) =
      (m.mapValues fun _ => timeless).filter fun _ r => !isOf paths r.filePath? := by
  refine SortedMap.ext_get? fun i => ?_
  rw [SortedMap.get?_mapValues, SortedMap.get?_filter, SortedMap.get?_filter,
    SortedMap.get?_mapValues]
  cases m.get? i with
  | none => rfl
  | some r =>
    cases hof : isOf paths r.filePath? with
    | true => simp [Option.filter_some, filePath?_timeless, hof]
    | false => simp [Option.filter_some, filePath?_timeless, hof]

theorem Overwrites.timeless {rs : List Relationship} {m : SortedMap String Relationship}
    (h : Overwrites rs m) :
    Overwrites (rs.map Store.timeless) (m.mapValues fun _ => Store.timeless) := by
  have hmerged : ∀ {o c}, mergedRelationship o c = c →
      mergedRelationship (Store.timeless o) (Store.timeless c) = Store.timeless c :=
    fun {o c} hoc => (timeless_mergeInto (some o) c).symm.trans (congrArg Store.timeless hoc)
  constructor
  · intro _ hwritten _ hfound
    obtain ⟨c, hc, rfl⟩ := List.mem_map.mp hwritten
    rw [SortedMap.get?_mapValues] at hfound
    obtain ⟨o, ho, rfl⟩ := Option.map_eq_some_iff.mp hfound
    exact hmerged (h.old c hc o ho)
  · intro _ hwritten _ hother hid
    obtain ⟨c, hc, rfl⟩ := List.mem_map.mp hwritten
    obtain ⟨o, ho, rfl⟩ := List.mem_map.mp hother
    exact hmerged (h.own c hc o ho hid)

/-- After relationships were imported, a property that writing keeps holds at an id if it held there
before. -/
theorem mergeRelationships_induction {i : String} {P : Relationship → Prop} :
    ∀ (rs : List Relationship) {m : SortedMap String Relationship},
    (∀ r, m.get? i = some r → P r) →
    (∀ c ∈ rs, ∀ old, (∀ o, old = some o → P o) → P (mergeInto old c)) →
    ∀ r, (rs.foldl mergeRelationship m).get? i = some r → P r
  | [], _, hm, _, r, h => hm r h
  | c :: rs, m, hm, hstep, r, h => by
    refine mergeRelationships_induction rs (m := mergeRelationship m c) (fun r hr => ?_)
      (fun d hd => hstep d (List.mem_cons_of_mem _ hd)) r h
    rw [get?_mergeRelationship] at hr
    split at hr
    · rename_i hi
      exact Option.some.inj hr ▸ hstep c List.mem_cons_self _ (hi ▸ hm)
    · exact hm r hr

end Store

/-! ### What every run stores -/

/-- What is stored has the form of an edge, and says what something says that was built with its id. -/
structure Drawn (p : Project) (reader : Reader) (ts : List Turn) (s : Store) : Prop where
  uniform : ∀ {i r}, s.relationships.get? i = some r → r.Uniform
  built : ∀ {i r}, s.relationships.get? i = some r →
    ∃ b ∈ ts.flatMap (·.builds p reader), b.id = i ∧ b.triple = r.triple

namespace Drawn

variable {p : Project} {reader : Reader} {t : Turn} {ts : List Turn} {a : Pass p} {s : Store}

theorem empty (ts : List Turn) : Drawn p reader ts .empty where
  uniform h := by cases h
  built h := by cases h

theorem skip (h : Drawn p reader ts s) : Drawn p reader (t :: ts) s where
  uniform := h.uniform
  built hr := by
    obtain ⟨b, hb, hsame⟩ := h.built hr
    exact ⟨b, mem_builds_cons hb, hsame⟩

theorem uniform_of_imported {c : Relationship} (hm : a.state.symbols.IsTagged)
    (hc : c ∈ a.imported reader) : c.Uniform := by
  obtain ⟨q, hq⟩ := Pass.built_of_imported hc
  obtain ⟨f, _, _, hedge⟩ := Pass.edgeOf_of_built hm hq
  exact hedge.uniform

section Step

variable (h : Drawn p reader ts s) (ho : Orderly a.state s) (ha : t.pass? p = some a)
include h ho ha

theorem store : Drawn p reader (t :: ts) (a.store reader s) where
  uniform {i r} hr := by
    rw [Pass.relationships_store] at hr
    refine Store.mergeRelationships_induction (a.imported reader)
      (fun r hr => h.uniform (Pass.get?_retired_relationships.mp hr).1)
      (fun c hc old hold => Store.uniform_mergeInto hold (uniform_of_imported ho.symbols hc)) r hr
  built {i r} hr := by
    rcases Pass.stored_cases ho.keyed hr with ⟨hold, _⟩ | ⟨_, _, _, _, o, hold | himported, hsame⟩
    · exact h.skip.built hold
    · rw [hsame.triple]
      exact h.skip.built hold
    · refine ⟨o, mem_builds_of_pass ha (Reduction.mem_of_mem himported), ?_, hsame.triple.symm⟩
      rw [← hsame.id]
      exact ho.store.keyed hr

/-- Where what has one id says the same, a pass overwrites what it finds. -/
theorem overwrites (hfree : CollisionFree p reader (t :: ts)) :
    Store.Overwrites (a.imported reader) (a.retired s).relationships := by
  have hbuilt : ∀ {c}, c ∈ a.imported reader → c ∈ (t :: ts).flatMap (·.builds p reader) :=
    fun hc => mem_builds_of_pass ha (Reduction.mem_of_mem hc)
  constructor
  · intro c hc o hstored
    obtain ⟨hstored, _⟩ := Pass.get?_retired_relationships.mp hstored
    obtain ⟨b, hb, hid, htriple⟩ := h.skip.built hstored
    have hsame : o.triple = c.triple := htriple ▸ hfree b hb c (hbuilt hc) hid
    exact Store.mergedRelationship_eq (h.uniform hstored) (uniform_of_imported ho.symbols hc)
      ⟨ho.keyed hstored, hsame⟩
  · intro c hc o hown hid
    exact Store.mergedRelationship_eq (uniform_of_imported ho.symbols hown)
      (uniform_of_imported ho.symbols hc) ⟨hid, hfree o (hbuilt hown) c (hbuilt hc) hid⟩

end Step

end Drawn

theorem Run.drawn {p : Project} {reader : Reader} {ts : List Turn} {w : World Memory}
    (h : Run p reader ts w) :
    Orderly (p.state w.files) w.backend.store ∧ Drawn p reader ts w.backend.store :=
  Run.orderly_induction (P := fun ts _ s => Drawn p reader ts s) .empty
    (fun ha ho ih => ih.store ho ha) (fun _ ih => ih.skip) h

/-! ### Passes that do the same -/

/-- The passes retire the same files and build from the same. -/
structure Pass.Alike {p : Project} (reader : Reader) (a b : Pass p) : Prop where
  retire : b.plan.retire = a.plan.retire
  facts : b.facts reader = a.facts reader
  symbols : b.symbols reader = a.symbols reader

namespace Pass

variable {p : Project} {reader : Reader} {a b c : Pass p} {s : Store}

theorem relationships_retired : (a.retired s).relationships =
    s.relationships.filter fun _ r => !Store.isOf a.plan.retire r.filePath? := by
  refine SortedMap.ext_get? fun i => Option.ext fun r => ?_
  rw [get?_retired_relationships, SortedMap.get?_filter, Option.filter_eq_some_iff]
  simp

/-- What a pass leaves, apart from the time. -/
theorem timeless_store (a : Pass p) (s : Store) :
    (a.store reader s).relationships.mapValues (fun _ => Store.timeless) =
      ((a.imported reader).map Store.timeless).foldl Store.mergeRelationship
        ((s.relationships.mapValues fun _ => Store.timeless).filter
          fun _ r => !Store.isOf a.plan.retire r.filePath?) := by
  rw [relationships_store, Store.mergeRelationships_timeless, relationships_retired,
    Store.filter_timeless]

theorem Alike.imported (h : a.Alike reader b) :
    (b.imported reader).map Store.timeless = (a.imported reader).map Store.timeless := by
  rw [imported_stamp h.facts h.symbols, List.map_map]
  simp only [Function.comp_def, Store.timeless_stamp]

/-- A pass over what one like it left leaves what another like it leaves at once, the times apart. -/
theorem store_again (hb : a.Alike reader b) (hc : a.Alike reader c)
    (h : Store.Overwrites (a.imported reader) (a.retired s).relationships) :
    (b.store reader (a.store reader s)).relationships.mapValues (fun _ => Store.timeless) =
      (c.store reader s).relationships.mapValues fun _ => Store.timeless := by
  have hover := h.timeless
  rw [relationships_retired, Store.filter_timeless] at hover
  have hkeep : ∀ {i r}, ((s.relationships.mapValues fun _ => Store.timeless).filter
      fun _ r => !Store.isOf a.plan.retire r.filePath?).get? i = some r →
      (!Store.isOf a.plan.retire r.filePath?) = true := by
    intro i r hr
    rw [SortedMap.get?_filter, Option.filter_eq_some_iff] at hr
    exact hr.2
  rw [timeless_store, timeless_store, timeless_store, hb.imported, hb.retire, hc.imported, hc.retire]
  exact Store.mergeRelationships_again hover hkeep

end Pass

/-- A sync once more: with the same flag, from the same state, of files that are found and read the same,
and in the same mode. -/
structure Turn.Repeats (p : Project) (reader : Reader) (t t' : Turn) : Prop where
  act : t'.act = t.act
  state : p.state t'.files = p.state t.files
  scan : p.scan t'.files = p.scan t.files
  facts : ∀ path, (p.scan t.files).contains path = true →
    p.factsOf reader t'.files path = p.factsOf reader t.files path
  mode : (t'.pass? p).map (·.plan.full) = (t.pass? p).map (·.plan.full)

/-- Two plans of one mode from one state to the same files are the same. -/
theorem SyncPlan.eq_of_make {config : SyncConfig} {state : SyncState} {current : FingerprintMap}
    {now now' : Int} {force force' : Bool} {plan plan' : SyncPlan}
    (h : make config state current now force = some plan)
    (h' : make config state current now' force' = some plan') (hmode : plan.full = plan'.full) :
    plan = plan' := by
  rcases make_cases h with rfl | ⟨_, rfl⟩
  · rcases make_cases h' with rfl | ⟨_, rfl⟩
    · rfl
    · cases hmode
  · rcases make_cases h' with rfl | ⟨_, rfl⟩
    · cases hmode
    · rfl

namespace Turn

variable {p : Project} {reader : Reader} {t t' : Turn} {a b : Pass p}

theorem Repeats.refl (p : Project) (reader : Reader) (t : Turn) : t.Repeats p reader t :=
  ⟨rfl, rfl, rfl, fun _ _ => rfl, rfl⟩

theorem Repeats.alike {force : Bool} (h : t.Repeats p reader t') (hact : t.act = .sync force)
    (ha : t.pass? p = some a) (hb : t'.pass? p = some b) : a.Alike reader b := by
  have hmode : b.plan.full = a.plan.full := by simpa [ha, hb] using h.mode
  rw [pass?, hact] at ha
  rw [pass?, h.act, hact] at hb
  obtain ⟨hfiles, _, hstate, hplan⟩ := Project.of_pass? ha
  obtain ⟨hfiles', _, hstate', hplan'⟩ := Project.of_pass? hb
  rw [Project.plan?, h.state, h.scan] at hplan'
  have hsame : b.plan = a.plan := SyncPlan.eq_of_make hplan' hplan hmode
  have hfacts : b.facts reader = a.facts reader := by
    rw [Pass.facts, Pass.facts, Project.files_extract, Project.files_extract, hsame, hfiles, hfiles']
    exact List.filterMap_congr fun q hq => h.facts q (hfiles ▸ Pass.contains_of_mem hq)
  refine ⟨by rw [hsame], hfacts, ?_⟩
  rw [Pass.symbols, Pass.symbols, hsame, hstate', hstate, h.state, hfacts]

end Turn

/-! ### Runs -/

/-- A sync of a graph in memory that has a plan leaves the graph of its pass, whether the state could be
saved or not. -/
theorem Turn.store_of_syncOn {p : Project} {reader : Reader} {disk : Medium} {t : Turn} {force : Bool}
    {m : Memory} {w : World Memory} {result : Except Halt SyncReport} (hact : t.act = .sync force)
    (h : p.syncOn disk Memory.backend reader t.now force ⟨t.files, m⟩ = (result, w))
    (hplan : result ≠ .error .overflow) :
    ∃ a, t.pass? p = some a ∧ a.state = p.state t.files ∧
      w.backend.store = a.store reader m.store := by
  rcases Project.syncOn_cases (w := ⟨t.files, m⟩) t.sound t.signed h with ⟨hnone, _⟩ | ⟨a, ha, hrun⟩
  · exact absurd hnone hplan
  · obtain ⟨hfiles, _, hstate, _⟩ := Project.of_pass? ha
    have hfiles : t.files = a.files := hfiles.symm
    refine ⟨a, by rw [pass?, hact]; exact ha, hstate, ?_⟩
    cases hsave : (a.next reader).saveOn disk a.files p.statePath a.now with
    | mk fs saved =>
      obtain ⟨_, _, hmemory⟩ := Project.runOn_memory a m hsave
      rw [hfiles, hmemory] at hrun
      cases hrun
      rfl

/-- After a run, a sync that could not save its state and is then repeated leaves the relationships that
it would have left at once, up to the time they were made at. -/
theorem Run.retry_eq_once {p : Project} {reader : Reader} {ts : List Turn} {w w₁ w₂ w₃ : World Memory}
    {t t' u : Turn} {force : Bool} {disk disk' disk'' : Medium} {f : Failure} {r r' : SyncReport}
    (h : Run p reader ts w) (hact : t.act = .sync force)
    (hstate : p.state t.files = p.state w.files) (hfree : CollisionFree p reader (t :: ts))
    (hagain : t.Repeats p reader t') (honce : t.Repeats p reader u)
    (hfailed : p.syncOn disk Memory.backend reader t.now force ⟨t.files, w.backend⟩ =
      (.error (.failure f), w₁))
    (hretried : p.syncOn disk' Memory.backend reader t'.now force ⟨t'.files, w₁.backend⟩ = (.ok r, w₂))
    (hsynced : p.syncOn disk'' Memory.backend reader u.now force ⟨u.files, w.backend⟩ = (.ok r', w₃)) :
    w₂.backend.store.relationships.mapValues (fun _ => Store.timeless) =
      w₃.backend.store.relationships.mapValues fun _ => Store.timeless := by
  obtain ⟨horderly, hdrawn⟩ := h.drawn
  obtain ⟨a, ha, hfrom, hstore₁⟩ := Turn.store_of_syncOn hact hfailed (by simp)
  obtain ⟨b, hb, _, hstore₂⟩ := Turn.store_of_syncOn (hagain.act.trans hact) hretried (by simp)
  obtain ⟨c, hc, _, hstore₃⟩ := Turn.store_of_syncOn (honce.act.trans hact) hsynced (by simp)
  have ho : Orderly a.state w.backend.store := by
    rw [hfrom, hstate]
    exact horderly
  rw [hstore₂, hstore₁, hstore₃]
  exact Pass.store_again (hagain.alike hact ha hb) (honce.alike hact ha hc)
    (hdrawn.overwrites ho ha hfree)

namespace Trial

/-- The second sync, failed on the worn disk and repeated on what it left there, leaves the
relationships that it leaves at once. -/
theorem retried_second : ∃ w w₁ w₂ w₃ f r r', (Run project reader [first] w ∧
      second.act = .sync false ∧ project.state second.files = project.state w.files ∧
      CollisionFree project reader [second, first] ∧ second.Repeats project reader second ∧
      project.syncOn worn Memory.backend reader second.now false ⟨second.files, w.backend⟩ =
        (.error (.failure f), w₁) ∧
      project.syncOn .willing Memory.backend reader second.now false w₁ = (.ok r, w₂) ∧
      project.syncOn .willing Memory.backend reader second.now false ⟨second.files, w.backend⟩ =
        (.ok r', w₃)) ∧
    w₃.backend.store.relationships.values ≠ [] ∧
    w₂.backend.store.relationships.mapValues (fun _ => Store.timeless) =
      w₃.backend.store.relationships.mapValues fun _ => Store.timeless := by
  obtain ⟨_, fs, hstate, hrun⟩ := run_first
  have hsame : project.state second.files = project.state fs := state_second.trans hstate.symm
  have hrepeats := Turn.Repeats.refl project reader second
  obtain ⟨f, hfailed⟩ := fails_second { Memory.empty with store := before.store reader .empty }
  obtain ⟨fs₂, _, r, hretried⟩ := leads_second { Memory.empty with
    store := after.store reader (before.store reader .empty) }
  obtain ⟨fs₃, _, r', hsynced⟩ := leads_second
    { Memory.empty with store := before.store reader .empty }
  refine ⟨_, _, _, _, f, r, r', ⟨hrun, rfl, hsame, free_second, hrepeats, hfailed, hretried, hsynced⟩,
    ?_, hrun.retry_eq_once rfl hsame free_second hrepeats hrepeats hfailed hretried hsynced⟩
  show (after.store reader (before.store reader .empty)).relationships.values ≠ []
  decide +kernel

end Trial

end CodeAtlas
