/-
# The symbols that are kept are those that would be read

Between trees with the same manifests, a file of the same content belongs to the same package and
declares the same symbols (`Project.symbols_congr`): the way to a file passes the same directories in
both, so the same manifests. So where equal fingerprints tell equal contents, the symbols that a state
keeps for a file are those that reading it again would give (`Cached`), and every sync looks names up
in the symbols of a full one (`Run.symbols_eq_whole`). What it builds for the files that it reads is
then what a full sync builds for them.

A name with a backslash breaks this (`Run.exists_symbols_lost`): its symbols are kept under a path that
no later plan calls unchanged.

Key definitions: `Project.Telling`, `Pass.whole`, `Cached`.
Key theorems: `ProjectContext.packageAt_of_sameManifests`, `Project.symbols_congr`, `Cached.next`,
`Run.symbols_eq_whole`.
-/
import CodeAtlas.Proofs.Runs

namespace CodeAtlas

/-! ### Packages in two trees -/

theorem Path.filterMap_piece?_names (names : List String) :
    (names.map Segment.name).filterMap Segment.piece? = names := by
  rw [List.filterMap_map]
  exact List.filterMap_some

namespace Project.SourceAt

variable {p : Project} {fs : FileSystem} {rel : String} {base names : List String}

/-- Where the manifest of a directory on the way to a source file is. -/
theorem locate_manifest (h : p.SourceAt fs rel base names) (hs : fs.Sound) {dir : String}
    {xs ys : List String} (hd : Path.segments dir = Path.segments p.root ++ xs.map .name)
    (hn : names = xs ++ ys) (hy : ys ≠ []) :
    fs.locate (Path.join dir "package.json") = .ok (base ++ (xs ++ ["package.json"])) := by
  have hroot : fs.follow (fs.startOf p.root) ((Path.segments p.root).filterMap Segment.piece?) =
      .ok base := by
    rw [Path.filterMap_piece?]
    exact FileSystem.follow_filter _ _ (FileSystem.locate_eq h.root_ne ▸ h.located)
  have hstart : (if (Path.segments dir).head? = some .root then [] else fs.cwd) =
      fs.startOf p.root := by
    have hhead : (Path.segments dir).head? = (Path.segments p.root).head? := by
      obtain ⟨s, ss, hss⟩ := List.exists_cons_of_ne_nil (Path.segments_ne_nil h.root_ne)
      rw [hd, hss, List.cons_append, List.head?_cons, List.head?_cons]
    rw [hhead, FileSystem.startOf]
    have hiff := (Path.isAbsolute_eq p.root).trans (Path.leadOf_eq_root_iff p.root)
    by_cases ha : Path.isAbsolute p.root = true
    · rw [if_pos ha, if_pos (hiff.mp ha)]
    · rw [if_neg ha, if_neg fun hh => ha (hiff.mpr hh)]
  rw [FileSystem.locate_join_name fs dir ProjectContext.isName_manifest, hstart, hd,
    List.filterMap_append, Path.filterMap_piece?_names, List.append_assoc,
    FileSystem.follow_append, hroot]
  obtain ⟨c, t, hfile⟩ := h.file
  refine FileSystem.follow_names _ base (fun s hs' => ?_) fun a b hab hb => ?_
  · rcases List.mem_append.mp hs' with hx | hx
    · exact h.named s (hn ▸ List.mem_append_left _ hx)
    · exact List.mem_singleton.mp hx ▸ ProjectContext.isName_manifest
  · -- what comes before the manifest is on the way to the file
    have hpre : a <+: xs := by
      rw [← List.dropLast_concat_getLast hb, ← List.append_assoc] at hab
      exact ⟨b.dropLast, (List.append_inj' hab rfl).1.symm⟩
    obtain ⟨z, hz⟩ := hpre
    rw [hn, ← hz, List.append_assoc, ← List.append_assoc] at hfile
    exact hs.directory_of_append (z ++ ys) (base ++ a) hfile (by simp [hy])

end Project.SourceAt

namespace ProjectContext

theorem manifestName?_eq (fs : FileSystem) (manifest : String) :
    manifestName? fs manifest = (fs.read manifest).toOption.bind fun content =>
      ((((FileSystem.textOf? content).bind Json.parse?).bind (·.field? "name")).bind
        Json.string?).filter (· != "") := by
  unfold manifestName?
  cases fs.read manifest <;> rfl

theorem ownPackage?_of_content {fs fs' : FileSystem} (c : ProjectContext) {dir : String}
    (h : fs.contentAt? (Path.join dir "package.json") =
      fs'.contentAt? (Path.join dir "package.json")) :
    c.ownPackage? fs dir = c.ownPackage? fs' dir := by
  simp only [ownPackage?, FileSystem.isFile_eq, manifestName?_eq, FileSystem.toOption_read, h]

theorem new_eq {fs fs' : FileSystem} (h : fs.cwd = fs'.cwd) (root : String) :
    new fs root = new fs' root := by
  rw [new, new, anchored?, anchored?, h]

section TwoTrees

variable {p : Project} {fs fs' : FileSystem} {rel : String} {base names : List String}
  (h : p.SourceAt fs rel base names) (h' : p.SourceAt fs' rel base names)
  (hs : fs.Sound) (hs' : fs'.Sound) (hm : fs.SameManifests fs')
include h h' hs hs' hm

/-- The search for a manifest, from a directory on the way to a file, ends alike in both trees. -/
theorem nearest?_of_sameManifests {c : ProjectContext} (hc : c.root = p.root) :
    ∀ (fuel : Nat) (dir : String), (Path.isWithin p.root dir = true → ∃ xs ys,
      Path.segments dir = Path.segments p.root ++ xs.map .name ∧ names = xs ++ ys ∧ ys ≠ []) →
    c.nearest? fs fuel dir = c.nearest? fs' fuel dir
  | 0, _, _ => rfl
  | fuel + 1, dir, hway => by
    rw [nearest?_succ, nearest?_succ, hc]
    by_cases hw : Path.isWithin p.root dir = true
    · obtain ⟨xs, ys, hd, hn, hy⟩ := hway hw
      have hcontent : fs.contentAt? (Path.join dir "package.json") =
          fs'.contentAt? (Path.join dir "package.json") := by
        rw [FileSystem.contentAt?_of_locate (h.locate_manifest hs hd hn hy),
          FileSystem.contentAt?_of_locate (h'.locate_manifest hs' hd hn hy), ← List.append_assoc]
        exact hm.content (base ++ xs)
      have hup : ∀ q, Path.parent? dir = some q → c.nearest? fs fuel q = c.nearest? fs' fuel q := by
        refine fun q hq => nearest?_of_sameManifests hc fuel q fun hwq => ?_
        rw [Path.isWithin, (Path.segments_of_parent? hq).1, hd] at hwq
        -- above the root nothing is within it
        have hne : xs ≠ [] := by
          rintro rfl
          have hlen := (List.isPrefixOf_iff_prefix.mp hwq).length_le
          have := List.length_pos_iff.mpr (Path.segments_ne_nil h.root_ne)
          rw [List.map_nil, List.append_nil, List.length_dropLast] at hlen
          omega
        refine ⟨xs.dropLast, xs.getLast hne :: ys, ?_, ?_, List.cons_ne_nil _ _⟩
        · rw [(Path.segments_of_parent? hq).1, hd,
            List.dropLast_append_of_ne_nil (by simpa using hne), List.map_dropLast]
        · rw [hn, List.append_cons, List.dropLast_concat_getLast]
      rw [if_pos hw, if_pos hw, ownPackage?_of_content c hcontent]
      cases hp : Path.parent? dir with
      | none => rfl
      | some q => rw [Option.bind_some, Option.bind_some, hup q hp]
    · rw [if_neg hw, if_neg hw]

/-- A source file belongs to the same package in both trees. -/
theorem packageAt_of_sameManifests :
    packageAt fs p.root ((Path.parent? (Path.join p.root rel)).getD p.root) =
      packageAt fs' p.root ((Path.parent? (Path.join p.root rel)).getD p.root) := by
  suffices hway : ∃ xs ys, Path.segments ((Path.parent? (Path.join p.root rel)).getD p.root) =
      Path.segments p.root ++ xs.map .name ∧ names = xs ++ ys ∧ ys ≠ [] by
    rw [packageAt, packageAt, new_eq hm.cwd,
      nearest?_of_sameManifests h h' hs hs' hm rfl _ _ fun _ => hway]
  cases hp : Path.parent? (Path.join p.root rel) with
  | none => exact ⟨[], names, by simp, rfl, h.nonempty⟩
  | some q =>
    refine ⟨names.dropLast, [names.getLast h.nonempty], ?_,
      (List.dropLast_concat_getLast h.nonempty).symm, List.cons_ne_nil _ _⟩
    have hne : names.map Segment.name ≠ [] := by simpa using h.nonempty
    rw [Option.getD_some, (Path.segments_of_parent? hp).1, h.path,
      Path.segments_join_ofParts h.root_ne h.nonempty h.named,
      List.dropLast_append_of_ne_nil hne, List.map_dropLast]

end TwoTrees

end ProjectContext

/-! ### Symbols in two trees -/

namespace Project

variable {p : Project} {fs fs' : FileSystem} {rel : String}

/-- Where a readable file has the same fingerprint in both trees, it has the same content. -/
def Telling (p : Project) (fs fs' : FileSystem) : Prop :=
  ∀ e ∈ (p.scan fs).entries, (p.scan fs').get? e.1 = some e.2 → e.2.readable = true →
    (fs.read (Path.join p.root e.1)).toOption = (fs'.read (Path.join p.root e.1)).toOption

instance (p : Project) (fs fs' : FileSystem) : Decidable (p.Telling fs fs') :=
  inferInstanceAs (Decidable (∀ e ∈ (p.scan fs).entries, (p.scan fs').get? e.1 = some e.2 →
    e.2.readable = true →
    (fs.read (Path.join p.root e.1)).toOption = (fs'.read (Path.join p.root e.1)).toOption))

theorem Telling.refl (p : Project) (fs : FileSystem) : p.Telling fs fs := fun _ _ _ _ => rfl

theorem Telling.symm (h : p.Telling fs fs') : p.Telling fs' fs := fun e he hget hr =>
  (h e (SortedMap.get?_eq_some_iff.mp hget) (SortedMap.get?_eq_some_iff.mpr he) hr).symm

/-- What a file of the project declares. -/
def symbolsAt (p : Project) (reader : Reader) (fs : FileSystem) (rel : String) :
    Option FileSymbols := (p.factsOf reader fs rel).map FileSymbols.ofFacts

theorem symbolsAt_of_read_none (reader : Reader)
    (h : (fs.read (Path.join p.root rel)).toOption = none) : p.symbolsAt reader fs rel = none := by
  rw [symbolsAt, factsOf_eq, h]
  rfl

theorem ofFacts_placed (f : FileFacts) (package : String) (imports : List (String × String)) :
    FileSymbols.ofFacts { f with package := package, resolvedImports := imports } =
      FileSymbols.ofFacts { f with package := package } := rfl

/-- What a file declares depends on its content and its package. -/
theorem symbolsAt_congr (reader : Reader)
    (hread : (fs.read (Path.join p.root rel)).toOption = (fs'.read (Path.join p.root rel)).toOption)
    (hpackage : ProjectContext.packageAt fs p.root ((Path.parent? (Path.join p.root rel)).getD p.root)
      = ProjectContext.packageAt fs' p.root ((Path.parent? (Path.join p.root rel)).getD p.root)) :
    p.symbolsAt reader fs rel = p.symbolsAt reader fs' rel := by
  rw [symbolsAt, symbolsAt, factsOf_eq, factsOf_eq, hread, hpackage, Option.map_map, Option.map_map]
  simp only [Function.comp_def, ofFacts_placed]

/-- A scanned file that has the same content in two trees with the same manifests cannot be read, or
belongs to the same package in both. -/
theorem package_congr (hs : fs.Sound) (hs' : fs'.Sound) (hp : p.Plain fs) (hp' : p.Plain fs')
    (hm : fs.SameManifests fs') (hc : (p.scan fs).contains rel = true)
    (hc' : (p.scan fs').contains rel = true)
    (hread : (fs.read (Path.join p.root rel)).toOption =
      (fs'.read (Path.join p.root rel)).toOption) :
    (fs.read (Path.join p.root rel)).toOption = none ∨
    ProjectContext.packageAt fs p.root ((Path.parent? (Path.join p.root rel)).getD p.root) =
      ProjectContext.packageAt fs' p.root ((Path.parent? (Path.join p.root rel)).getD p.root) := by
  obtain ⟨f, hf⟩ := SortedMap.contains_iff.mp hc
  obtain ⟨f', hf'⟩ := SortedMap.contains_iff.mp hc'
  rcases scan_cases hs hp hf with ⟨base, names, hsrc, _⟩ | ⟨rfl, base, c, t, hl, he⟩
  · rcases scan_cases hs' hp' hf' with ⟨base', names', hsrc', _⟩ | ⟨rfl, base', c, t, hl, he⟩
    · obtain ⟨rfl, rfl⟩ := hsrc.unique hsrc' hm.cwd
      exact .inr (ProjectContext.packageAt_of_sameManifests hsrc hsrc' hs hs' hm)
    · exact .inl (hread.trans (read_root_file hl he))
  · exact .inl (read_root_file hl he)

/-- Such a file declares the same symbols in both trees. -/
theorem symbols_congr (reader : Reader) (hs : fs.Sound) (hs' : fs'.Sound) (hp : p.Plain fs)
    (hp' : p.Plain fs') (hm : fs.SameManifests fs') (hc : (p.scan fs).contains rel = true)
    (hc' : (p.scan fs').contains rel = true)
    (hread : (fs.read (Path.join p.root rel)).toOption =
      (fs'.read (Path.join p.root rel)).toOption) :
    p.symbolsAt reader fs rel = p.symbolsAt reader fs' rel := by
  rcases package_congr hs hs' hp hp' hm hc hc' hread with hnone | hpackage
  · rw [symbolsAt_of_read_none reader hnone, symbolsAt_of_read_none reader (hread ▸ hnone)]
  · exact symbolsAt_congr reader hread hpackage

end Project

/-! ### The invariant -/

/-- The full run in place of a run. -/
def Pass.whole {p : Project} (a : Pass p) : Pass p :=
  { a with
    plan := .ofFull a.state (p.scan a.files)
    follows := SyncPlan.follows_ofFull a.state (p.scan a.files) }

/-- The symbols that are kept for a file are those it declared in a tree of the turns in which it had
the fingerprint that is kept. -/
def Cached (p : Project) (reader : Reader) (ts : List Turn) (state : SyncState) : Prop :=
  ∀ q f, state.files.get? q = some f → ∃ u ∈ ts, (p.scan (u.seen p)).get? q = some f ∧
    state.symbols.get? q = p.symbolsAt reader (u.seen p) q

namespace Cached

variable {p : Project} {reader : Reader} {t : Turn} {ts : List Turn} {a : Pass p}

theorem fresh (ts : List Turn) : Cached p reader ts .fresh := fun _ _ h => by cases h

theorem skip {state : SyncState} (h : Cached p reader ts state) :
    Cached p reader (t :: ts) state := fun q f hq => by
  obtain ⟨u, hu, rest⟩ := h q f hq
  exact ⟨u, List.mem_cons_of_mem _ hu, rest⟩

/-- A pass keeps the symbols of unchanged files, and those it read now. -/
theorem next (h : Cached p reader ts a.state) (ha : t.pass? p = some a) (hp : p.Plain a.files) :
    Cached p reader (t :: ts) (a.next reader) := by
  intro q f hq
  have hcurrent : (p.scan a.files).get? q = some f := by rwa [← a.follows.fingerprints]
  show ∃ u ∈ t :: ts, _ ∧ (a.symbols reader).get? q = _
  rw [Pass.get?_symbols hp]
  by_cases hu : q ∈ a.plan.changes.unchanged
  · obtain ⟨_, g, hold, hnow, _⟩ := a.follows.unchanged q hu
    obtain rfl : g = f := Option.some.inj (hnow.symm.trans hcurrent)
    obtain ⟨u, hmem, hscan, hsym⟩ := h q _ hold
    exact ⟨u, List.mem_cons_of_mem _ hmem, hscan, by rw [if_pos hu, hsym]⟩
  · refine ⟨t, List.mem_cons_self, ?_, ?_⟩
    · rw [← Turn.files_of_pass? ha, hcurrent]
    · rw [if_neg hu, if_pos (SortedMap.contains_of_get? hcurrent), ← Turn.files_of_pass? ha]
      rfl

end Cached

/-- The trees of the turns have the same manifests, and equal fingerprints tell equal contents. -/
structure Steady (p : Project) (ts : List Turn) : Prop where
  manifests : ∀ u ∈ ts, ∀ v ∈ ts, (u.seen p).SameManifests (v.seen p)
  telling : ∀ u ∈ ts, ∀ v ∈ ts, p.Telling (u.seen p) (v.seen p)

theorem Steady.pair {p : Project} {t u : Turn} (hm : (t.seen p).SameManifests (u.seen p))
    (ht : p.Telling (t.seen p) (u.seen p)) : Steady p [t, u] := by
  constructor
  · simp only [List.forall_mem_cons, List.not_mem_nil, false_implies, implies_true, and_true]
    exact ⟨⟨⟨rfl, fun _ => rfl⟩, hm⟩, hm.symm, rfl, fun _ => rfl⟩
  · simp only [List.forall_mem_cons, List.not_mem_nil, false_implies, implies_true, and_true]
    exact ⟨⟨.refl p _, ht⟩, ht.symm, .refl p _⟩

namespace Pass

variable {p : Project} {reader : Reader} {t : Turn} {ts : List Turn} {a : Pass p}

theorem sound_seen (u : Turn) : (u.seen p).Sound := by
  unfold Turn.seen
  split
  · exact p.sound_cleared u.sound
  · exact u.sound
  · exact u.sound

theorem whole_unchanged (a : Pass p) : a.whole.plan.changes.unchanged = [] := rfl

theorem mem_toExtract_whole {q : String} :
    q ∈ a.whole.plan.changes.toExtract ↔ (p.scan a.files).contains q = true := by
  rw [a.whole.follows.extract, whole_unchanged]
  simp [whole]

/-- From a state that keeps the right symbols, a pass looks names up in the symbols of a full one. -/
theorem symbols_eq_of_cached (h : Cached p reader ts a.state) (ha : t.pass? p = some a)
    (hp : ∀ u ∈ t :: ts, p.Plain (u.seen p)) (hsteady : Steady p (t :: ts)) :
    a.symbols reader = a.whole.symbols reader := by
  have hfiles : a.files = t.seen p := Turn.files_of_pass? ha
  have hplain : p.Plain a.files := hfiles ▸ hp t List.mem_cons_self
  refine SortedMap.ext_get? fun q => ?_
  rw [get?_symbols hplain, get?_symbols (a := a.whole) hplain, whole_unchanged,
    if_neg List.not_mem_nil]
  by_cases hu : q ∈ a.plan.changes.unchanged
  · obtain ⟨_, f, hold, hnow, hreadable⟩ := a.follows.unchanged q hu
    obtain ⟨u, hmem, hscan, hsym⟩ := h q _ hold
    have hu' := List.mem_cons_of_mem t hmem
    rw [if_pos hu, hsym]
    show _ = if (p.scan a.files).contains q then p.symbolsAt reader a.files q else none
    rw [if_pos (SortedMap.contains_of_get? hnow), hfiles]
    rw [hfiles] at hnow
    refine Project.symbols_congr reader (sound_seen u) (sound_seen t) (hp u hu')
      (hp t List.mem_cons_self) (hsteady.manifests u hu' t List.mem_cons_self)
      (SortedMap.contains_of_get? hscan) (SortedMap.contains_of_get? hnow) ?_
    exact hsteady.telling u hu' t List.mem_cons_self (q, f) (SortedMap.get?_eq_some_iff.mp hscan)
      hnow hreadable
  · rw [if_neg hu]
    rfl

/-- With the symbols of a full pass, what a pass builds for a file that it reads is what the full one
builds for it. -/
theorem built_eq_whole (hp : p.Plain a.files) (hsym : a.symbols reader = a.whole.symbols reader)
    {q : String} (hq : q ∈ a.plan.changes.toExtract) : a.built reader q = a.whole.built reader q := by
  rw [built_eq hp, built_eq (a := a.whole) hp, if_pos hq,
    if_pos (mem_toExtract_whole.mpr (contains_of_mem hq)), hsym]
  rfl

end Pass

/-! ### Runs -/

section Runs

variable {p : Project} {reader : Reader} {t : Turn} {ts : List Turn} {w : World Memory}

theorem Run.cached (h : Run p reader ts w) (hp : ∀ u ∈ ts, p.Plain (u.seen p)) :
    Held (p.state w.files) w.backend.store ∧ Cached p reader ts (p.state w.files) :=
  Run.induction (P := fun ts state _ => Cached p reader ts state) (fun ts => .fresh ts)
    (fun ha hp _ ih => ih.next ha hp) (fun _ ih => ih.skip) h hp

/-- A sync that follows a run over trees with the same manifests looks names up in the symbols that a
full sync of the same tree reads, and builds the same relationships for the files that it reads. -/
theorem Run.symbols_eq_whole (h : Run p reader ts w) {force : Bool} (hact : t.act = .sync force)
    (hstate : p.state t.files = p.state w.files) {a : Pass p} (ha : t.pass? p = some a)
    (hp : ∀ u ∈ t :: ts, p.Plain (u.seen p)) (hsteady : Steady p (t :: ts)) :
    a.symbols reader = a.whole.symbols reader ∧
      ∀ path ∈ a.plan.changes.toExtract, a.built reader path = a.whole.built reader path := by
  obtain ⟨_, hcached⟩ := h.cached fun u hu => hp u (List.mem_cons_of_mem _ hu)
  have hfrom : a.state = p.state w.files := by
    rw [Turn.pass?, hact] at ha
    rw [(Project.of_pass? ha).2.2.1, hstate]
  have hsym := Pass.symbols_eq_of_cached (hfrom ▸ hcached) ha hp hsteady
  have hplain : p.Plain a.files := Turn.files_of_pass? ha ▸ hp t List.mem_cons_self
  exact ⟨hsym, fun path hq => Pass.built_eq_whole hplain hsym hq⟩

end Runs

namespace Trial

theorem steady_second : Steady project [second, first] :=
  .pair (FileSystem.sameManifests_of_none rfl (by decide +kernel) (by decide +kernel))
    (by decide +kernel)

/-- A file is added beside an unchanged one, whose symbols are kept. -/
theorem symbols_second : ∃ w, (Run project reader [first] w ∧ second.act = .sync false ∧
      project.state second.files = project.state w.files ∧ second.pass? project = some after ∧
      (∀ u ∈ [second, first], project.Plain (u.seen project)) ∧ Steady project [second, first]) ∧
    "src/a.ts" ∈ after.plan.changes.unchanged ∧ "b.ts" ∈ after.plan.changes.toExtract ∧
    after.symbols reader = after.whole.symbols reader ∧
      ∀ path ∈ after.plan.changes.toExtract,
        after.built reader path = after.whole.built reader path := by
  obtain ⟨_, fs, hstate, hrun⟩ := run_first
  have hsame : project.state second.files = project.state fs := state_second.trans hstate.symm
  exact ⟨_, ⟨hrun, rfl, hsame, pass?_second, plain_second, steady_second⟩, by decide +kernel,
    by decide +kernel, hrun.symbols_eq_whole rfl hsame pass?_second plain_second steady_second⟩

/-- The sync of the tree that misleads, as it was. -/
def again : Turn := sync (tree (mask :: hidden ++ saved (misread.next reader))) (by decide +kernel) false

/-- The pass of the sync of the tree that misleads, as it was. -/
def forgetful : Pass project := again.passFrom (make_misread again.files)

theorem state_again : project.state again.files = misread.next reader :=
  SyncState.load_of_read (misread.inRange_next reader) rfl rfl

end Trial

/-- With a backslash in a name, a sync of an unchanged tree loses symbols. -/
theorem Run.exists_symbols_lost : ∃ (p : Project) (reader : Reader) (ts : List Turn)
    (w : World Memory) (t : Turn) (a : Pass p), Run p reader ts w ∧ t.act = .sync false ∧
      p.state t.files = p.state w.files ∧ t.pass? p = some a ∧ Steady p (t :: ts) ∧
      a.symbols reader ≠ a.whole.symbols reader := by
  open Trial in
  obtain ⟨_, fs, hstate, hrun⟩ := run_misled
  have hsteady : Steady project [again, misled] :=
    .pair (FileSystem.sameManifests_of_none rfl (by decide +kernel) (by decide +kernel))
      (by decide +kernel)
  refine ⟨project, reader, [misled], _, again, forgetful, hrun, rfl,
    state_again.trans hstate.symm, Turn.pass?_sync rfl state_again _, hsteady, fun h => ?_⟩
  have hlost : (forgetful.symbols reader).contains "node_modules/x.ts" = false := by decide +kernel
  have hthere : (forgetful.whole.symbols reader).contains "node_modules/x.ts" = true := by
    decide +kernel
  rw [h, hthere] at hlost
  cases hlost

end CodeAtlas
