/-
# Nothing is lost in reducing a built graph

Of the relationships that are built for files, reducing takes out repetitions and nothing else: what is
left says what was built, each pair of nodes being left once, and only the first of the four stages
takes out anything (`Batch.reduction_lossless`). The kinds of two nodes tell what there is to say of
them, and every relationship is built with enough confidence to stay.

A graph is filled batch by batch, each batch reduced for itself. Still it has at most one relationship
for each pair of nodes after any run, on any trees, so that cleaning it removes nothing
(`Run.clean_removes_nothing`).

Key definitions: `Reduction.Lossless`, `SymbolIndex.ofParsed`.
Key theorems: `Reduction.lossless_of_proper`, `Batch.reduction_lossless`, `Orderly.nodup_pairs`,
`Run.clean_removes_nothing`.
-/
import CodeAtlas.Proofs.Runs

namespace CodeAtlas

/-! ### Batches -/

namespace Reduction

open Reduce

/-- Reducing takes out repetitions only: what is left is of the batch and says all that the batch says,
and of the four stages only the first takes out anything. -/
structure Lossless (rs : List Relationship) : Prop where
  mem : ∀ r ∈ (of rs).relationships, r ∈ rs
  triples : ∀ x, x ∈ (of rs).relationships.map (·.triple) ↔ x ∈ rs.map (·.triple)
  distinct : ((of rs).relationships.map PairKey.of).Nodup
  semantic : (of rs).stats.semanticReductions = 0
  quality : (of rs).stats.qualityFiltered = 0
  hierarchy : (of rs).stats.hierarchyReductions = 0
  counted : (of rs).stats.exactDuplicates + (of rs).stats.output = (of rs).stats.input

theorem lossless_of_proper {rs : List Relationship} (hp : ∀ c ∈ rs, c.Proper) : Lossless rs where
  mem _ := mem_of_mem
  triples x := by
    constructor
    · intro hx
      obtain ⟨r, hr, rfl⟩ := List.mem_map.mp hx
      exact List.mem_map_of_mem (mem_of_mem hr)
    · intro hx
      obtain ⟨r, hr, rfl⟩ := List.mem_map.mp hx
      obtain ⟨c, hc, ht⟩ := exists_mem_of_proper hp hr
      exact List.mem_map.mpr ⟨c, hc, ht⟩
  distinct := nodup_reduceBy PairKey.of _
  semantic := by rw [(settled_of_proper hp).stats_eq]
  quality := by rw [(settled_of_proper hp).stats_eq]
  hierarchy := by rw [(settled_of_proper hp).stats_eq]
  counted := by
    rw [(settled_of_proper hp).stats_eq]
    exact Nat.sub_add_cancel (length_reduceBy_le TripleKey.of rs)

end Reduction

/-- The declarations of parsed files, each of them under a path. -/
def SymbolIndex.ofParsed (known : List (String × FileFacts)) : SymbolIndex :=
  .ofFiles (known.map fun e => (e.1, .ofFacts e.2))

theorem SymbolIndex.isTagged_ofParsed (known : List (String × FileFacts)) :
    (ofParsed known).IsTagged := by
  apply isTagged_ofFiles
  intro e he
  obtain ⟨f, _, rfl⟩ := List.mem_map.mp he
  exact FileSymbols.isTagged_ofFacts f.2

theorem Batch.proper_of_mem {createdAt : Int} {ix : SymbolIndex} (hix : ix.IsTagged)
    {files : List FileFacts} : ∀ r ∈ (ofFilesWith createdAt ix files).relationships, r.Proper := by
  intro r hr
  obtain ⟨f, _, hr⟩ := List.mem_flatMap.mp hr
  exact (Build.exists_edge hix hr).proper

/-- Reducing what is built for files, names being looked up in the declarations of any parsed files, loses
nothing. -/
theorem Batch.reduction_lossless (createdAt : Int) (known : List (String × FileFacts))
    (files : List FileFacts) :
    Reduction.Lossless (ofFilesWith createdAt (.ofParsed known) files).relationships :=
  Reduction.lossless_of_proper (proper_of_mem (SymbolIndex.isTagged_ofParsed known))

/-! ### Runs -/

namespace Orderly

variable {state : SyncState} {s : Store}

/-- What the store says, it says once. -/
theorem nodup_triples (h : Orderly state s) : (s.relationships.values.map TripleKey.of).Nodup := by
  have hids : (s.relationships.values.map (·.id)).Nodup := by
    rw [SortedMap.map_values h.keyed]
    exact SortedMap.nodup_keys _
  refine List.Nodup.map_on (fun a ha b hb hab => ?_) (.of_map _ hids)
  -- what says the same has the same id, and an id has one place in the store
  have htriple : a.triple = b.triple := by
    simp only [TripleKey.of, TripleKey.mk.injEq] at hab
    rw [Relationship.triple, Relationship.triple, hab.1, hab.2.1, hab.2.2]
  have hid : a.id = b.id :=
    Reduction.id_eq_of_triple (h.proper_of_mem a ha) (h.proper_of_mem b hb) htriple
  exact List.inj_on_of_nodup_map hids ha hb hid

theorem nodup_pairs (h : Orderly state s) : (s.relationships.values.map PairKey.of).Nodup :=
  Reduction.nodup_pairs h.proper_of_mem h.nodup_triples

/-- Reducing what the store has leaves as many relationships. -/
theorem length_reduced (h : Orderly state s) :
    (Reduction.of s.relationships.values).relationships.length = s.relationships.values.length :=
  calc (Reduction.of s.relationships.values).relationships.length
      = (Reduce.reduceBy TripleKey.of s.relationships.values).length :=
        (Reduction.settled_of_proper h.proper_of_mem).relationships_perm.length_eq
    _ = s.relationships.values.length := (Reduce.reduceBy_perm h.nodup_triples).length_eq

end Orderly

/-- After any run the graph has at most one relationship for each pair of nodes, and cleaning it succeeds,
removes none and leaves the graph as it is. -/
theorem Run.clean_removes_nothing {p : Project} {reader : Reader} {ts : List Turn} {w : World Memory}
    (h : Run p reader ts w) (fs : FileSystem) :
    (w.backend.store.relationships.values.map PairKey.of).Nodup ∧
    ∃ report, Project.clean Memory.backend ⟨fs, w.backend⟩ = (.ok report, ⟨fs, w.backend⟩) ∧
      report.removed = 0 ∧ report.before = w.backend.store.relationships.values.length ∧
      report.after = report.before := by
  have horderly := h.orderly
  have hclean := Project.clean_eq (w := ⟨fs, w.backend⟩) horderly.proper_of_mem
  exact ⟨horderly.nodup_pairs, _, hclean, rfl, rfl, horderly.length_reduced⟩

namespace Trial

/-- After two syncs there is something to clean, and cleaning leaves it. -/
theorem clean_second : ∃ w, Run project reader [second, first] w ∧
    w.backend.store.relationships.values ≠ [] ∧
    (w.backend.store.relationships.values.map PairKey.of).Nodup ∧
    ∃ report, Project.clean Memory.backend ⟨second.files, w.backend⟩ =
        (.ok report, ⟨second.files, w.backend⟩) ∧
      report.removed = 0 ∧ report.before = w.backend.store.relationships.values.length ∧
      report.after = report.before := by
  obtain ⟨_, fs, hstate, hrun⟩ := run_first
  obtain ⟨fs', _, hleads⟩ := leads_second { Memory.empty with store := before.store reader .empty }
  have hrun' := hrun.turn (state_second.trans hstate.symm) hleads
  refine ⟨_, hrun', ?_, hrun'.clean_removes_nothing second.files⟩
  show (after.store reader (before.store reader .empty)).relationships.values ≠ []
  decide +kernel

end Trial

end CodeAtlas
