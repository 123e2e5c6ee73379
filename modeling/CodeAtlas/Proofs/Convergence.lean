/-
# Cleaning converges in one pass

Reducing what a reduction left takes out nothing (`Reduction.perm_of_perm_kept`). One relationship is left
for each pair of nodes, so no stage has two to choose from. And the filter, which looks at the whole
batch, lets pass again what it let pass before: with fewer relationships there are fewer pairs beside
whose relationship a mere reference is redundant.

Cleaning removes relationships by their ids. In a graph in memory an id belongs to one relationship, so
exactly what the reduction leaves stays, as it was (`Store.relationships_remove_redundant`), and what is
removed is counted right (`Store.countPresent_redundant`). A second cleaning removes nothing
(`Memory.clean_converges`).

Key definitions: `Memory.Cleaned`.
Key theorems: `Reduction.settled_of_passing`, `Reduction.perm_of_perm_kept`,
`Store.relationships_remove_redundant`, `Store.countPresent_redundant`, `Memory.clean_converges`.
-/
import CodeAtlas.Proofs.Integrity
import CodeAtlas.Proofs.Syncing

namespace CodeAtlas

/-! ### Reducing twice -/

namespace Reduce

variable {r : Relationship}

/-- With fewer pairs that have a specific relationship, no less is good enough. -/
theorem passes_of_subset {specific specific' : List PairKey} (hsub : specific ⊆ specific')
    (h : passes specific' r = true) : passes specific r = true := by
  unfold passes at h ⊢
  split at h
  · cases h
  · rename_i hconfident
    rw [if_neg hconfident]
    split at h
    · exact h
    · simp only [Bool.not_eq_true', List.contains_eq_mem, decide_eq_false_iff_not] at h ⊢
      exact fun hmem => h (hsub hmem)
    · rfl

theorem specificPairs_subset {rs rs' : List Relationship} (hsub : rs ⊆ rs') :
    specificPairs rs ⊆ specificPairs rs' := by
  intro k hk
  obtain ⟨r, hr, rfl⟩ := List.mem_map.mp hk
  obtain ⟨hr, hkind⟩ := List.mem_filter.mp hr
  exact List.mem_map.mpr ⟨r, List.mem_filter.mpr ⟨hsub hr, hkind⟩, rfl⟩

end Reduce

namespace Reduction

open Reduce

variable {rs l : List Relationship} {r : Relationship}

theorem nodup_triples_of_pairs (h : (rs.map PairKey.of).Nodup) : (rs.map TripleKey.of).Nodup := by
  have hpairs : rs.map PairKey.of = (rs.map TripleKey.of).map fun k => ⟨k.source, k.target⟩ := by
    rw [List.map_map]
    rfl
  rw [hpairs] at h
  exact .of_map _ h

/-- Where there is one relationship for each pair, the first stage takes out nothing. -/
theorem exact_perm_of_pairs (h : (rs.map PairKey.of).Nodup) : (afterExact rs).Perm rs :=
  reduceBy_perm (nodup_triples_of_pairs h)

section Passing

variable (hpairs : (rs.map PairKey.of).Nodup) (hpass : ∀ r ∈ rs, passes (specificPairs rs) r = true)
include hpairs hpass

theorem settled_of_passing : Settled rs := by
  have hexact := exact_perm_of_pairs hpairs
  refine ⟨(hexact.map PairKey.of).nodup_iff.mpr hpairs, fun r hr => ?_⟩
  exact passes_of_subset (specificPairs_subset hexact.subset) (hpass r (hexact.mem_iff.mp hr))

/-- Where there is one relationship for each pair and all are good enough, none is taken out. -/
theorem perm_of_passing : (of rs).relationships.Perm rs :=
  (settled_of_passing hpairs hpass).relationships_perm.trans (exact_perm_of_pairs hpairs)

end Passing

theorem nodup_kept (rs : List Relationship) : ((of rs).relationships.map PairKey.of).Nodup :=
  nodup_reduceBy PairKey.of _

/-- What is left is good enough beside what is left. -/
theorem passes_of_kept (h : r ∈ (of rs).relationships) :
    passes (specificPairs (of rs).relationships) r = true := by
  have hfiltered : ∀ {c}, c ∈ (of rs).relationships →
      c ∈ reduceBy TripleKey.of rs ∧ passes (specificPairs (reduceBy TripleKey.of rs)) c = true := by
    intro c hc
    obtain ⟨hc, hpass⟩ := List.mem_filter.mp (mem_of_mem_reduceBy hc)
    exact ⟨mem_of_mem_reduceBy hc, hpass⟩
  exact passes_of_subset (specificPairs_subset fun c hc => (hfiltered hc).1) (hfiltered h).2

/-- Reducing what a reduction left, in any order, takes out nothing. -/
theorem perm_of_perm_kept (h : l.Perm (of rs).relationships) : (of l).relationships.Perm l := by
  refine perm_of_passing ((h.map PairKey.of).nodup_iff.mpr (nodup_kept rs)) fun r hr => ?_
  exact passes_of_subset (specificPairs_subset h.subset) (passes_of_kept (h.mem_iff.mp hr))

end Reduction

/-! ### The ids that are removed -/

theorem Ordered.mem_distinct {κ : Type} [Ord κ] [Std.TransOrd κ] [Std.LawfulEqOrd κ] [DecidableEq κ]
    {l : List κ} {k : κ} : k ∈ Ordered.distinct l ↔ k ∈ l := by
  rw [Ordered.distinct, SortedMap.mem_keys, SortedMap.contains_iff]
  constructor
  · rintro ⟨v, hv⟩
    simpa using SortedMap.mem_of_get?_ofList hv
  · intro hk
    refine ⟨(), ?_⟩
    rw [SortedMap.ofList_eq_writes]
    exact SortedMap.get?_writes_of_mem (b := (k, ())) (by simpa using hk) rfl fun _ _ _ => rfl

namespace Reduction

variable {rs : List Relationship} {r : Relationship}

theorem mem_removedIds {id : String} : id ∈ (of rs).removedIds rs ↔
    id ∈ rs.map (·.id) ∧ id ∉ (of rs).relationships.map (·.id) := by
  rw [removedIds, Ordered.mem_distinct, List.mem_filter]
  simp

theorem nodup_removedIds : ((of rs).removedIds rs).Nodup := SortedMap.nodup_keys _

/-- Where ids tell relationships apart, an id is removed where its relationship is not left. -/
theorem mem_removedIds_iff (hids : (rs.map (·.id)).Nodup) (hr : r ∈ rs) :
    r.id ∈ (of rs).removedIds rs ↔ r ∉ (of rs).relationships := by
  rw [mem_removedIds]
  constructor
  · rintro ⟨_, hnot⟩ hkept
    exact hnot (List.mem_map_of_mem hkept)
  · intro hnot
    refine ⟨List.mem_map_of_mem hr, fun hid => ?_⟩
    obtain ⟨c, hc, hcid⟩ := List.mem_map.mp hid
    exact hnot (List.inj_on_of_nodup_map hids (mem_of_mem hc) hr hcid ▸ hc)

/-- Where ids tell relationships apart, every one of them is left or its id is removed. -/
theorem length_removedIds (hids : (rs.map (·.id)).Nodup) :
    ((of rs).removedIds rs).length + (of rs).relationships.length = rs.length := by
  have hkept : (rs.filter fun r => decide (r ∈ (of rs).relationships)).Perm (of rs).relationships := by
    refine (List.perm_ext_iff_of_nodup ((List.Nodup.of_map _ hids).filter _)
      (.of_map _ (nodup_kept rs))).mpr fun r => ?_
    rw [List.mem_filter, decide_eq_true_eq]
    exact ⟨And.right, fun h => ⟨mem_of_mem h, h⟩⟩
  have hgone : ((of rs).removedIds rs).Perm
      ((rs.filter fun r => !decide (r ∈ (of rs).relationships)).map (·.id)) := by
    refine (List.perm_ext_iff_of_nodup nodup_removedIds
      (hids.sublist (List.filter_sublist.map _))).mpr fun id => ?_
    constructor
    · intro hid
      obtain ⟨r, hr, rfl⟩ := List.mem_map.mp (mem_removedIds.mp hid).1
      have hnot := (mem_removedIds_iff hids hr).mp hid
      exact List.mem_map_of_mem (List.mem_filter.mpr ⟨hr, by simpa using hnot⟩)
    · intro hid
      obtain ⟨r, hr, rfl⟩ := List.mem_map.mp hid
      obtain ⟨hr, hnot⟩ := List.mem_filter.mp hr
      exact (mem_removedIds_iff hids hr).mpr (by simpa using hnot)
  rw [hgone.length_eq, List.length_map, ← hkept.length_eq, Nat.add_comm]
  exact (List.length_eq_length_filter_add _).symm

theorem removedIds_of_perm (h : (of rs).relationships.Perm rs) : (of rs).removedIds rs = [] := by
  refine List.eq_nil_iff_forall_not_mem.mpr fun id hid => ?_
  obtain ⟨hmem, hnot⟩ := mem_removedIds.mp hid
  exact hnot ((h.map _).mem_iff.mpr hmem)

end Reduction

/-! ### Removing what is redundant -/

namespace Store

variable {s : Store}

theorem nodup_ids (hk : Keyed s.relationships) : (s.relationships.values.map (·.id)).Nodup := by
  rw [SortedMap.map_values hk]
  exact SortedMap.nodup_keys _

/-- The relationships that reducing those of the store leaves. -/
def survivors (s : Store) : List Relationship := (Reduction.of s.relationships.values).relationships

/-- The ids that reducing the relationships of the store leaves out. -/
def redundant (s : Store) : List String :=
  (Reduction.of s.relationships.values).removedIds s.relationships.values

/-- Where redundant ids are removed, the relationships that are left stay as they were. -/
theorem relationships_remove_redundant (hk : Keyed s.relationships) :
    (s.remove s.redundant).relationships =
      s.relationships.filter fun _ r => decide (r ∈ s.survivors) := by
  refine SortedMap.ext_get? fun i => ?_
  rw [remove, get?_foldl_erase, SortedMap.get?_filter]
  cases hi : s.relationships.get? i with
  | none => simp
  | some r =>
    have hr : r ∈ s.relationships.values := SortedMap.mem_values.mpr ⟨i, hi⟩
    have hid : i ∈ s.redundant ↔ r ∉ s.survivors := by
      rw [← hk hi]
      exact Reduction.mem_removedIds_iff (nodup_ids hk) hr
    by_cases hkept : r ∈ s.survivors
    · simp [hid, hkept, Option.filter_some]
    · simp [hid, hkept, Option.filter_some]

theorem values_remove_redundant (hk : Keyed s.relationships) :
    (s.remove s.redundant).relationships.values.Perm s.survivors := by
  rw [relationships_remove_redundant hk, SortedMap.values_filter]
  refine (List.perm_ext_iff_of_nodup ((List.Nodup.of_map _ (nodup_ids hk)).filter _)
    (.of_map _ (Reduction.nodup_kept _))).mpr fun r => ?_
  rw [List.mem_filter, decide_eq_true_eq]
  exact ⟨And.right, fun h => ⟨Reduction.mem_of_mem h, h⟩⟩

/-- Ids that are there and differ are all counted. -/
theorem countPresent_eq : ∀ {ids : List String} {m : SortedMap String Relationship}, ids.Nodup →
    (∀ id ∈ ids, m.contains id = true) → Memory.countPresent m ids = ids.length
  | [], _, _, _ => rfl
  | id :: ids, m, hnodup, hmem => by
    obtain ⟨hid, hnodup⟩ := List.nodup_cons.mp hnodup
    have hrest : ∀ other ∈ ids, (m.erase id).contains other = true := by
      intro other hother
      obtain ⟨r, hr⟩ := SortedMap.contains_iff.mp (hmem other (List.mem_cons_of_mem _ hother))
      refine SortedMap.contains_of_get? (v := r) ?_
      have hne : id ≠ other := fun he => hid (he ▸ hother)
      rw [SortedMap.get?_erase_eq, if_neg hne, hr]
    rw [Memory.countPresent, hmem id List.mem_cons_self, countPresent_eq hnodup hrest,
      List.length_cons, Nat.add_comm]
    rfl

/-- The number of relationships removed. -/
theorem countPresent_redundant (hk : Keyed s.relationships) :
    Memory.countPresent s.relationships s.redundant + s.survivors.length =
      s.relationships.values.length := by
  have hpresent : ∀ id ∈ s.redundant, s.relationships.contains id = true := by
    intro id hid
    obtain ⟨r, hr, rfl⟩ := List.mem_map.mp (Reduction.mem_removedIds.mp hid).1
    obtain ⟨i, hi⟩ := SortedMap.mem_values.mp hr
    exact SortedMap.contains_of_get? ((hk hi).symm ▸ hi)
  have hcount : Memory.countPresent s.relationships s.redundant = s.redundant.length :=
    countPresent_eq Reduction.nodup_removedIds hpresent
  rw [hcount]
  exact Reduction.length_removedIds (nodup_ids hk)

/-- Of what is left, nothing is redundant. -/
theorem redundant_remove_redundant (hk : Keyed s.relationships) :
    (s.remove s.redundant).redundant = [] :=
  Reduction.removedIds_of_perm (Reduction.perm_of_perm_kept (values_remove_redundant hk))

end Store

/-! ### Cleaning -/

namespace Memory

/-- What a cleaning made of a graph: of the relationships those are left that reducing them leaves, as they
were and at most one for each pair of nodes; the nodes are as they were, and the report counts right. -/
structure Cleaned (m m' : Memory) (report : CleanReport) : Prop where
  relationships : m'.store.relationships =
    m.store.relationships.filter fun _ r => decide (r ∈ m.store.survivors)
  survivors : m'.store.relationships.values.Perm m.store.survivors
  distinct : (m'.store.relationships.values.map PairKey.of).Nodup
  nodes : m'.store.nodes = m.store.nodes
  before : report.before = m.store.relationships.values.length
  after : report.after = m'.store.relationships.values.length
  removed : report.removed + report.after = report.before

theorem cleaned_of_keyed {m : Memory} (hk : Store.Keyed m.store.relationships) (fs : FileSystem) :
    ∃ report, Project.clean backend ⟨fs, m⟩ =
        (.ok report, ⟨fs, { m with store := m.store.remove m.store.redundant }⟩) ∧
      Cleaned m { m with store := m.store.remove m.store.redundant } report := by
  refine ⟨_, Project.clean_memory fs m rfl, ?_⟩
  have hperm := Store.values_remove_redundant hk
  exact
    { relationships := Store.relationships_remove_redundant hk
      survivors := hperm
      distinct := (hperm.map PairKey.of).nodup_iff.mpr (Reduction.nodup_kept _)
      nodes := rfl
      before := rfl
      after := hperm.length_eq.symm
      removed := Store.countPresent_redundant hk }

/-- Cleaning a graph in which nothing is redundant removes nothing. -/
theorem clean_of_settled {m : Memory} (h : m.store.redundant = []) (fs : FileSystem) :
    ∃ report, Project.clean backend ⟨fs, m⟩ = (.ok report, ⟨fs, m⟩) ∧ report.removed = 0 :=
  ⟨_, Project.clean_memory fs m h, rfl⟩

/-- Whatever calls a graph in memory was given, cleaning it succeeds and leaves what reducing its
relationships leaves, and cleaning it once more removes nothing and changes nothing. -/
theorem clean_converges (calls : List GraphCall) (fs : FileSystem) :
    ∃ report m', Project.clean backend ⟨fs, after calls⟩ = (.ok report, ⟨fs, m'⟩) ∧
      Cleaned (after calls) m' report ∧
      ∃ report', Project.clean backend ⟨fs, m'⟩ = (.ok report', ⟨fs, m'⟩) ∧ report'.removed = 0 := by
  have hk : Store.Keyed (after calls).store.relationships := (integral calls).relationships
  generalize after calls = m at hk
  obtain ⟨report, hclean, hcleaned⟩ := cleaned_of_keyed hk fs
  have hagain := clean_of_settled (m := { m with store := m.store.remove m.store.redundant })
    (Store.redundant_remove_redundant hk) fs
  exact ⟨report, _, hclean, hcleaned, hagain⟩

end Memory

end CodeAtlas
