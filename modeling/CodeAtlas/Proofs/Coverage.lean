/-
# Every path has its place in a plan

Whether a plan is full or goes by the changes, its lists ascend strictly. A current file is read or unchanged
and a known one is retired or unchanged, never both (`SyncPlan.Covers`). A plan that goes by the changes joins
two lists and sorts them again; they ascend strictly since no path is in both (`ChangeSet.nodup_retired`).

Key definitions: `SyncPlan.lists`, `SyncPlan.Covers`.
Key theorems: `ChangeSet.ascending_sort`, `SyncPlan.ascending_ofFull`, `SyncPlan.ascending_ofChanges`,
`SyncPlan.covers_of_make`.
-/
import CodeAtlas.Proofs.Lookup
import CodeAtlas.Proofs.Plans

namespace CodeAtlas

/-- The keys of a map ascend strictly. -/
theorem SortedMap.keys_pairwise_lt {α : Type} (m : SortedMap String α) : m.keys.Pairwise (· < ·) := by
  rw [keys, List.pairwise_map]
  exact m.ascending.imp compare_lt_iff_lt.mp

namespace ChangeSet

theorem precedes_iff (a b : String) : precedes a b = true ↔ a ≤ b := by
  rw [precedes, Ordering.isLE_iff_ne_gt]
  exact compare_le_iff_le

/-- A list without a path twice ascends strictly once it is sorted. -/
theorem ascending_sort {l : List String} (h : (Ordered.sort precedes l).Nodup) :
    (Ordered.sort precedes l).Pairwise (· < ·) := by
  have hle : (Ordered.sort precedes l).Pairwise (· ≤ ·) :=
    Ordered.ascending_sort (f := id) precedes_iff l
  exact (hle.and h).imp fun hab => lt_of_le_of_ne hab.1 hab.2

/-- A changed file is there and a deleted one is not, so no file is retired twice. -/
theorem nodup_retired (previous current : FingerprintMap) :
    (Ordered.sort precedes
      ((between previous current).changed ++ (between previous current).deleted)).Nodup := by
  rw [(Ordered.sort_perm _ _).nodup_iff, List.nodup_append]
  refine ⟨SortedMap.nodup_keys _, SortedMap.nodup_keys _, fun q hchanged q' hdeleted hq => ?_⟩
  subst hq
  obtain ⟨f, old, hf, _, _⟩ := SyncPlan.mem_changed.mp hchanged
  have hgone := (SyncPlan.mem_deleted.mp hdeleted).2
  rw [hgone] at hf
  cases hf

end ChangeSet

namespace SyncPlan

/-- All lists of paths of a plan. -/
def lists (plan : SyncPlan) : List (List String) :=
  [plan.changes.added, plan.changes.changed, plan.changes.deleted, plan.changes.unchanged,
   plan.changes.toExtract, plan.retire]

/-- Each path of a state and of the current files has its place in the plan. -/
structure Covers (plan : SyncPlan) (state : SyncState) (current : FingerprintMap) : Prop where
  ascending : ∀ l ∈ plan.lists, l.Pairwise (· < ·)
  extract_disjoint : plan.changes.toExtract.Disjoint plan.changes.unchanged
  extract_or : ∀ q, q ∈ plan.changes.toExtract ∨ q ∈ plan.changes.unchanged ↔ q ∈ current.keys
  retire_disjoint : plan.retire.Disjoint plan.changes.unchanged
  retire_or : ∀ q, q ∈ plan.retire ∨ q ∈ plan.changes.unchanged ↔ q ∈ state.files.keys
  deleted : ∀ q, q ∈ plan.changes.deleted ↔ q ∈ state.files.keys ∧ q ∉ current.keys
  unchanged : ∀ q, q ∈ plan.changes.unchanged ↔ plan.full = false ∧
    ∃ f, state.files.get? q = some f ∧ current.get? q = some f ∧ f.readable = true

variable (state : SyncState) (current : FingerprintMap)

theorem ascending_ofFull : ∀ l ∈ (ofFull state current).lists, l.Pairwise (· < ·) := by
  have hread := ChangeSet.ascending_sort (follows_ofFull state current).nodup
  intro l hl
  simp only [lists, ofFull, ChangeSet.toExtract, List.mem_cons, List.not_mem_nil, or_false] at hl
  rcases hl with rfl | rfl | rfl | rfl | rfl | rfl
  · exact current.keys_pairwise_lt
  · exact .nil
  · exact SortedMap.keys_pairwise_lt _
  · exact .nil
  · exact hread
  · exact state.files.keys_pairwise_lt

theorem ascending_ofChanges : ∀ l ∈ (ofChanges state current).lists, l.Pairwise (· < ·) := by
  have hread := ChangeSet.ascending_sort (follows_ofChanges state current).nodup
  have hretire := ChangeSet.ascending_sort (ChangeSet.nodup_retired state.files current)
  intro l hl
  simp only [lists, ofChanges, ChangeSet.toExtract, List.mem_cons, List.not_mem_nil, or_false] at hl
  rcases hl with rfl | rfl | rfl | rfl | rfl | rfl
  · exact SortedMap.keys_pairwise_lt _
  · exact SortedMap.keys_pairwise_lt _
  · exact SortedMap.keys_pairwise_lt _
  · exact SortedMap.keys_pairwise_lt _
  · exact hread
  · exact hretire

/-- A plan that follows the state covers its paths, once its lists ascend and no deleted or unchanged file is
left out. -/
theorem Follows.covers {plan : SyncPlan} {state : SyncState} {current : FingerprintMap}
    (h : plan.Follows state current) (hasc : ∀ l ∈ plan.lists, l.Pairwise (· < ·))
    (hdeleted : ∀ q, q ∈ plan.changes.deleted ↔ q ∈ state.files.keys ∧ q ∉ current.keys)
    (hsame : plan.full = false → ∀ q f, state.files.get? q = some f → current.get? q = some f →
      f.readable = true → q ∈ plan.changes.unchanged) : plan.Covers state current where
  ascending := hasc
  extract_disjoint q hread hkept := ((h.extract q).mp hread).2 hkept
  extract_or q := by
    have hknown : q ∈ plan.changes.unchanged → current.contains q = true := fun hq => by
      obtain ⟨_, f, _, hf, _⟩ := h.unchanged q hq
      exact SortedMap.contains_of_get? hf
    rw [h.extract, SortedMap.mem_keys]
    tauto
  retire_disjoint q hretire hkept := ((h.retire q).mp hretire).2 hkept
  retire_or q := by
    have hknown : q ∈ plan.changes.unchanged → state.files.contains q = true := fun hq => by
      obtain ⟨_, f, hf, _, _⟩ := h.unchanged q hq
      exact SortedMap.contains_of_get? hf
    rw [h.retire, SortedMap.mem_keys]
    tauto
  deleted := hdeleted
  unchanged q := by
    constructor
    · exact h.unchanged q
    · rintro ⟨hfull, f, hold, hnow, hread⟩
      exact hsame hfull q f hold hnow hread

theorem mem_keys_absent {q : String} :
    q ∈ (state.files.filter fun path _ => !current.contains path).keys ↔
      q ∈ state.files.keys ∧ q ∉ current.keys := by
  rw [SortedMap.mem_keys_filter, SortedMap.mem_keys, SortedMap.mem_keys, SortedMap.contains_iff]
  simp

/-- Every path of the state and of the current files has its place in the plan of a run. -/
theorem covers_of_make {config : SyncConfig} {state : SyncState} {current : FingerprintMap} {now : Int}
    {force : Bool} {plan : SyncPlan} (h : make config state current now force = some plan) :
    plan.Covers state current := by
  rcases make_cases h with rfl | ⟨_, rfl⟩
  · refine (follows_ofFull state current).covers (ascending_ofFull state current)
      (fun q => mem_keys_absent state current) fun hfull => ?_
    cases hfull
  · refine (follows_ofChanges state current).covers (ascending_ofChanges state current)
      (fun q => mem_keys_absent state current) fun _ q f hold hnow hread => ?_
    exact mem_unchanged.mpr ⟨f, hnow, hold, hread⟩

end SyncPlan

namespace Trial

/-- A file known as it is, one known otherwise, one that is gone and one that could not be read. -/
def known : SyncState where
  lastSync := 0
  files := .ofList [("c.ts", ⟨3, 1, "c", true⟩), ("a.ts", ⟨1, 1, "a", true⟩), ("b.ts", ⟨2, 1, "b", true⟩),
    ("d.ts", .unreadable 4 1)]
  symbols := .empty
  version := SyncState.currentVersion

/-- The first as it was, the second touched, the last still unreadable, and a new one. -/
def met : FingerprintMap :=
  .ofList [("e.ts", ⟨5, 1, "e", true⟩), ("d.ts", .unreadable 4 1), ("b.ts", ⟨2, 2, "b", true⟩),
    ("a.ts", ⟨1, 1, "a", true⟩)]

/-- After a week the plan goes by the changes, and a millisecond later it is full. -/
theorem covers_known : ∃ changes full : SyncPlan,
    SyncPlan.make {} known met 604800000 false = some changes ∧ changes.full = false ∧
      changes.changes = ⟨["e.ts"], ["b.ts", "d.ts"], ["c.ts"], ["a.ts"]⟩ ∧
      changes.changes.toExtract = ["b.ts", "d.ts", "e.ts"] ∧ changes.retire = ["b.ts", "c.ts", "d.ts"] ∧
      changes.Covers known met ∧
    SyncPlan.make {} known met 604800001 false = some full ∧ full.full = true ∧
      full.Covers known met := by
  have hchanges : SyncPlan.make {} known met 604800000 false = some (.ofChanges known met) := by
    decide +kernel
  have hfull : SyncPlan.make {} known met 604800001 false = some (.ofFull known met) := by
    decide +kernel
  refine ⟨_, _, hchanges, rfl, by decide +kernel, by decide +kernel, by decide +kernel, ?_, hfull, rfl, ?_⟩
  · exact SyncPlan.covers_of_make hchanges
  · exact SyncPlan.covers_of_make hfull

end Trial

end CodeAtlas
