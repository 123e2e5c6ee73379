/-
# What a plan reads and retires

A plan is full or it goes by the changes. Either way it tells the files apart by one list, the
unchanged ones: it retires the known files that are not in it, and reads the files of the project that
are not in it (`SyncPlan.Follows`). An unchanged file is known with the fingerprint it has, and only a
plan that goes by the changes has any. They stand in ascending order, so that one is found by halving.

Key definitions: `SyncPlan.Follows`.
Key theorems: `SyncPlan.follows_ofFull`, `SyncPlan.follows_ofChanges`, `SyncPlan.follows_of_make`.
-/
import CodeAtlas.Proofs.SortedMap
import CodeAtlas.Sync.Plan

namespace CodeAtlas

namespace SyncPlan

/-- The plan goes from the files of a state to the current files. -/
structure Follows (plan : SyncPlan) (state : SyncState) (current : FingerprintMap) : Prop where
  fingerprints : plan.fingerprints = current
  retire : ∀ q, q ∈ plan.retire ↔ state.files.contains q = true ∧ q ∉ plan.changes.unchanged
  extract : ∀ q, q ∈ plan.changes.toExtract ↔ current.contains q = true ∧ q ∉ plan.changes.unchanged
  unchanged : ∀ q ∈ plan.changes.unchanged, plan.full = false ∧
    ∃ f, state.files.get? q = some f ∧ current.get? q = some f ∧ f.readable = true
  nodup : plan.changes.toExtract.Nodup

theorem mem_toExtract {c : ChangeSet} {q : String} :
    q ∈ c.toExtract ↔ q ∈ c.added ∨ q ∈ c.changed := by
  rw [ChangeSet.toExtract, Ordered.mem_sort, List.mem_append]

theorem nodup_toExtract {c : ChangeSet} (ha : c.added.Nodup) (hc : c.changed.Nodup)
    (hd : ∀ q ∈ c.added, q ∉ c.changed) : c.toExtract.Nodup := by
  rw [ChangeSet.toExtract, (Ordered.sort_perm _ _).nodup_iff, List.nodup_append]
  refine ⟨ha, hc, fun a hma b hmb e => ?_⟩
  exact hd a hma (e ▸ hmb)

theorem follows_ofFull (state : SyncState) (current : FingerprintMap) :
    (ofFull state current).Follows state current where
  fingerprints := rfl
  retire q := by simp [ofFull, SortedMap.mem_keys]
  extract q := by simp [mem_toExtract, ofFull, SortedMap.mem_keys]
  unchanged q hq := by simp [ofFull] at hq
  nodup := nodup_toExtract (SortedMap.nodup_keys _) .nil (by simp [ofFull])

section Changes

variable {previous current : FingerprintMap} {q : String}

theorem mem_added : q ∈ (ChangeSet.between previous current).added ↔
    (∃ f, current.get? q = some f) ∧ previous.get? q = none := by
  rw [ChangeSet.between, SortedMap.mem_keys_filter, ← SortedMap.contains_eq_false_iff]
  simp

theorem mem_changed : q ∈ (ChangeSet.between previous current).changed ↔
    ∃ f old, current.get? q = some f ∧ previous.get? q = some old ∧
      ¬(f.readable = true ∧ old = f) := by
  rw [ChangeSet.between, SortedMap.mem_keys_filter]
  constructor
  · rintro ⟨f, hf, h⟩
    obtain ⟨old, ho, h⟩ := (Option.any_eq_true ..).mp h
    refine ⟨f, old, hf, ho, ?_⟩
    rintro ⟨hr, rfl⟩
    simp [hr] at h
  · rintro ⟨f, old, hf, ho, h⟩
    refine ⟨f, hf, (Option.any_eq_true ..).mpr ⟨old, ho, ?_⟩⟩
    by_cases hr : f.readable = true
    · simpa [hr] using h
    · simp [hr]

theorem mem_deleted : q ∈ (ChangeSet.between previous current).deleted ↔
    (∃ old, previous.get? q = some old) ∧ current.get? q = none := by
  rw [ChangeSet.between, SortedMap.mem_keys_filter, ← SortedMap.contains_eq_false_iff]
  simp

theorem mem_unchanged : q ∈ (ChangeSet.between previous current).unchanged ↔
    ∃ f, current.get? q = some f ∧ previous.get? q = some f ∧ f.readable = true := by
  rw [ChangeSet.between, SortedMap.mem_keys_filter]
  constructor
  · rintro ⟨f, hf, h⟩
    obtain ⟨old, ho, h⟩ := (Option.any_eq_true ..).mp h
    simp only [Bool.and_eq_true, beq_iff_eq] at h
    exact ⟨f, hf, h.2 ▸ ho, h.1⟩
  · rintro ⟨f, hf, ho, h⟩
    exact ⟨f, hf, (Option.any_eq_true ..).mpr ⟨f, ho, by simp [h]⟩⟩

end Changes

theorem follows_ofChanges (state : SyncState) (current : FingerprintMap) :
    (ofChanges state current).Follows state current where
  fingerprints := rfl
  retire q := by
    show q ∈ Ordered.sort _ _ ↔ _ ∧ q ∉ (ChangeSet.between state.files current).unchanged
    rw [Ordered.mem_sort, List.mem_append, mem_changed, mem_deleted, mem_unchanged,
      SortedMap.contains_iff]
    cases state.files.get? q <;> cases current.get? q <;> grind
  extract q := by
    show q ∈ (ChangeSet.between state.files current).toExtract ↔
      _ ∧ q ∉ (ChangeSet.between state.files current).unchanged
    rw [mem_toExtract, mem_added, mem_changed, mem_unchanged, SortedMap.contains_iff]
    cases state.files.get? q <;> cases current.get? q <;> grind
  unchanged q hq := by
    obtain ⟨f, hf, ho, hr⟩ := mem_unchanged.mp hq
    exact ⟨rfl, f, ho, hf, hr⟩
  nodup := by
    refine nodup_toExtract (SortedMap.nodup_keys _) (SortedMap.nodup_keys _) fun q ha hc => ?_
    obtain ⟨f, old, _, ho, _⟩ := mem_changed.mp hc
    rw [(mem_added.mp ha).2] at ho
    cases ho

theorem make_cases {config : SyncConfig} {state : SyncState} {current : FingerprintMap} {now : Int}
    {force : Bool} {plan : SyncPlan} (h : make config state current now force = some plan) :
    plan = ofFull state current ∨ (force = false ∧ plan = ofChanges state current) := by
  unfold make at h
  split at h
  · exact .inl (Option.some.inj h).symm
  · rename_i hf
    obtain ⟨stale, _, hp⟩ := Option.map_eq_some_iff.mp h
    split at hp
    · exact .inl hp.symm
    · exact .inr ⟨by simpa using hf, hp.symm⟩

theorem make_forced (config : SyncConfig) (state : SyncState) (current : FingerprintMap) (now : Int) :
    make config state current now true = some (.ofFull state current) := rfl

/-- Where no file is known, every plan is full. -/
theorem make_fresh (config : SyncConfig) (current : FingerprintMap) (now : Int) (force : Bool) :
    make config .fresh current now force = some (.ofFull .fresh current) := by
  cases force <;> rfl

theorem follows_of_make {config : SyncConfig} {state : SyncState} {current : FingerprintMap}
    {now : Int} {force : Bool} {plan : SyncPlan}
    (h : make config state current now force = some plan) : plan.Follows state current := by
  rcases make_cases h with rfl | ⟨_, rfl⟩
  · exact follows_ofFull state current
  · exact follows_ofChanges state current

/-- The unchanged files stand in ascending order. -/
theorem halving_unchanged {config : SyncConfig} {state : SyncState} {current : FingerprintMap}
    {now : Int} {force : Bool} {plan : SyncPlan}
    (h : make config state current now force = some plan) (q : String) :
    SortedMap.halving q plan.changes.unchanged = plan.changes.unchanged.contains q := by
  rw [Bool.eq_iff_iff, List.contains_iff_mem]
  rcases make_cases h with rfl | ⟨_, rfl⟩
  · exact SortedMap.halving_iff .nil
  · exact SortedMap.halving_iff (SortedMap.ascending_keys _)

end SyncPlan

end CodeAtlas
