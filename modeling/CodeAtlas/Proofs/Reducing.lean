/-
# What reducing keeps

Reducing by a key keeps, of the relationships of each key, one of them (`Reduce.mem_of_mem_reduceBy`,
`Reduce.exists_mem_reduceBy`), and only one (`Reduce.nodup_reduceBy`). Where the first of the four stages
leaves one relationship for each pair and all are good enough, the others take out nothing
(`Reduction.Settled.relationships_perm`). It is so where all relationships are proper, since two nodes
then have only one thing to say of each other: every relationship has one left that says the same
(`Reduction.exists_mem_of_proper`), and reducing what a graph holds removes nothing
(`Reduction.removedIds_eq_nil`).

Which relationships are kept does not depend on the time a batch was made at
(`Reduction.relationships_stamp`).

Key definitions: `Reduction.afterExact`, `Reduction.afterSemantic`, `Reduction.afterFilter`,
`Reduction.afterHierarchy`, `Reduction.Settled`.
Key theorems: `Reduce.mem_of_mem_reduceBy`, `Reduce.exists_mem_reduceBy`, `Reduce.nodup_reduceBy`,
`Reduce.reduceBy_perm`, `Reduction.Settled.relationships_perm`, `Reduction.settled_of_proper`,
`Reduction.exists_mem_of_proper`, `Reduction.removedIds_eq_nil`, `Reduction.relationships_stamp`.
-/
import Mathlib.Data.List.Nodup
import Mathlib.Data.List.Perm.Subperm
import CodeAtlas.Proofs.Building

namespace CodeAtlas

namespace Reduce

set_option linter.unusedSectionVars false

variable {κ : Type} [Ord κ] [Std.TransOrd κ] [Std.LawfulEqOrd κ] [DecidableEq κ]
  {key : Relationship → κ}

/-! ### One step -/

theorem get?_keep {best : SortedMap κ Relationship} {r c : Relationship} {k : κ}
    (h : (keep key best r).get? k = some c) : best.get? k = some c ∨ (c = r ∧ key r = k) := by
  have hins : (best.insert (key r) r).get? k = some c → best.get? k = some c ∨ (c = r ∧ key r = k) := by
    intro h
    rw [SortedMap.get?_insert_eq] at h
    by_cases hk : k = key r
    · rw [if_pos hk] at h
      exact .inr ⟨(Option.some.inj h).symm, hk.symm⟩
    · rw [if_neg hk] at h
      exact .inl h
  unfold keep at h
  split at h
  · split at h
    · exact hins h
    · exact .inl h
  · exact hins h

theorem isSome_keep (best : SortedMap κ Relationship) (r : Relationship) {k : κ}
    (h : (best.get? k).isSome = true ∨ key r = k) : ((keep key best r).get? k).isSome = true := by
  have hins : ((best.insert (key r) r).get? k).isSome = true := by
    rw [SortedMap.get?_insert_eq]
    by_cases hk : k = key r
    · rw [if_pos hk]
      rfl
    · rw [if_neg hk]
      exact h.resolve_right fun e => hk e.symm
  unfold keep
  split
  · rename_i c hc
    split
    · exact hins
    · rcases h with h | rfl
      · exact h
      · rw [hc]
        rfl
  · exact hins

/-! ### A whole batch -/

theorem get?_foldl_keep : ∀ (rs : List Relationship) {best : SortedMap κ Relationship}
    {c : Relationship} {k : κ}, (rs.foldl (keep key) best).get? k = some c →
    best.get? k = some c ∨ (c ∈ rs ∧ key c = k)
  | [], _, _, _, h => .inl h
  | r :: rs, best, c, k, h => by
    rcases get?_foldl_keep rs h with h | ⟨hm, hk⟩
    · rcases get?_keep h with h | ⟨rfl, hk⟩
      · exact .inl h
      · exact .inr ⟨List.mem_cons_self, hk⟩
    · exact .inr ⟨List.mem_cons_of_mem _ hm, hk⟩

theorem isSome_foldl_keep : ∀ (rs : List Relationship) {best : SortedMap κ Relationship} {k : κ},
    (best.get? k).isSome = true ∨ (∃ r ∈ rs, key r = k) →
    ((rs.foldl (keep key) best).get? k).isSome = true
  | [], _, _, h => h.resolve_right (by simp)
  | r :: rs, best, k, h => by
    refine isSome_foldl_keep rs ?_
    rcases h with h | ⟨c, hc, hk⟩
    · exact .inl (isSome_keep best r (.inl h))
    · rcases List.mem_cons.mp hc with rfl | hc
      · exact .inl (isSome_keep best c (.inr hk))
      · exact .inr ⟨c, hc, hk⟩

/-- Reducing makes up nothing. -/
theorem mem_of_mem_reduceBy {rs : List Relationship} {r : Relationship}
    (h : r ∈ reduceBy key rs) : r ∈ rs := by
  obtain ⟨k, hk⟩ := SortedMap.mem_values.mp h
  rcases get?_foldl_keep rs hk with h | ⟨h, _⟩
  · cases h
  · exact h

/-- Every key that occurs is left. -/
theorem exists_mem_reduceBy (key : Relationship → κ) {rs : List Relationship} {r : Relationship}
    (h : r ∈ rs) :
    ∃ c ∈ reduceBy key rs, key c = key r := by
  have hs : ((rs.foldl (keep key) .empty).get? (key r)).isSome = true :=
    isSome_foldl_keep rs (.inr ⟨r, h, rfl⟩)
  obtain ⟨c, hc⟩ := Option.isSome_iff_exists.mp hs
  refine ⟨c, SortedMap.mem_values.mpr ⟨_, hc⟩, ?_⟩
  rcases get?_foldl_keep rs hc with h | ⟨_, h⟩
  · cases h
  · exact h

/-- What is left under a key has that key. -/
theorem key_of_get? {rs : List Relationship} {k : κ} {c : Relationship}
    (h : (rs.foldl (keep key) .empty).get? k = some c) : key c = k := by
  rcases get?_foldl_keep rs h with h | ⟨_, h⟩
  · cases h
  · exact h

/-- Every key is left once. -/
theorem nodup_reduceBy (key : Relationship → κ) (rs : List Relationship) :
    ((reduceBy key rs).map key).Nodup := by
  rw [reduceBy, SortedMap.map_values key_of_get?]
  exact SortedMap.nodup_keys _

theorem length_reduceBy_le (key : Relationship → κ) (rs : List Relationship) :
    (reduceBy key rs).length ≤ rs.length :=
  (List.Nodup.subperm (.of_map key (nodup_reduceBy key rs)) fun _ => mem_of_mem_reduceBy).length_le

/-- Where every key occurs once, nothing is taken out. -/
theorem reduceBy_perm {rs : List Relationship} (h : (rs.map key).Nodup) : (reduceBy key rs).Perm rs := by
  refine (List.perm_ext_iff_of_nodup (.of_map key (nodup_reduceBy key rs)) (.of_map key h)).mpr fun r =>
    ⟨mem_of_mem_reduceBy, fun hr => ?_⟩
  obtain ⟨c, hc, hk⟩ := exists_mem_reduceBy key hr
  have : c = r := List.inj_on_of_nodup_map h (mem_of_mem_reduceBy hc) hr hk
  exact this ▸ hc

end Reduce

namespace Reduction

open Reduce

variable {rs : List Relationship} {r : Relationship}

theorem mem_of_mem (h : r ∈ (of rs).relationships) : r ∈ rs :=
  mem_of_mem_reduceBy (mem_of_mem_reduceBy (List.mem_filter.mp (mem_of_mem_reduceBy h)).1)

/-- A proper relationship among proper ones is good enough. -/
theorem passes_of_proper (hp : ∀ c ∈ rs, c.Proper) (h : r.Proper) :
    passes (specificPairs rs) r = true := by
  unfold passes
  rw [if_neg h.confidence_passes]
  split
  · exact absurd ‹_› h.kind_ne_relatedTo
  · rename_i hk
    rw [Bool.not_eq_true', Bool.eq_false_iff]
    intro hc
    obtain ⟨c, hm, he⟩ := List.mem_map.mp (List.contains_iff_mem.mp hc)
    obtain ⟨hm, hspecific⟩ := List.mem_filter.mp hm
    have he : c.source = r.source ∧ c.target = r.target := by simpa [PairKey.of] using he
    rw [(hp c hm).kind_unique h he.1 he.2, hk] at hspecific
    exact absurd hspecific (by decide)
  · rfl

/-- Proper relationships that say different things have different ends. -/
theorem nodup_pairs (hp : ∀ c ∈ rs, c.Proper) (h : (rs.map TripleKey.of).Nodup) :
    (rs.map PairKey.of).Nodup := by
  refine List.Nodup.map_on (fun a ha b hb hab => ?_) (.of_map _ h)
  obtain ⟨hs, ht⟩ : a.source = b.source ∧ a.target = b.target := by simpa [PairKey.of] using hab
  have hk : a.kind = b.kind := (hp a ha).kind_unique (hp b hb) hs ht
  exact List.inj_on_of_nodup_map h ha hb (by rw [TripleKey.of, TripleKey.of, hs, hk, ht])

/-! ### The stages -/

/-- What the first stage leaves: one relationship for each thing that is said. -/
def afterExact (rs : List Relationship) : List Relationship := reduceBy TripleKey.of rs

/-- What the second stage leaves: one relationship for each pair. -/
def afterSemantic (rs : List Relationship) : List Relationship := reduceBy PairKey.of (afterExact rs)

/-- What the third stage leaves: those of them that are good enough. -/
def afterFilter (rs : List Relationship) : List Relationship :=
  (afterSemantic rs).filter (passes (specificPairs (afterExact rs)))

/-- What the last stage leaves: one relationship for each pair of these. -/
def afterHierarchy (rs : List Relationship) : List Relationship := reduceBy PairKey.of (afterFilter rs)

/-- The reduction, stage by stage. -/
theorem of_eq (rs : List Relationship) : of rs =
    { relationships := afterHierarchy rs
      byKind := countByKind (afterHierarchy rs)
      quality := Quality.of (afterHierarchy rs)
      stats :=
        { input := rs.length
          exactDuplicates := rs.length - (afterExact rs).length
          semanticReductions := (afterExact rs).length - (afterSemantic rs).length
          qualityFiltered := (afterSemantic rs).length - (afterFilter rs).length
          hierarchyReductions := (afterFilter rs).length - (afterHierarchy rs).length
          output := (afterHierarchy rs).length } } := rfl

/-- The first stage leaves one relationship for each pair, and all of them are good enough. -/
structure Settled (rs : List Relationship) : Prop where
  pairs : ((afterExact rs).map PairKey.of).Nodup
  passes : ∀ r ∈ afterExact rs, passes (specificPairs (afterExact rs)) r = true

namespace Settled

variable (h : Settled rs)
include h

/-- The second stage takes out nothing. -/
theorem semantic_perm : (afterSemantic rs).Perm (afterExact rs) := reduceBy_perm h.pairs

/-- The third stage takes out nothing. -/
theorem afterFilter_eq : afterFilter rs = afterSemantic rs :=
  List.filter_eq_self.mpr fun r hr => h.passes r (h.semantic_perm.mem_iff.mp hr)

/-- The last stage takes out nothing. -/
theorem relationships_perm : (of rs).relationships.Perm (afterExact rs) := by
  show (reduceBy PairKey.of (afterFilter rs)).Perm _
  rw [h.afterFilter_eq]
  exact (reduceBy_perm (nodup_reduceBy PairKey.of _)).trans h.semantic_perm

theorem stats_eq :
    (of rs).stats = ⟨rs.length, rs.length - (afterExact rs).length, 0, 0, 0, (afterExact rs).length⟩ := by
  have hlast : (afterHierarchy rs).length = (afterExact rs).length := h.relationships_perm.length_eq
  rw [of_eq, h.afterFilter_eq, h.semantic_perm.length_eq, hlast, Nat.sub_self]

end Settled

section Proper

variable (hp : ∀ c ∈ rs, c.Proper)
include hp

/-- Proper relationships of one pair say the same, so the first stage leaves one. -/
theorem settled_of_proper : Settled rs := by
  have hexact : ∀ c ∈ afterExact rs, c.Proper := fun c hc => hp c (mem_of_mem_reduceBy hc)
  exact ⟨nodup_pairs hexact (nodup_reduceBy TripleKey.of rs),
    fun r hr => passes_of_proper hexact (hexact r hr)⟩

theorem exists_mem_of_proper (h : r ∈ rs) : ∃ c ∈ (of rs).relationships, c.triple = r.triple := by
  obtain ⟨c, hc, hk⟩ := exists_mem_reduceBy TripleKey.of h
  simp only [TripleKey.of, TripleKey.mk.injEq] at hk
  refine ⟨c, (settled_of_proper hp).relationships_perm.mem_iff.mpr hc, ?_⟩
  rw [Relationship.triple, Relationship.triple, hk.1, hk.2.1, hk.2.2]

end Proper

theorem id_eq_of_triple {c : Relationship} (hc : c.Proper) (hr : r.Proper)
    (h : c.triple = r.triple) : c.id = r.id := by
  simp only [Relationship.triple, Prod.mk.injEq] at h
  rw [hc.id_eq, hr.id_eq, h.1, h.2.1, h.2.2]

/-- Reducing proper relationships removes none of their ids. -/
theorem removedIds_eq_nil (hp : ∀ c ∈ rs, c.Proper) : (of rs).removedIds rs = [] := by
  have hnone : (rs.map (·.id)).filter
      (fun id => !((of rs).relationships.map (·.id)).contains id) = [] := by
    rw [List.filter_eq_nil_iff]
    intro id hid
    obtain ⟨r, hr, rfl⟩ := List.mem_map.mp hid
    obtain ⟨c, hc, ht⟩ := exists_mem_of_proper hp hr
    have he : c.id = r.id := id_eq_of_triple (hp c (mem_of_mem hc)) (hp r hr) ht
    simpa using ⟨c, hc, he⟩
  rw [removedIds]
  simp only [hnone]
  rfl

end Reduction

/-! ### The time of a batch -/

namespace Reduce

variable (time : Int)

section Stamp

variable (r : Relationship)

theorem confidence_stamp : (r.stamp time).confidence = r.confidence := by
  simp [Relationship.confidence, Relationship.stamp, Relationship.withProperty,
    SortedMap.get?_insert_eq]

theorem description?_stamp : (r.stamp time).description? = r.description? := by
  simp [Relationship.description?, Relationship.stamp, Relationship.withProperty,
    SortedMap.get?_insert_eq]

theorem createdAt_stamp : (r.stamp time).createdAt = ((Json.int time).int?).getD 0 := by
  simp [Relationship.createdAt, Relationship.stamp, Relationship.withProperty]

theorem passes_stamp (specific : List PairKey) :
    passes specific (r.stamp time) = passes specific r := by
  have hg : isGeneric (r.stamp time) = isGeneric r := by
    rw [isGeneric, isGeneric, description?_stamp]
    rfl
  rw [passes, passes, confidence_stamp, hg]
  rfl

end Stamp

/-- Among relationships of one time, the preference does not depend on the time. -/
theorem preference_stamp (a b : Relationship) (time' : Int) :
    preference (a.stamp time) (b.stamp time) = preference (a.stamp time') (b.stamp time') := by
  simp only [preference, confidence_stamp, createdAt_stamp, Std.ReflCmp.compare_self]
  rfl

section Maps

set_option linter.unusedSectionVars false

variable {κ : Type} [Ord κ] [Std.TransOrd κ] [Std.LawfulEqOrd κ] [DecidableEq κ]
  {key : Relationship → κ} {time' : Int}

theorem insert_mapValues {α β : Type} (f : α → β) (m : SortedMap κ α) (k : κ) (v : α) :
    (m.mapValues fun _ => f).insert k (f v) = (m.insert k v).mapValues fun _ => f := by
  refine SortedMap.ext_get? fun q => ?_
  rw [SortedMap.get?_insert_eq, SortedMap.get?_mapValues, SortedMap.get?_mapValues,
    SortedMap.get?_insert_eq]
  split <;> rfl

theorem keep_stamp (hkey : ∀ r : Relationship, key (r.stamp time) = key r)
    {best : SortedMap κ Relationship} {r : Relationship}
    (hb : ∀ k c, best.get? k = some c → c.stamp time' = c) (hr : r.stamp time' = r) :
    keep key (best.mapValues fun _ => .stamp time) (r.stamp time) =
      (keep key best r).mapValues fun _ => .stamp time := by
  unfold keep
  rw [hkey, SortedMap.get?_mapValues]
  cases hc : best.get? (key r) with
  | none => exact insert_mapValues ..
  | some c =>
    have hpref : preference (c.stamp time) (r.stamp time) = preference c r := by
      rw [preference_stamp time c r time', hb _ c hc, hr]
    simp only [Option.map_some, hpref]
    split
    · exact insert_mapValues ..
    · rfl

theorem foldl_keep_stamp (hkey : ∀ r : Relationship, key (r.stamp time) = key r) :
    ∀ (rs : List Relationship) (best : SortedMap κ Relationship),
    (∀ k c, best.get? k = some c → c.stamp time' = c) → (∀ r ∈ rs, r.stamp time' = r) →
    (rs.map (.stamp time)).foldl (keep key) (best.mapValues fun _ => .stamp time) =
      (rs.foldl (keep key) best).mapValues fun _ => .stamp time
  | [], _, _, _ => rfl
  | r :: rs, best, hb, hrs => by
    have hr := hrs r List.mem_cons_self
    rw [List.map_cons, List.foldl_cons, List.foldl_cons, keep_stamp time hkey hb hr]
    refine foldl_keep_stamp hkey rs _ (fun k c hc => ?_) fun c hc => hrs c (List.mem_cons_of_mem _ hc)
    rcases get?_keep hc with hc | ⟨rfl, _⟩
    · exact hb k c hc
    · exact hr

theorem reduceBy_stamp (hkey : ∀ r : Relationship, key (r.stamp time) = key r)
    {rs : List Relationship} (hrs : ∀ r ∈ rs, r.stamp time' = r) :
    reduceBy key (rs.map (.stamp time)) = (reduceBy key rs).map (.stamp time) := by
  have := foldl_keep_stamp time hkey rs .empty (fun k c hc => by cases hc) hrs
  rw [reduceBy, reduceBy]
  rw [show (SortedMap.empty : SortedMap κ Relationship).mapValues (fun _ => Relationship.stamp time) =
    .empty from rfl] at this
  rw [this, SortedMap.values, SortedMap.values, SortedMap.mapValues, List.map_map, List.map_map]
  rfl

end Maps

end Reduce

open Reduce in
/-- Of a batch of one time, the same relationships are kept whatever the time is. -/
theorem Reduction.relationships_stamp (time : Int) {time' : Int} {rs : List Relationship}
    (h : ∀ r ∈ rs, r.stamp time' = r) :
    (of (rs.map (.stamp time))).relationships = (of rs).relationships.map (.stamp time) := by
  have hexact : ∀ r ∈ reduceBy TripleKey.of rs, r.stamp time' = r := fun r hr =>
    h r (mem_of_mem_reduceBy hr)
  have hsemantic : ∀ r ∈ reduceBy PairKey.of (reduceBy TripleKey.of rs), r.stamp time' = r :=
    fun r hr => hexact r (mem_of_mem_reduceBy hr)
  have hspecific : ∀ l : List Relationship,
      specificPairs (l.map (.stamp time)) = specificPairs l := by
    intro l
    rw [specificPairs, specificPairs, List.filter_map, List.map_map]
    rfl
  rw [of, of]
  simp only
  rw [reduceBy_stamp time (fun _ => rfl) h, reduceBy_stamp time (fun _ => rfl) hexact, hspecific,
    List.filter_map]
  simp only [Function.comp_def, passes_stamp]
  exact reduceBy_stamp time (fun _ => rfl) fun r hr => hsemantic r (List.mem_filter.mp hr).1

end CodeAtlas
