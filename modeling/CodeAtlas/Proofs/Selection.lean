/-
# Which relationship of a pair is kept

Relationships are preferred in the order of their standing: kind, confidence, time and id. Reducing by
a key keeps, of the relationships with one key, the first of those that stand lowest
(`Reduce.get?_foldl_keep_eq`). Two relationships of one pair that differ in kind differ in standing, so
reducing by what is said and then by pair chooses what reducing by pair alone would choose
(`Reduce.winner?_exact`). Where a mere reference is chosen, nothing specific is said of its pair, so the
rule about references takes out nothing (`Reduce.passes_winner`); and the last stage finds each pair
once. Four stages come to two steps: choose for each pair, then look at what was chosen
(`Reduction.chooses_then_filters`).

What is left is in the order of the pairs, and reducing it once more gives it back
(`Reduction.of_kept`).

The order of the batch counts only where two relationships stand equal. They then say the same, but
their descriptions may differ, and one of unknown nature may be left out for its description. So the
order decides what is said exactly where the best of a pair are torn in this way
(`Reduction.order_irrelevant_iff`), as they can be (`Reduction.exists_order_relevant`).

Key definitions: `Reduce.standing`, `Reduce.winner?`, `Reduce.Suffices`, `Reduction.ChoosesThenFilters`,
`Reduce.Torn`, `Reduce.Undecided`.
Key theorems: `Reduce.get?_foldl_keep_eq`, `Reduce.winner?_exact`, `Reduce.passes_winner`,
`Reduction.relationships_eq`, `Reduction.chooses_then_filters`, `Reduction.of_kept`,
`Reduction.order_irrelevant_iff`.
-/
import Mathlib
import CodeAtlas.Proofs.Binary64
import CodeAtlas.Proofs.Convergence

namespace CodeAtlas

/-! ### The first of the least -/

section Argmin

variable {α β : Type} [LinearOrder β] {f : α → β} {l : List α} {m : α}

/-- What is chosen stands before what comes earlier, and not behind what comes later. -/
theorem argmin_eq_some_iff_append : ∀ {l : List α}, l.argmin f = some m ↔
    ∃ front back, l = front ++ m :: back ∧ (∀ a ∈ front, f m < f a) ∧ ∀ a ∈ back, f m ≤ f a
  | [] => by simp
  | a :: l => by
    have ih := argmin_eq_some_iff_append (l := l)
    rw [List.argmin_cons]
    constructor
    · intro h
      cases hc : l.argmin f with
      | none =>
        rw [hc] at h
        cases h
        exact ⟨[], l, rfl, by simp, by simp [List.argmin_eq_none.mp hc]⟩
      | some c =>
        rw [hc] at h
        dsimp only at h
        split at h
        · rename_i hlt
          cases h
          obtain ⟨front, back, rfl, hfront, hback⟩ := ih.mp hc
          refine ⟨a :: front, back, rfl, fun x hx => ?_, hback⟩
          rcases List.mem_cons.mp hx with rfl | hx
          · exact hlt
          · exact hfront x hx
        · rename_i hle
          cases h
          refine ⟨[], l, rfl, by simp, fun x hx => ?_⟩
          exact (not_lt.mp hle).trans (List.le_of_mem_argmin hx hc)
    · rintro ⟨front, back, he, hfront, hback⟩
      cases front with
      | nil =>
        obtain ⟨rfl, rfl⟩ := List.cons.inj he
        cases hc : l.argmin f with
        | none => rfl
        | some c => exact if_neg (not_lt.mpr (hback c (List.argmin_mem hc)))
      | cons x front =>
        obtain ⟨rfl, rfl⟩ := List.cons.inj he
        rw [ih.mpr ⟨front, back, rfl, fun x hx => hfront x (List.mem_cons_of_mem _ hx), hback⟩]
        exact if_pos (hfront a List.mem_cons_self)

/-- What is chosen is chosen also among some of the elements. -/
theorem argmin_filter {p : α → Bool} (h : l.argmin f = some m) (hp : p m = true) :
    (l.filter p).argmin f = some m := by
  obtain ⟨front, back, rfl, hfront, hback⟩ := argmin_eq_some_iff_append.mp h
  refine argmin_eq_some_iff_append.mpr ⟨front.filter p, back.filter p, ?_, ?_, ?_⟩
  · rw [List.filter_append, List.filter_cons_of_pos hp]
  · exact fun a ha => hfront a (List.mem_of_mem_filter ha)
  · exact fun a ha => hback a (List.mem_of_mem_filter ha)

/-- Where no other stands as low, the least element is chosen. -/
theorem argmin_of_unique (hm : m ∈ l) (hle : ∀ a ∈ l, f m ≤ f a) (huniq : ∀ a ∈ l, f a = f m → a = m) :
    l.argmin f = some m := by
  cases hc : l.argmin f with
  | none =>
    rw [List.argmin_eq_none.mp hc] at hm
    cases hm
  | some c =>
    have hmem := List.argmin_mem hc
    have heq : f c = f m := le_antisymm (List.le_of_mem_argmin hm hc) (hle c hmem)
    rw [huniq c hmem heq]

end Argmin

/-! ### Ascending keys -/

section Ascending

set_option linter.unusedSectionVars false

variable {κ α : Type} [Ord κ] [Std.TransOrd κ] [Std.LawfulEqOrd κ]

/-- Lists of the same elements whose keys ascend are equal. -/
theorem eq_of_ascending (key : α → κ) {l l' : List α} (hperm : l.Perm l')
    (h : (l.map key).Pairwise fun a b => compare a b = .lt)
    (h' : (l'.map key).Pairwise fun a b => compare a b = .lt) : l = l' := by
  rw [List.pairwise_map] at h h'
  refine List.Perm.eq_of_pairwise (fun a b _ _ hab hba => ?_) h h' hperm
  exact absurd hba (Std.OrientedCmp.not_lt_of_lt hab)

theorem nodup_of_ascending {l : List κ} (h : l.Pairwise fun a b => compare a b = .lt) : l.Nodup := by
  refine h.imp fun hab he => ?_
  rw [he, Std.ReflOrd.compare_self] at hab
  cases hab

/-- The values are found at the keys in turn. -/
theorem SortedMap.values_eq_filterMap (m : SortedMap κ α) : m.values = m.keys.filterMap m.get? := by
  rw [values, keys, List.filterMap_map, ← List.filterMap_eq_map]
  exact List.filterMap_congr fun e he => (get?_of_mem_entries he).symm

variable [DecidableEq κ]

theorem Ordered.nodup_distinct (l : List κ) : (Ordered.distinct l).Nodup := SortedMap.nodup_keys _

/-- A map that has a value for the elements of a list, and for no other key, has them as its keys. -/
theorem SortedMap.keys_eq_distinct {m : SortedMap κ α} {l : List κ}
    (h : ∀ k, m.contains k = true ↔ k ∈ l) : m.keys = Ordered.distinct l := by
  have hperm : m.keys.Perm (Ordered.distinct l) := by
    refine (List.perm_ext_iff_of_nodup m.nodup_keys (Ordered.nodup_distinct l)).mpr fun k => ?_
    rw [mem_keys, h]
    exact Ordered.mem_distinct.symm
  refine eq_of_ascending id hperm ?_ ?_
  · rw [List.map_id]
    exact m.ascending_keys
  · rw [List.map_id]
    exact ascending_keys _

theorem Ordered.distinct_congr {l l' : List κ} (h : ∀ k, k ∈ l ↔ k ∈ l') :
    Ordered.distinct l = Ordered.distinct l' := by
  refine SortedMap.keys_eq_distinct fun k => ?_
  rw [← SortedMap.mem_keys, ← h]
  exact Ordered.mem_distinct

end Ascending

namespace Reduce

/-! ### Standing -/

/-- What relationships are compared by. -/
def Standing : Type := ℕ ×ₗ ℚ ×ₗ ℤ ×ₗ String

-- the orders are named, since those that would be found for `ℕ` and `ℤ` cannot be computed
instance : LinearOrder Standing :=
  let _ := Nat.instLinearOrder
  let _ := Rat.linearOrder
  let _ := Int.instLinearOrder
  inferInstanceAs (LinearOrder (ℕ ×ₗ ℚ ×ₗ ℤ ×ₗ String))

/-- What a relationship is preferred by, the lower the better: the place of its kind, how sure it is, how
new it is, and its id. -/
def standing (r : Relationship) : Standing :=
  toLex (r.kind.priority, toLex (-r.confidence.value, toLex (-r.createdAt, r.id)))

section Standing

variable {a b : Relationship}

theorem standing_lt_iff : standing a < standing b ↔
    a.kind.priority < b.kind.priority ∨ a.kind.priority = b.kind.priority ∧
      (b.confidence.value < a.confidence.value ∨ a.confidence.value = b.confidence.value ∧
        (b.createdAt < a.createdAt ∨ a.createdAt = b.createdAt ∧ a.id < b.id)) := by
  have hlt : standing a < standing b ↔
      toLex (a.kind.priority, toLex (-a.confidence.value, toLex (-a.createdAt, a.id))) <
        toLex (b.kind.priority, toLex (-b.confidence.value, toLex (-b.createdAt, b.id))) := Iff.rfl
  simp only [hlt, Prod.Lex.toLex_lt_toLex, neg_lt_neg_iff, neg_inj]

theorem preference_eq_gt_iff : preference a b = .gt ↔ standing b < standing a := by
  simp only [preference, standing_lt_iff, Ordering.then_eq_gt, compare_gt_iff_gt, compare_eq_iff_eq,
    ← Binary64.lt_def, Binary64.lt_iff_value, Binary64.rank_eq_iff_value]
  simp only [eq_comm]

theorem standing_eq_iff : standing a = standing b ↔ a.kind = b.kind ∧
    a.confidence.value = b.confidence.value ∧ a.createdAt = b.createdAt ∧ a.id = b.id := by
  have heq : standing a = standing b ↔
      toLex (a.kind.priority, toLex (-a.confidence.value, toLex (-a.createdAt, a.id))) =
        toLex (b.kind.priority, toLex (-b.confidence.value, toLex (-b.createdAt, b.id))) := Iff.rfl
  simp only [heq, toLex_inj, Prod.mk.injEq, neg_inj]
  constructor
  · rintro ⟨hk, rest⟩
    exact ⟨RelationKind.priority_injective hk, rest⟩
  · rintro ⟨hk, rest⟩
    exact ⟨congrArg _ hk, rest⟩

/-- What stands behind is of no better kind. -/
theorem priority_le_of_standing (h : standing a ≤ standing b) : a.kind.priority ≤ b.kind.priority := by
  by_contra hlt
  exact h.not_gt (standing_lt_iff.mpr (.inl (not_le.mp hlt)))

end Standing

/-! ### What reducing by a key chooses -/

section Winner

set_option linter.unusedSectionVars false

variable {κ : Type} [Ord κ] [Std.TransOrd κ] [Std.LawfulEqOrd κ] [DecidableEq κ]
  {key : Relationship → κ} {rs : List Relationship} {r : Relationship} {k : κ}

/-- Of the relationships with the key, the first of those that stand lowest. -/
def winner? (key : Relationship → κ) (rs : List Relationship) (k : κ) : Option Relationship :=
  (rs.filter fun r => key r = k).argmin standing

theorem of_winner? (h : winner? key rs k = some r) :
    r ∈ rs ∧ key r = k ∧ ∀ c ∈ rs, key c = k → standing r ≤ standing c := by
  obtain ⟨hmem, hkey⟩ := List.mem_filter.mp (List.argmin_mem h)
  refine ⟨hmem, of_decide_eq_true hkey, fun c hc hk => ?_⟩
  exact List.le_of_mem_argmin (List.mem_filter.mpr ⟨hc, decide_eq_true hk⟩) h

theorem winner?_eq_none_iff : winner? key rs k = none ↔ ∀ r ∈ rs, key r ≠ k := by
  rw [winner?, List.argmin_eq_none, List.filter_eq_nil_iff]
  simp

theorem get?_keep_self (best : SortedMap κ Relationship) (r : Relationship) :
    (keep key best r).get? (key r) = some (match best.get? (key r) with
      | some c => if standing r < standing c then r else c
      | none => r) := by
  unfold keep
  cases hc : best.get? (key r) with
  | none => exact SortedMap.get?_insert_self ..
  | some c =>
    simp only [preference_eq_gt_iff]
    split
    · exact SortedMap.get?_insert_self ..
    · exact hc

theorem get?_keep_of_ne {best : SortedMap κ Relationship} (h : key r ≠ k) :
    (keep key best r).get? k = best.get? k := by
  unfold keep
  split
  · split
    · exact SortedMap.get?_insert_of_ne _ _ (Ne.symm h)
    · rfl
  · exact SortedMap.get?_insert_of_ne _ _ (Ne.symm h)

/-- What is kept of a batch under a key is the winner of the key. -/
theorem get?_foldl_keep_eq (key : Relationship → κ) (k : κ) (rs : List Relationship) :
    (rs.foldl (keep key) .empty).get? k = winner? key rs k := by
  induction rs using List.reverseRecOn with
  | nil => rfl
  | append_singleton rs r ih =>
    rw [List.foldl_append, List.foldl_cons, List.foldl_nil, winner?, List.filter_append]
    by_cases hk : key r = k
    · subst hk
      rw [get?_keep_self, ih, winner?, List.filter_cons_of_pos (by simp), List.filter_nil,
        List.argmin_concat]
      cases (rs.filter fun c => key c = key r).argmin standing with
      | none => rfl
      | some c => exact apply_ite some ..
    · rw [get?_keep_of_ne hk, ih, List.filter_cons_of_neg (by simpa using hk), List.filter_nil,
        List.append_nil]
      rfl

theorem mem_reduceBy : r ∈ reduceBy key rs ↔ winner? key rs (key r) = some r := by
  rw [reduceBy, SortedMap.mem_values]
  constructor
  · rintro ⟨k, hk⟩
    obtain rfl := key_of_get? hk
    rwa [get?_foldl_keep_eq] at hk
  · intro h
    exact ⟨key r, (get?_foldl_keep_eq key _ rs).trans h⟩

/-- The winners, key by key. -/
theorem reduceBy_eq_filterMap (key : Relationship → κ) (rs : List Relationship) :
    reduceBy key rs = (Ordered.distinct (rs.map key)).filterMap (winner? key rs) := by
  rw [reduceBy, SortedMap.values_eq_filterMap, SortedMap.keys_eq_distinct (l := rs.map key)]
  · exact List.filterMap_congr fun k _ => get?_foldl_keep_eq key k rs
  · intro k
    rw [SortedMap.contains, get?_foldl_keep_eq, Option.isSome_iff_ne_none, ne_eq, winner?_eq_none_iff]
    simp

theorem ascending_reduceBy (key : Relationship → κ) (rs : List Relationship) :
    ((reduceBy key rs).map key).Pairwise fun a b => compare a b = .lt := by
  rw [reduceBy, SortedMap.map_values key_of_get?]
  exact SortedMap.ascending_keys _

/-- What is reduced already stays as it is. -/
theorem reduceBy_of_ascending (h : (rs.map key).Pairwise fun a b => compare a b = .lt) :
    reduceBy key rs = rs :=
  eq_of_ascending key (reduceBy_perm (nodup_of_ascending h)) (ascending_reduceBy key rs) h

end Winner

/-- The relationship is the first in the batch of those of its pair that stand lowest: it stands before
those that come earlier, and not behind those that come later. -/
def Wins (rs : List Relationship) (r : Relationship) : Prop :=
  ∃ front back, rs = front ++ r :: back ∧
    (∀ c ∈ front, PairKey.of c = PairKey.of r → standing r < standing c) ∧
    ∀ c ∈ back, PairKey.of c = PairKey.of r → standing r ≤ standing c

theorem wins_iff {rs : List Relationship} {r : Relationship} :
    winner? PairKey.of rs (PairKey.of r) = some r ↔ Wins rs r := by
  constructor
  · intro h
    obtain ⟨front', back', hsplit, hfront, hback⟩ := argmin_eq_some_iff_append.mp h
    obtain ⟨front, rest, rfl, rfl, hrest⟩ := List.filter_eq_append_iff.mp hsplit
    obtain ⟨skipped, back, rfl, hskipped, _, rfl⟩ := List.filter_eq_cons_iff.mp hrest
    refine ⟨front ++ skipped, back, by simp, fun c hc hck => ?_, fun c hc hck => ?_⟩
    · rcases List.mem_append.mp hc with hc | hc
      · exact hfront c (List.mem_filter.mpr ⟨hc, decide_eq_true hck⟩)
      · exact absurd (decide_eq_true hck) (hskipped c hc)
    · exact hback c (List.mem_filter.mpr ⟨hc, decide_eq_true hck⟩)
  · rintro ⟨front, back, rfl, hfront, hback⟩
    refine argmin_eq_some_iff_append.mpr ⟨front.filter fun c => PairKey.of c = PairKey.of r,
      back.filter fun c => PairKey.of c = PairKey.of r, ?_, ?_, ?_⟩
    · rw [List.filter_append, List.filter_cons_of_pos (by simp)]
    · intro c hc
      obtain ⟨hc, hck⟩ := List.mem_filter.mp hc
      exact hfront c hc (of_decide_eq_true hck)
    · intro c hc
      obtain ⟨hc, hck⟩ := List.mem_filter.mp hc
      exact hback c hc (of_decide_eq_true hck)

/-! ### The two ways to choose agree -/

section Pairs

variable {rs : List Relationship} {r : Relationship} {k : PairKey}

theorem tripleKey_eq_iff {a b : Relationship} :
    TripleKey.of a = TripleKey.of b ↔ a.triple = b.triple := by
  simp only [TripleKey.of, TripleKey.mk.injEq, Relationship.triple, Prod.mk.injEq]
  tauto

theorem pair_of_triple {a b : Relationship} (h : a.triple = b.triple) : PairKey.of a = PairKey.of b := by
  simp only [Relationship.triple, Prod.mk.injEq] at h
  rw [PairKey.of, PairKey.of, h.2.1, h.2.2]

theorem triple_of_standing {a b : Relationship} (hp : PairKey.of a = PairKey.of b)
    (hs : standing a = standing b) : a.triple = b.triple := by
  simp only [PairKey.of, PairKey.mk.injEq] at hp
  rw [Relationship.triple, Relationship.triple, hp.1, (standing_eq_iff.mp hs).1, hp.2]

/-- The winner of a pair is the winner of what it says. -/
theorem winner?_triple (h : winner? PairKey.of rs k = some r) :
    winner? TripleKey.of rs (TripleKey.of r) = some r := by
  have hk := (of_winner? h).2.1
  have hfilter : (rs.filter fun c => PairKey.of c = k).filter
      (fun c => TripleKey.of c = TripleKey.of r) =
      rs.filter fun c => TripleKey.of c = TripleKey.of r := by
    rw [List.filter_filter]
    refine List.filter_congr fun c _ => ?_
    by_cases hc : TripleKey.of c = TripleKey.of r
    · simp [hc, pair_of_triple (tripleKey_eq_iff.mp hc), hk]
    · simp [hc]
  rw [winner?, ← hfilter]
  exact argmin_filter h (by simp)

/-- Choosing for each thing that is said and then for each pair is choosing for each pair. -/
theorem winner?_exact (rs : List Relationship) (k : PairKey) :
    winner? PairKey.of (reduceBy TripleKey.of rs) k = winner? PairKey.of rs k := by
  cases h : winner? PairKey.of rs k with
  | none => exact winner?_eq_none_iff.mpr fun r hr => winner?_eq_none_iff.mp h r (mem_of_mem_reduceBy hr)
  | some r =>
    obtain ⟨_, hk, hle⟩ := of_winner? h
    have hmem : r ∈ reduceBy TripleKey.of rs := mem_reduceBy.mpr (winner?_triple h)
    refine argmin_of_unique (List.mem_filter.mpr ⟨hmem, decide_eq_true hk⟩) (fun c hc => ?_)
      fun c hc hs => ?_
    · obtain ⟨hc, hck⟩ := List.mem_filter.mp hc
      exact hle c (mem_of_mem_reduceBy hc) (of_decide_eq_true hck)
    · -- what stands equal is of one kind, and of what says the same only one is left
      obtain ⟨hc, hck⟩ := List.mem_filter.mp hc
      have htriple := triple_of_standing ((of_decide_eq_true hck).trans hk.symm) hs
      exact List.inj_on_of_nodup_map (nodup_reduceBy TripleKey.of rs) hc hmem
        (tripleKey_eq_iff.mpr htriple)

/-! ### What the filter looks at -/

/-- The relationship is good enough by itself: it is sure enough, and if its nature is unknown, it says
more than that or is surer still. -/
def Suffices (r : Relationship) : Prop :=
  minConfidence.value ≤ r.confidence.value ∧
    (r.kind = .relatedTo → isGeneric r = false ∨ relatedMinConfidence.value < r.confidence.value)

instance (r : Relationship) : Decidable (Suffices r) := inferInstanceAs (Decidable (_ ∧ (_ → _)))

theorem passes_nil_iff : passes [] r = true ↔ Suffices r := by
  simp only [passes, Suffices, Binary64.lt_iff_value]
  by_cases hc : r.confidence.value < minConfidence.value
  · simp [hc, hc.not_ge]
  · rw [if_neg hc, and_iff_right (not_lt.mp hc)]
    cases hk : r.kind <;> simp

-- one bound is met exactly, the other to the last place
example : relatedMinConfidence.value = 1 / 2 ∧ |minConfidence.value - 1 / 5| < 1 / 2 ^ 53 := by
  decide +kernel

theorem priority_of_specific {kind : RelationKind} (h : specificKinds.contains kind = true) :
    kind.priority < RelationKind.references.priority := by
  revert h
  cases kind <;> decide

/-- Of a pair whose winner is a mere reference nothing specific is said, so the winner passes as it would
by itself. -/
theorem passes_winner (h : winner? PairKey.of rs k = some r) :
    passes (specificPairs (reduceBy TripleKey.of rs)) r = passes [] r := by
  obtain ⟨_, hk, hle⟩ := of_winner? h
  unfold passes
  split
  · rfl
  · split
    · rfl
    · rename_i hkind
      have hnone : PairKey.of r ∉ specificPairs (reduceBy TripleKey.of rs) := by
        intro hmem
        obtain ⟨c, hc, he⟩ := List.mem_map.mp hmem
        obtain ⟨hc, hspecific⟩ := List.mem_filter.mp hc
        have hbetter := priority_le_of_standing (hle c (mem_of_mem_reduceBy hc) (he.trans hk))
        rw [hkind] at hbetter
        exact absurd (priority_of_specific hspecific) hbetter.not_gt
      simp [hnone]
    · rfl

end Pairs

end Reduce

/-! ### Two steps for four stages -/

namespace Reduction

open Reduce

variable {rs l : List Relationship} {r : Relationship}

theorem winner?_of_mem_afterSemantic (h : r ∈ afterSemantic rs) :
    winner? PairKey.of rs (PairKey.of r) = some r := by
  rw [← winner?_exact]
  exact mem_reduceBy.mp h

theorem afterFilter_eq (rs : List Relationship) :
    afterFilter rs = (afterSemantic rs).filter (passes []) :=
  List.filter_congr fun _ hr => passes_winner (winner?_of_mem_afterSemantic hr)

theorem afterSemantic_eq (rs : List Relationship) :
    afterSemantic rs = (Ordered.distinct (rs.map PairKey.of)).filterMap (winner? PairKey.of rs) := by
  have hpairs : Ordered.distinct ((afterExact rs).map PairKey.of) =
      Ordered.distinct (rs.map PairKey.of) := by
    refine Ordered.distinct_congr fun k => ?_
    constructor
    · intro hk
      obtain ⟨r, hr, rfl⟩ := List.mem_map.mp hk
      exact List.mem_map_of_mem (mem_of_mem_reduceBy hr)
    · intro hk
      obtain ⟨r, hr, rfl⟩ := List.mem_map.mp hk
      obtain ⟨c, hc, he⟩ := exists_mem_reduceBy TripleKey.of hr
      exact List.mem_map.mpr ⟨c, hc, pair_of_triple (tripleKey_eq_iff.mp he)⟩
  rw [afterSemantic, reduceBy_eq_filterMap, hpairs]
  exact List.filterMap_congr fun k _ => winner?_exact rs k

theorem ascending_afterFilter (rs : List Relationship) :
    ((afterFilter rs).map PairKey.of).Pairwise fun a b => compare a b = .lt :=
  (ascending_reduceBy PairKey.of (afterExact rs)).sublist (List.filter_sublist.map PairKey.of)

/-- The last stage finds nothing to do. -/
theorem afterHierarchy_eq (rs : List Relationship) : afterHierarchy rs = afterFilter rs :=
  reduceBy_of_ascending (ascending_afterFilter rs)

/-- What is left of a batch, pair by pair. -/
theorem relationships_eq (rs : List Relationship) : (of rs).relationships =
    (Ordered.distinct (rs.map PairKey.of)).filterMap fun k =>
      (winner? PairKey.of rs k).filter fun r => Suffices r := by
  have hpasses : passes [] = fun r => decide (Suffices r) := by
    funext r
    rw [Bool.eq_iff_iff, passes_nil_iff, decide_eq_true_iff]
  rw [of_eq, afterHierarchy_eq, afterFilter_eq, afterSemantic_eq, List.filter_filterMap, hpasses]

theorem mem_relationships :
    r ∈ (of rs).relationships ↔ winner? PairKey.of rs (PairKey.of r) = some r ∧ Suffices r := by
  rw [relationships_eq, List.mem_filterMap]
  constructor
  · rintro ⟨k, _, hr⟩
    obtain ⟨hwins, hsuffices⟩ := Option.filter_eq_some_iff.mp hr
    obtain ⟨_, rfl, _⟩ := of_winner? hwins
    exact ⟨hwins, of_decide_eq_true hsuffices⟩
  · rintro ⟨hwins, hsuffices⟩
    refine ⟨PairKey.of r, ?_, Option.filter_eq_some_iff.mpr ⟨hwins, decide_eq_true hsuffices⟩⟩
    exact Ordered.mem_distinct.mpr (List.mem_map_of_mem (of_winner? hwins).1)

/-- The four stages come to two steps. For each pair one relationship is chosen, the first in the batch of
those that stand lowest, and it is left where it is good enough by itself. -/
structure ChoosesThenFilters (rs : List Relationship) : Prop where
  ascending : ((of rs).relationships.map PairKey.of).Pairwise fun a b => compare a b = .lt
  mem_iff : ∀ r, r ∈ (of rs).relationships ↔ Wins rs r ∧ Suffices r
  exists_winner : ∀ r ∈ rs, ∃ w, Wins rs w ∧ PairKey.of w = PairKey.of r
  unreferenced : afterFilter rs = (afterSemantic rs).filter (passes [])
  settled : (of rs).relationships = afterFilter rs ∧ (of rs).stats.hierarchyReductions = 0

theorem chooses_then_filters (rs : List Relationship) : ChoosesThenFilters rs where
  ascending := ascending_reduceBy PairKey.of (afterFilter rs)
  mem_iff r := by rw [mem_relationships, wins_iff]
  exists_winner r hr := by
    cases h : winner? PairKey.of rs (PairKey.of r) with
    | none => exact absurd rfl (winner?_eq_none_iff.mp h r hr)
    | some w =>
      obtain ⟨_, hw, _⟩ := of_winner? h
      exact ⟨w, wins_iff.mp (hw ▸ h), hw⟩
  unreferenced := afterFilter_eq rs
  settled := by
    rw [of_eq, afterHierarchy_eq]
    exact ⟨rfl, Nat.sub_self _⟩

/-! ### Reducing what is left -/

/-- Of a list in the order of its pairs in which all is good enough, nothing is taken out at any stage. -/
theorem of_settled (hasc : (l.map PairKey.of).Pairwise fun a b => compare a b = .lt)
    (hpass : ∀ r ∈ l, passes (specificPairs l) r = true) :
    of l = { relationships := l, byKind := countByKind l, quality := Quality.of l
             stats := ⟨l.length, 0, 0, 0, 0, l.length⟩ } := by
  have hpairs := nodup_of_ascending hasc
  have hrelationships : (of l).relationships = l :=
    eq_of_ascending PairKey.of (perm_of_passing hpairs hpass)
      (ascending_reduceBy PairKey.of (afterFilter l)) hasc
  have hstats : (of l).stats = ⟨l.length, 0, 0, 0, 0, l.length⟩ := by
    rw [(settled_of_passing hpairs hpass).stats_eq, (exact_perm_of_pairs hpairs).length_eq, Nat.sub_self]
  show Reduction.mk (of l).relationships (countByKind (of l).relationships)
    (Quality.of (of l).relationships) (of l).stats = _
  rw [hrelationships, hstats]

theorem of_kept (rs : List Relationship) :
    of (of rs).relationships =
      { of rs with stats :=
          { input := (of rs).relationships.length
            exactDuplicates := 0
            semanticReductions := 0
            qualityFiltered := 0
            hierarchyReductions := 0
            output := (of rs).relationships.length } } :=
  of_settled (ascending_reduceBy PairKey.of (afterFilter rs)) fun _ => passes_of_kept

end Reduction

/-! ### Where the order of the batch counts -/

namespace Reduce

variable {rs : List Relationship} {a b : Relationship}

/-- Two relationships that nothing but their descriptions tells apart, and of which by these the second
is good enough and the first is not. -/
structure Torn (a b : Relationship) : Prop where
  triple : a.triple = b.triple
  standing : standing a = standing b
  kind : a.kind = .relatedTo
  confident : minConfidence.value ≤ a.confidence.value
  unsure : a.confidence.value ≤ relatedMinConfidence.value
  generic : isGeneric a = true
  specific : isGeneric b = false

/-- Of some pair the best are torn. -/
def Undecided (rs : List Relationship) : Prop :=
  ∃ a ∈ rs, ∃ b ∈ rs, Torn a b ∧ ∀ c ∈ rs, PairKey.of c = PairKey.of a → standing a ≤ standing c

theorem Torn.suffices (h : Torn a b) : Suffices b := by
  have hvalue := (standing_eq_iff.mp h.standing).2.1
  exact ⟨hvalue ▸ h.confident, fun _ => .inl h.specific⟩

theorem Torn.not_suffices (h : Torn a b) : ¬ Suffices a := by
  rintro ⟨_, hrelated⟩
  rcases hrelated h.kind with hspecific | hsure
  · rw [h.generic] at hspecific
    cases hspecific
  · exact h.unsure.not_gt hsure

/-- Where of two relationships of a pair that stand equal only one is good enough, they are torn. -/
theorem torn_of_suffices (hp : PairKey.of a = PairKey.of b) (hs : standing a = standing b)
    (hb : Suffices b) (ha : ¬ Suffices a) : Torn a b := by
  obtain ⟨hkind, hvalue, _, _⟩ := standing_eq_iff.mp hs
  obtain ⟨hconfident, hrelated⟩ := hb
  rw [← hkind, ← hvalue] at hrelated
  rw [← hvalue] at hconfident
  -- only the clause on relationships of unknown nature can tell the two apart
  have hlacks : ¬ (a.kind = .relatedTo →
      isGeneric a = false ∨ relatedMinConfidence.value < a.confidence.value) :=
    fun h => ha ⟨hconfident, h⟩
  push Not at hlacks
  obtain ⟨hunknown, hgeneric, hunsure⟩ := hlacks
  exact {
    triple := triple_of_standing hp hs
    standing := hs
    kind := hunknown
    confident := hconfident
    unsure := hunsure
    generic := by simpa using hgeneric
    specific := (hrelated hunknown).resolve_right hunsure.not_gt }

/-- Where nothing is torn, all the best of a pair are good enough, or none of them. -/
theorem suffices_iff_of_best (hdecided : ¬ Undecided rs) (ha : a ∈ rs) (hb : b ∈ rs)
    (hp : PairKey.of a = PairKey.of b) (hs : standing a = standing b)
    (hbest : ∀ c ∈ rs, PairKey.of c = PairKey.of b → standing b ≤ standing c) :
    Suffices a ↔ Suffices b := by
  constructor
  · intro hsa
    by_contra hsb
    exact hdecided ⟨b, hb, a, ha, torn_of_suffices hp.symm hs.symm hsa hsb, hbest⟩
  · intro hsb
    by_contra hsa
    refine hdecided ⟨a, ha, b, hb, torn_of_suffices hp hs hsb hsa, fun c hc hck => ?_⟩
    rw [hs]
    exact hbest c hc (hck.trans hp)

/-- Where nothing is torn, what is left of a pair says the same whatever the order of the batch. -/
theorem triple_of_perm {rs' : List Relationship} (hperm : rs'.Perm rs) (hdecided : ¬ Undecided rs)
    (k : PairKey) :
    ((winner? PairKey.of rs' k).filter fun r => Suffices r).map (·.triple) =
      ((winner? PairKey.of rs k).filter fun r => Suffices r).map (·.triple) := by
  cases h : winner? PairKey.of rs k with
  | none =>
    have hnone : winner? PairKey.of rs' k = none :=
      winner?_eq_none_iff.mpr fun r hr => winner?_eq_none_iff.mp h r (hperm.mem_iff.mp hr)
    rw [hnone]
  | some b =>
    obtain ⟨hb, hbk, hble⟩ := of_winner? h
    cases h' : winner? PairKey.of rs' k with
    | none => exact absurd hbk (winner?_eq_none_iff.mp h' b (hperm.mem_iff.mpr hb))
    | some a =>
      obtain ⟨ha, hak, hale⟩ := of_winner? h'
      have ha : a ∈ rs := hperm.mem_iff.mp ha
      have hs : standing a = standing b :=
        le_antisymm (hale b (hperm.mem_iff.mpr hb) hbk) (hble a ha hak)
      have hp : PairKey.of a = PairKey.of b := hak.trans hbk.symm
      have hiff : Suffices a ↔ Suffices b := suffices_iff_of_best hdecided ha hb hp hs (hbk ▸ hble)
      by_cases hsb : Suffices b
      · simp [Option.filter, hiff, hsb, triple_of_standing hp hs]
      · simp [Option.filter, hiff, hsb]

/-- A relationship no worse than the others of its pair is the winner where it comes first. -/
theorem winner?_of_head (hbest : ∀ c ∈ rs, PairKey.of c = PairKey.of a → standing a ≤ standing c) :
    winner? PairKey.of (a :: rs.erase a) (PairKey.of a) = some a :=
  wins_iff.mpr ⟨[], rs.erase a, rfl, by simp, fun c hc hck => hbest c (List.mem_of_mem_erase hc) hck⟩

end Reduce

namespace Reduction

open Reduce

/-- The order of a batch makes no difference to what is said of what is left, exactly where of no pair
the best are torn. -/
theorem order_irrelevant_iff (rs : List Relationship) :
    (∀ rs', rs'.Perm rs →
      (of rs').relationships.map (·.triple) = (of rs).relationships.map (·.triple)) ↔
    ¬ Undecided rs := by
  constructor
  · rintro hsame ⟨a, ha, b, hb, htorn, hbest⟩
    have hpair : PairKey.of a = PairKey.of b := pair_of_triple htorn.triple
    -- with `b` in front it is left, with `a` in front nothing of the pair is
    have hkept : b ∈ (of (b :: rs.erase b)).relationships := by
      refine mem_relationships.mpr ⟨winner?_of_head ?_, htorn.suffices⟩
      rw [← hpair, ← htorn.standing]
      exact hbest
    have hsaid : b.triple ∈ (of (a :: rs.erase a)).relationships.map (·.triple) := by
      rw [hsame _ (List.perm_cons_erase ha).symm, ← hsame _ (List.perm_cons_erase hb).symm]
      exact List.mem_map_of_mem hkept
    obtain ⟨c, hc, htriple⟩ := List.mem_map.mp hsaid
    obtain ⟨hwins, hsuffices⟩ := mem_relationships.mp hc
    rw [pair_of_triple (htriple.trans htorn.triple.symm), winner?_of_head hbest] at hwins
    obtain rfl := Option.some.inj hwins
    exact htorn.not_suffices hsuffices
  · intro hdecided rs' hperm
    rw [relationships_eq, relationships_eq, List.map_filterMap, List.map_filterMap,
      Ordered.distinct_congr fun k => (hperm.map PairKey.of).mem_iff]
    exact List.filterMap_congr fun k _ => triple_of_perm hperm hdecided k

/-- Two relationships that say the same, of an unknown nature and with no confidence stated: with the one
that is described in front it is left, with the other in front nothing is. -/
theorem exists_order_relevant : ∃ rs rs' : List Relationship, rs'.Perm rs ∧
    (∀ r ∈ rs, r.id = Ident.relationship r.kind r.source r.target) ∧
    (of rs).relationships.map (·.triple) = [(.relatedTo, "a", "b")] ∧
    (of rs').relationships.map (·.triple) = [] := by
  let link := Relationship.make .relatedTo "a" "b"
  let described := link.withProperty "description" (.string "shares the retry policy")
  let generic := link.withProperty "description" (.string "related to")
  refine ⟨[described, generic], [generic, described], .swap .., ?_, ?_, ?_⟩
  · intro r hr
    rcases List.mem_pair.mp hr with rfl | rfl <;> rfl
  · decide +kernel
  · decide +kernel

end Reduction

end CodeAtlas
