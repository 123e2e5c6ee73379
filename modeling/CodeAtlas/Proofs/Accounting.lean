/-
# The accounts of a reduction

A reduction reports how many relationships each stage took out, what is left of each kind and of each
quality, and which ids are gone. No stage leaves more than it was given, so the differences that are
reported are real ones, and they add up: what came in is what was taken out and what is left
(`Reduction.balance`). Every relationship has one kind, and one quality, so both counts come to the number
of what is left (`Reduction.sum_countByKind`, `Quality.total`).

Key definitions: `Reduction.Accounts`.
Key theorems: `Quality.total`, `Reduction.sum_countByKind`, `Reduction.mem_countByKind`,
`Reduction.balance`, `Reduction.accounts_exact`.
-/
import CodeAtlas.Proofs.Selection

namespace CodeAtlas

/-- Every relationship is of high, medium or low quality, and of one of them only. -/
theorem Quality.total (rs : List Relationship) :
    (Quality.of rs).high + (Quality.of rs).medium + (Quality.of rs).low = rs.length := by
  induction rs with
  | nil => rfl
  | cons r rs ih =>
    simp only [Quality.of, List.countP_cons, List.length_cons] at ih ⊢
    by_cases hhigh : Reduce.highQuality < r.confidence
    · simp only [hhigh, decide_true, ↓reduceIte, Bool.not_true, Bool.false_and, Bool.false_eq_true]
      omega
    · by_cases hmedium : Reduce.mediumQuality ≤ r.confidence
      · simp only [hhigh, hmedium, decide_true, decide_false, Bool.not_true, Bool.not_false,
          Bool.and_self, Bool.and_false, Bool.false_eq_true, ↓reduceIte]
        omega
      · simp only [hhigh, hmedium, decide_false, Bool.not_false, Bool.and_self, Bool.and_false,
          Bool.false_eq_true, ↓reduceIte]
        omega

namespace Reduction

open Reduce

variable {rs : List Relationship}

/-! ### Counting by kind -/

/-- Every kind is in the list of all kinds, and once. -/
theorem sum_kinds (kind : RelationKind) :
    (RelationKind.all.map fun k => if kind = k then 1 else 0).sum = 1 := by
  cases kind <;> rfl

/-- The counts of the kinds that occur make up the whole list. -/
theorem sum_countByKind (rs : List Relationship) :
    ((countByKind rs).map Prod.snd).sum = rs.length := by
  have hzeros : ∀ l : List (RelationKind × Nat),
      ((l.filter fun e => e.2 != 0).map Prod.snd).sum = (l.map Prod.snd).sum := by
    intro l
    induction l with
    | nil => rfl
    | cons e l ih =>
      by_cases he : e.2 = 0
      · simp [he, ih]
      · simp [he, ih]
  rw [countByKind, hzeros, List.map_map]
  induction rs with
  | nil => rfl
  | cons r rs ih =>
    have hstep : (RelationKind.all.map (Prod.snd ∘ fun k => (k, (r :: rs).countP (·.kind = k)))) =
        RelationKind.all.map fun k => rs.countP (·.kind = k) + if r.kind = k then 1 else 0 := by
      refine List.map_congr_left fun k _ => ?_
      simp [List.countP_cons]
    rw [hstep, List.sum_map_add, sum_kinds, List.length_cons]
    exact congrArg (· + 1) ih

/-- A kind is listed with the number of its relationships, where there are any. -/
theorem mem_countByKind {kind : RelationKind} {n : Nat} :
    (kind, n) ∈ countByKind rs ↔ n = rs.countP (·.kind = kind) ∧ 0 < n := by
  have hall : kind ∈ RelationKind.all := by cases kind <;> decide
  rw [countByKind, List.mem_filter, List.mem_map]
  constructor
  · rintro ⟨⟨k, _, he⟩, hn⟩
    obtain ⟨rfl, rfl⟩ := Prod.mk.inj he
    exact ⟨rfl, Nat.pos_of_ne_zero (by simpa using hn)⟩
  · rintro ⟨rfl, hn⟩
    exact ⟨⟨kind, hall, rfl⟩, by simpa using hn.ne'⟩

/-- The kinds are listed in the order of preference, each once. -/
theorem ascending_countByKind (rs : List Relationship) :
    (countByKind rs).Pairwise fun a b => a.1.priority < b.1.priority := by
  have hall : RelationKind.all.Pairwise fun a b => a.priority < b.priority := by decide
  rw [countByKind]
  refine List.Pairwise.filter _ ?_
  rw [List.pairwise_map]
  exact hall

/-! ### The stages -/

theorem length_afterExact_le (rs : List Relationship) : (afterExact rs).length ≤ rs.length :=
  length_reduceBy_le TripleKey.of rs

theorem length_afterSemantic_le (rs : List Relationship) :
    (afterSemantic rs).length ≤ (afterExact rs).length :=
  length_reduceBy_le PairKey.of (afterExact rs)

theorem length_afterFilter_le (rs : List Relationship) :
    (afterFilter rs).length ≤ (afterSemantic rs).length :=
  List.length_filter_le ..

/-- What came in was taken out at some stage or is left. -/
theorem balance (rs : List Relationship) : (of rs).stats.input =
    (of rs).stats.exactDuplicates + (of rs).stats.semanticReductions +
      (of rs).stats.qualityFiltered + (of rs).stats.hierarchyReductions + (of rs).stats.output := by
  have hexact := length_afterExact_le rs
  have hsemantic := length_afterSemantic_le rs
  have hfilter := length_afterFilter_le rs
  rw [of_eq, afterHierarchy_eq]
  dsimp only
  omega

/-- The ids that are gone are listed in ascending order, each once. -/
theorem ascending_removedIds (r : Reduction) (rs : List Relationship) :
    (r.removedIds rs).Pairwise (· < ·) :=
  (SortedMap.ascending_keys _).imp compare_lt_iff_lt.mp

/-- The accounts of a reduction are right. At each stage, what was taken out and what is left make up what
came in; the last stage takes out nothing; what is left is counted right, in all, by kind and by quality;
and the ids that are gone are those that nothing left has. -/
structure Accounts (rs : List Relationship) : Prop where
  input : (of rs).stats.input = rs.length
  exact : (of rs).stats.exactDuplicates + (afterExact rs).length = rs.length
  semantic : (of rs).stats.semanticReductions + (afterSemantic rs).length = (afterExact rs).length
  filtered : (of rs).stats.qualityFiltered + (afterFilter rs).length = (afterSemantic rs).length
  hierarchy : (of rs).stats.hierarchyReductions + (of rs).relationships.length = (afterFilter rs).length
  balance : (of rs).stats.input = (of rs).stats.exactDuplicates + (of rs).stats.semanticReductions +
    (of rs).stats.qualityFiltered + (of rs).stats.hierarchyReductions + (of rs).stats.output
  settled : (of rs).stats.hierarchyReductions = 0
  output : (of rs).stats.output = (of rs).relationships.length
  byKind_total : ((of rs).byKind.map Prod.snd).sum = (of rs).stats.output
  quality_total : (of rs).quality.high + (of rs).quality.medium + (of rs).quality.low =
    (of rs).stats.output
  mem_byKind : ∀ kind n, (kind, n) ∈ (of rs).byKind ↔
    n = (of rs).relationships.countP (·.kind = kind) ∧ 0 < n
  byKind_ascending : (of rs).byKind.Pairwise fun a b => a.1.priority < b.1.priority
  removed_ascending : ((of rs).removedIds rs).Pairwise (· < ·)
  mem_removed : ∀ id, id ∈ (of rs).removedIds rs ↔
    id ∈ rs.map (·.id) ∧ id ∉ (of rs).relationships.map (·.id)

theorem accounts_exact (rs : List Relationship) : Accounts rs where
  input := rfl
  exact := Nat.sub_add_cancel (length_afterExact_le rs)
  semantic := Nat.sub_add_cancel (length_afterSemantic_le rs)
  filtered := Nat.sub_add_cancel (length_afterFilter_le rs)
  hierarchy := Nat.sub_add_cancel (length_reduceBy_le PairKey.of (afterFilter rs))
  balance := balance rs
  settled := by
    rw [of_eq, afterHierarchy_eq]
    exact Nat.sub_self _
  output := rfl
  byKind_total := sum_countByKind _
  quality_total := Quality.total _
  mem_byKind _ _ := mem_countByKind
  byKind_ascending := ascending_countByKind _
  removed_ascending := ascending_removedIds _ _
  mem_removed _ := mem_removedIds

end Reduction

end CodeAtlas
