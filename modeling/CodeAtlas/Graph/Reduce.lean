/-
# Reducing relationships

A batch of relationships is reduced to at most one for each ordered pair of nodes, in four stages:
relationships that say the same collapse, then those of one pair, by preference; those of low quality
are left out; and what is left is reduced by pair once more.

A relationship is preferred for its kind, then for its confidence, then for being newer, then for the
smaller id.

Key definitions: `Reduce.preference`, `Reduce.reduceBy`, `Reduce.passes`, `Reduction`,
`Reduction.of`, `Reduction.removedIds`.
-/
import CodeAtlas.Graph.Element
import CodeAtlas.Ordered
import CodeAtlas.Text.Casing

namespace CodeAtlas

/-- The ends of a relationship. -/
structure PairKey where
  source : String
  target : String
  deriving DecidableEq

namespace PairKey

instance : Ord PairKey := ⟨compareLex (compareOn source) (compareOn target)⟩

instance : Std.TransOrd PairKey :=
  inferInstanceAs (Std.TransCmp (compareLex (compareOn source) (compareOn target)))

instance : Std.LawfulEqOrd PairKey where
  eq_of_compare {a b} h := by
    have h : compareLex (compareOn source) (compareOn target) a b = .eq := h
    rw [compareLex_eq_eq] at h
    cases a
    cases b
    simp_all [compareOn]

/-- The ends of a relationship. -/
def of (r : Relationship) : PairKey := ⟨r.source, r.target⟩

end PairKey

/-- What a relationship says. -/
structure TripleKey where
  source : String
  kind : RelationKind
  target : String
  deriving DecidableEq

namespace TripleKey

/-- The place of the kind. -/
def priority (k : TripleKey) : Nat := k.kind.priority

/-- The order by source, kind and target. -/
def order : TripleKey → TripleKey → Ordering :=
  compareLex (compareOn source) (compareLex (compareOn priority) (compareOn target))

instance : Ord TripleKey := ⟨order⟩

instance : Std.TransOrd TripleKey :=
  inferInstanceAs (Std.TransCmp
    (compareLex (compareOn source) (compareLex (compareOn priority) (compareOn target))))

instance : Std.LawfulEqOrd TripleKey where
  eq_of_compare {a b} h := by
    have h : order a b = .eq := h
    simp only [order, compareLex_eq_eq, compareOn, Std.compare_eq_iff_eq] at h
    obtain ⟨hs, hk, ht⟩ := h
    have hk := RelationKind.priority_injective hk
    cases a
    cases b
    simp_all

/-- What a relationship says. -/
def of (r : Relationship) : TripleKey := ⟨r.source, r.kind, r.target⟩

end TripleKey

namespace Reduce

/-- Relationships below this confidence are left out. -/
def minConfidence : Binary64 := .ofDecimal 2 (-1)

/-- A relationship of unknown nature stays only above this confidence. -/
def relatedMinConfidence : Binary64 := .ofDecimal 5 (-1)

/-- Above this confidence the quality is high. -/
def highQuality : Binary64 := .ofDecimal 7 (-1)

/-- From this confidence on the quality is at least medium. -/
def mediumQuality : Binary64 := .ofDecimal 4 (-1)

/-- Descriptions that say nothing. -/
def genericDescriptions : List String :=
  ["related", "related to", "relates to", "relationship", "associated", "associated with",
   "connected", "connected to", "linked", "linked to"]

/-- Kinds beside which a mere reference is redundant. -/
def specificKinds : List RelationKind := [.imports, .usesType, .calls, .contains, .defines]

/-- Less where the first relationship is to be kept over the second. -/
def preference (a b : Relationship) : Ordering :=
  (compare a.kind.priority b.kind.priority).then
    ((compare b.confidence.rank a.confidence.rank).then
      ((compare b.createdAt a.createdAt).then (compare a.id b.id)))

/-- Keeps a relationship under its key unless one that is as good is there. -/
def keep {κ : Type} [Ord κ] [Std.TransOrd κ] [Std.LawfulEqOrd κ] (key : Relationship → κ)
    (best : SortedMap κ Relationship) (r : Relationship) : SortedMap κ Relationship :=
  match best.get? (key r) with
  | some current => if preference current r = .gt then best.insert (key r) r else best
  | none => best.insert (key r) r

/-- One relationship for each key, the preferred one, in the order of the keys. -/
def reduceBy {κ : Type} [Ord κ] [Std.TransOrd κ] [Std.LawfulEqOrd κ] (key : Relationship → κ)
    (rs : List Relationship) : List Relationship :=
  (rs.foldl (keep key) .empty).values

/-- A text in lower case, with spaces for underscores. -/
def spoken (s : String) : String := Text.replaceChar '_' ' ' (Text.lower s)

/-- Whether the description says no more than the kind does. -/
def isGeneric (r : Relationship) : Bool :=
  match r.description? with
  | none => true
  | some d =>
    let said := spoken (Text.trim d)
    genericDescriptions.contains said || said == spoken r.kind.name

/-- Whether the relationship is good enough, beside the pairs with a specific relationship. -/
def passes (specific : List PairKey) (r : Relationship) : Bool :=
  if r.confidence < minConfidence then false
  else match r.kind with
    | .relatedTo => !isGeneric r || decide (relatedMinConfidence < r.confidence)
    | .references => !specific.contains (.of r)
    | _ => true

/-- The pairs that have a specific relationship. -/
def specificPairs (rs : List Relationship) : List PairKey :=
  (rs.filter fun r => specificKinds.contains r.kind).map PairKey.of

end Reduce

/-- Numbers of relationships by quality. -/
structure Quality where
  high : Nat
  medium : Nat
  low : Nat
  deriving DecidableEq

namespace Quality

/-- The quality of relationships by their confidence. -/
def of (rs : List Relationship) : Quality where
  high := rs.countP fun r => Reduce.highQuality < r.confidence
  medium := rs.countP fun r =>
    !decide (Reduce.highQuality < r.confidence) && decide (Reduce.mediumQuality ≤ r.confidence)
  low := rs.countP fun r =>
    !decide (Reduce.highQuality < r.confidence) && !decide (Reduce.mediumQuality ≤ r.confidence)

end Quality

/-- How many relationships each stage took out. -/
structure ReductionStats where
  input : Nat
  exactDuplicates : Nat
  semanticReductions : Nat
  qualityFiltered : Nat
  hierarchyReductions : Nat
  output : Nat
  deriving DecidableEq

namespace ReductionStats

/-- No relationships at all. -/
def zero : ReductionStats := ⟨0, 0, 0, 0, 0, 0⟩

end ReductionStats

/-- What is left of a batch of relationships. -/
structure Reduction where
  relationships : List Relationship
  byKind : List (RelationKind × Nat)
  quality : Quality
  stats : ReductionStats
  deriving DecidableEq

namespace Reduction

/-- The number of relationships of each kind that occurs. -/
def countByKind (rs : List Relationship) : List (RelationKind × Nat) :=
  (RelationKind.all.map fun k => (k, rs.countP (·.kind = k))).filter fun e => e.2 != 0

/-- Reduces a batch of relationships. -/
def of (rs : List Relationship) : Reduction :=
  let exact := Reduce.reduceBy TripleKey.of rs
  let semantic := Reduce.reduceBy PairKey.of exact
  let filtered := semantic.filter (Reduce.passes (Reduce.specificPairs exact))
  let survivors := Reduce.reduceBy PairKey.of filtered
  { relationships := survivors
    byKind := countByKind survivors
    quality := Quality.of survivors
    stats :=
      { input := rs.length
        exactDuplicates := rs.length - exact.length
        semanticReductions := exact.length - semantic.length
        qualityFiltered := semantic.length - filtered.length
        hierarchyReductions := filtered.length - survivors.length
        output := survivors.length } }

/-- The ids of a batch that nothing left has, ascending. -/
def removedIds (r : Reduction) (batch : List Relationship) : List String :=
  let kept := r.relationships.map (·.id)
  Ordered.distinct ((batch.map (·.id)).filter fun id => !kept.contains id)

end Reduction

end CodeAtlas
