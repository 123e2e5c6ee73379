/-
# Sorting by insertion

A list is sorted by inserting its elements one by one, from the last to the first, each before the
first element that does not precede it; so elements that the order does not tell apart keep their
order. The ascending list of the distinct keys of a list is the list of keys of a map.

Key definitions: `Ordered.insert`, `Ordered.sort`, `Ordered.distinct`.
Key theorems: `Ordered.sort_perm`, `Ordered.mem_sort`.
-/
import CodeAtlas.SortedMap

namespace CodeAtlas.Ordered

variable {α : Type}

/-- The element before the first one that it may stand before. -/
def insert (le : α → α → Bool) (a : α) : List α → List α
  | [] => [a]
  | b :: rest => if le a b then a :: b :: rest else b :: insert le a rest

/-- The list in ascending order. -/
def sort (le : α → α → Bool) (l : List α) : List α := l.foldr (insert le) []

theorem insert_perm (le : α → α → Bool) (a : α) (l : List α) : (insert le a l).Perm (a :: l) := by
  induction l with
  | nil => exact .refl _
  | cons b rest ih =>
    unfold insert
    split
    · exact .refl _
    · exact (ih.cons b).trans (.swap a b rest)

theorem sort_perm (le : α → α → Bool) (l : List α) : (sort le l).Perm l := by
  induction l with
  | nil => exact .refl _
  | cons a rest ih => exact (insert_perm le a _).trans (ih.cons a)

@[simp] theorem mem_sort {le : α → α → Bool} {l : List α} {a : α} : a ∈ sort le l ↔ a ∈ l :=
  (sort_perm le l).mem_iff

section Keys

variable {κ : Type} [Ord κ] [Std.TransOrd κ] [Std.LawfulEqOrd κ]

/-- The elements in ascending order, each once. -/
def distinct (l : List κ) : List κ := (SortedMap.ofList (l.map fun k => (k, ()))).keys

end Keys

end CodeAtlas.Ordered
