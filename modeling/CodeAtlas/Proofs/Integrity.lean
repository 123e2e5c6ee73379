/-
# What every graph in memory keeps

A graph in memory is changed by four calls: it imports nodes and relationships, retires files, removes
relationships and is cleared. Whatever is passed to them and in whatever order they are made, nodes and
relationships are stored at their ids and both ends of every relationship are stored
(`Memory.integral_after`). Only nodes that are taken out could break this, and retiring takes out none
that is an end of a relationship it leaves.

Right after files are retired the graph is also tidy: a node is resolved or an end of a relationship.
Removing relationships can leave an unresolved node that is neither.

Key definitions: `GraphCall`, `Memory.call`, `Memory.after`, `Store.Integral`, `Store.Tidy`.
Key theorems: `Store.Integral.importBatch`, `Store.Integral.retire`, `Store.tidy_retire`,
`Memory.integral_after`.
-/
import CodeAtlas.Proofs.Storing
import CodeAtlas.Store.Backend

namespace CodeAtlas

/-- A call that changes a graph. -/
inductive GraphCall where
  | importBatch (nodes : List Node) (relationships : List Relationship)
  | retire (paths : List String)
  | remove (ids : List String)
  | clear

namespace Memory

/-- What a call leaves. -/
def call (m : Memory) : GraphCall → Memory
  | .importBatch nodes relationships => (backend.importBatch nodes relationships m).2
  | .retire paths => (backend.retire paths m).2
  | .remove ids => (backend.remove ids m).2
  | .clear => (backend.clear m).2

/-- What calls leave, the newest first, of an empty graph. -/
def after : List GraphCall → Memory
  | [] => .empty
  | c :: calls => (after calls).call c

end Memory

namespace Store

/-- Nodes and relationships are stored at their ids, and the ends of relationships are stored. -/
structure Integral (s : Store) : Prop where
  nodes : ∀ {i n}, s.nodes.get? i = some n → n.node.id = i
  relationships : Keyed s.relationships
  ends : ∀ {j r}, s.relationships.get? j = some r → ∀ {i}, EndOf i r → s.nodes.contains i = true

/-- Every node is resolved, or an end of a relationship. -/
def Tidy (s : Store) : Prop :=
  ∀ {i n}, s.nodes.get? i = some n →
    n.resolved = true ∨ ∃ j r, s.relationships.get? j = some r ∧ EndOf i r

theorem get?_foldl_erase {i : String} : ∀ (ids : List String) (m : SortedMap String Relationship),
    (ids.foldl SortedMap.erase m).get? i = if i ∈ ids then none else m.get? i
  | [], m => by simp
  | id :: ids, m => by
    rw [List.foldl_cons, get?_foldl_erase ids, SortedMap.get?_erase_eq]
    by_cases hi : i ∈ ids
    · simp [hi]
    · by_cases he : id = i
      · simp [hi, he]
      · simp [hi, he, Ne.symm he]

namespace Integral

theorem empty : Integral .empty where
  nodes h := by cases h
  relationships h := by cases h
  ends h := by cases h

variable {s : Store} (h : s.Integral)
include h

section Import

variable (nodes : List Node) (rs : List Relationship)

/-- What is merged into a node leaves its id. -/
theorem nodes_importBatch {i : String} {n : StoredNode}
    (hn : (s.importBatch nodes rs).nodes.get? i = some n) : n.node.id = i := by
  rcases of_get?_addAllEnds hn with hn | ⟨_, rfl, _⟩
  · refine mergeNodes_induction (P := fun n => n.node.id = i) nodes (fun n hn => h.nodes hn) ?_ n hn
    intro n _ hid old hold
    cases old with
    | none => exact hid
    | some o => exact hold o rfl
  · rfl

omit h in
/-- An import takes out no node. -/
theorem contains_importBatch {i : String} (hi : s.nodes.contains i = true) :
    (s.importBatch nodes rs).nodes.contains i = true := by
  have hmerged := isSome_mergeNodes nodes (m := s.nodes) (.inl hi)
  obtain ⟨n, hn⟩ := Option.isSome_iff_exists.mp hmerged
  obtain ⟨hend, hnot⟩ := get?_addAllEnds i rs (nodes.foldl mergeNode s.nodes)
  refine SortedMap.contains_of_get? (v := n) ?_
  show (rs.foldl addEnds (nodes.foldl mergeNode s.nodes)).get? i = some n
  by_cases he : ∃ r ∈ rs, EndOf i r
  · rw [hend he, hn, Option.some_or]
  · rw [hnot fun r hr hre => he ⟨r, hr, hre⟩, hn]

omit h in
/-- An import stores the ends of what it is given. -/
theorem contains_of_end {i : String} {r : Relationship} (hr : r ∈ rs) (hi : EndOf i r) :
    (s.importBatch nodes rs).nodes.contains i = true := by
  show ((rs.foldl addEnds (nodes.foldl mergeNode s.nodes)).get? i).isSome = true
  rw [(get?_addAllEnds i rs _).1 ⟨r, hr, hi⟩]
  cases (nodes.foldl mergeNode s.nodes).get? i <;> rfl

theorem importBatch : (s.importBatch nodes rs).Integral where
  nodes := h.nodes_importBatch nodes rs
  relationships := keyed_mergeRelationships rs h.relationships
  ends := by
    intro j r hr i hi
    -- the ends of what is stored are those of something stored before or of something imported
    rcases get?_mergeRelationships rs h.relationships hr with ⟨hold, _⟩ | ⟨_, _, _, _, o, ho, hsame⟩
    · exact contains_importBatch nodes rs (h.ends hold hi)
    · have hi : EndOf i o := hi.of_triple hsame.triple.symm
      rcases ho with ho | ho
      · exact contains_importBatch nodes rs (h.ends ho hi)
      · exact contains_of_end nodes rs ho hi

end Import

/-- Retiring files leaves the ends of the relationships it leaves. -/
theorem retire (paths : List String) : (s.retire paths).Integral where
  nodes := by
    intro i n hn
    obtain ⟨⟨old, hold, hnode, _⟩, _⟩ := get?_retire_nodes hn
    rw [hnode]
    exact h.nodes hold
  relationships := fun hr => h.relationships (get?_retire_relationships.mp hr).1
  ends := by
    intro j r hr i hi
    obtain ⟨n, hn⟩ := SortedMap.contains_iff.mp (h.ends (get?_retire_relationships.mp hr).1 hi)
    have hend : isEnd (s.keptRelationships paths) i = true := isEnd_iff.mpr ⟨j, r, hr, hi⟩
    rw [SortedMap.contains_iff]
    show ∃ v, ((s.unresolvedNodes paths).filter fun id n =>
      n.resolved || isEnd (s.keptRelationships paths) id).get? i = some v
    rw [SortedMap.get?_filter, unresolvedNodes, SortedMap.get?_mapValues, hn, hend]
    simp

theorem remove (ids : List String) : (s.remove ids).Integral where
  nodes := h.nodes
  relationships := by
    intro i r hr
    rw [Store.remove, get?_foldl_erase] at hr
    split at hr
    · cases hr
    · exact h.relationships hr
  ends := by
    intro j r hr i hi
    rw [Store.remove, get?_foldl_erase] at hr
    split at hr
    · cases hr
    · exact h.ends hr hi

theorem call {m : Memory} (hm : m.store = s) (c : GraphCall) : (m.call c).store.Integral := by
  subst hm
  cases c with
  | importBatch nodes rs => exact h.importBatch nodes rs
  | retire paths => exact h.retire paths
  | remove ids => exact h.remove ids
  | clear => exact .empty

end Integral

theorem tidy_retire (s : Store) (paths : List String) : (s.retire paths).Tidy :=
  fun hn => (get?_retire_nodes hn).2

end Store

theorem Memory.integral (calls : List GraphCall) : (after calls).store.Integral := by
  induction calls with
  | nil => exact .empty
  | cons c calls ih => exact ih.call rfl c

/-- Whatever calls a graph in memory was given, its nodes and relationships are stored at their ids and the
ends of its relationships are stored; and files being retired next, every node left is resolved or an end. -/
theorem Memory.integral_after (calls : List GraphCall) :
    (after calls).store.Integral ∧ ∀ paths, (after (.retire paths :: calls)).store.Tidy :=
  ⟨integral calls, fun paths => Store.tidy_retire (after calls).store paths⟩

end CodeAtlas
