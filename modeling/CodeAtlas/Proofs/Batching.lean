/-
# The rows that import statements carry

Relationships are imported by one of two strategies. The accelerated one cuts their list into batches as it
is. The grouped one takes the relationships kind by kind, since the kind stands in the text of a statement,
and cuts each group into batches of its own, so that every group may end with a shorter batch. Cutting
loses and repeats nothing, whatever the size of the batches (`Statement.flatten_chunks`), and neither does
grouping, as long as every kind is listed once (`Statement.perm_groups`). So both strategies write the same
rows (`Statement.imports_carry_rows`), and nodes, which are always grouped, are written once each.

The kind of a row is read off the row itself: a relationship carries it as a field of its own, a node among
its attributes.

Key definitions: `Statement.rowsOf`, `Statement.groups`, `Record.isOfRelationKind`,
`Record.isOfNodeKind`, `Statement.CarryRelationships`, `Statement.CarryNodes`.
Key theorems: `Statement.flatten_chunks`, `Statement.length_of_mem_chunks`, `Statement.rowsOf_ofBatches`,
`Statement.perm_groups`, `Statement.filter_groups`, `Statement.imports_carry_rows`.
-/
import CodeAtlas.Proofs.StateFile
import CodeAtlas.Store.Statement
import Mathlib.Data.List.Nodup

namespace CodeAtlas

theorem NodeKind.name_injective {a b : NodeKind} (h : a.name = b.name) : a = b :=
  Option.some.inj ((named?_name a).symm.trans ((congrArg named? h).trans (named?_name b)))

namespace RelationKind

theorem named?_name (k : RelationKind) : named? k.name = some k := by cases k <;> decide

theorem name_injective {a b : RelationKind} (h : a.name = b.name) : a = b :=
  Option.some.inj ((named?_name a).symm.trans ((congrArg named? h).trans (named?_name b)))

end RelationKind

namespace Statement

/-- The rows of statements, one statement after the other. -/
def rowsOf (statements : List Statement) : List Properties := statements.flatMap (·.rows)

/-! ### Batches -/

section Batches

variable {α : Type} {more size : Nat} {title text : String} {row : α → Properties} {l : List α}

/-- Put together again, the pieces of a list are the list. -/
theorem flatten_chunks (more : Nat) (l : List α) : (chunks more l).flatten = l := by
  fun_induction chunks more l with
  | case1 => rfl
  | case2 a rest ih => rw [List.flatten_cons, ih, List.cons_append, List.take_append_drop]

theorem length_of_mem_chunks {piece : List α} (h : piece ∈ chunks more l) :
    1 ≤ piece.length ∧ piece.length ≤ more + 1 := by
  fun_induction chunks more l with
  | case1 => cases h
  | case2 a rest ih =>
    obtain rfl | h := List.mem_cons.mp h
    · rw [List.length_cons, List.length_take]
      omega
    · exact ih h

theorem rowsOf_ofBatches (title text : String) (row : α → Properties) (size : Nat) (l : List α) :
    rowsOf (ofBatches title text row size l) = l.map row := by
  have hrows : rowsOf (ofBatches title text row size l) =
      ((batches size l).zipIdx.map Prod.fst).flatMap (·.map row) := by
    rw [rowsOf, ofBatches, List.flatMap_map, List.flatMap_map]
  rw [hrows, List.zipIdx_map_fst, List.flatMap_def, ← List.map_flatten, batches, flatten_chunks]

/-- Each statement has the given text, one row at least and not more than fit, all of elements of the
list. -/
theorem of_mem_ofBatches {s : Statement} (h : s ∈ ofBatches title text row size l) :
    s.text = text ∧ (1 ≤ s.rows.length ∧ s.rows.length ≤ max size 1) ∧
      ∀ r ∈ s.rows, ∃ a ∈ l, row a = r := by
  obtain ⟨⟨batch, i⟩, hbatch, rfl⟩ := List.mem_map.mp h
  have hmem : batch ∈ chunks (size - 1) l := List.fst_mem_of_mem_zipIdx hbatch
  have hlength := length_of_mem_chunks hmem
  refine ⟨rfl, ?_, fun r hr => ?_⟩
  · show 1 ≤ (batch.map row).length ∧ (batch.map row).length ≤ max size 1
    rw [List.length_map]
    omega
  · obtain ⟨a, ha, rfl⟩ := List.mem_map.mp hr
    have hl : a ∈ (chunks (size - 1) l).flatten := List.mem_flatten_of_mem hmem ha
    exact ⟨a, flatten_chunks _ l ▸ hl, rfl⟩

end Batches

/-! ### Groups -/

section Groups

variable {α κ : Type} [DecidableEq κ] {kind : α → κ} {kinds : List κ}

/-- The elements of a list, kind by kind. -/
def groups (kind : α → κ) (kinds : List κ) (l : List α) : List α :=
  kinds.flatMap fun k => l.filter (kind · = k)

theorem filter_groups_of_not_mem {k : κ} (hk : k ∉ kinds) (l : List α) :
    (groups kind kinds l).filter (kind · = k) = [] := by
  rw [List.filter_eq_nil_iff]
  intro a ha hka
  obtain ⟨k', hk', ha⟩ := List.mem_flatMap.mp ha
  obtain rfl : kind a = k := by simpa using hka
  obtain rfl : kind a = k' := by simpa using List.of_mem_filter ha
  exact hk hk'

/-- Each group is in the order of the list. -/
theorem filter_groups (hnodup : kinds.Nodup) {k : κ} (hk : k ∈ kinds) (l : List α) :
    (groups kind kinds l).filter (kind · = k) = l.filter (kind · = k) := by
  induction kinds with
  | nil => cases hk
  | cons k' kinds ih =>
    obtain ⟨hfresh, hnodup⟩ := List.nodup_cons.mp hnodup
    rw [groups, List.flatMap_cons, List.filter_append, ← groups]
    by_cases he : k' = k
    · subst he
      rw [filter_groups_of_not_mem hfresh, List.append_nil, List.filter_filter]
      simp
    · have hother : (l.filter (kind · = k')).filter (kind · = k) = [] := by
        rw [List.filter_eq_nil_iff]
        intro a ha hka
        have hka' : kind a = k' := by simpa using List.of_mem_filter ha
        exact he (hka'.symm.trans (by simpa using hka))
      rw [hother, List.nil_append]
      exact ih hnodup ((List.mem_cons.mp hk).resolve_left (Ne.symm he))

/-- Where every kind is listed once, each element is in one group. -/
theorem perm_groups (hnodup : kinds.Nodup) {l : List α} (hall : ∀ a ∈ l, kind a ∈ kinds) :
    (groups kind kinds l).Perm l := by
  induction kinds generalizing l with
  | nil =>
    have hl : l = [] := List.eq_nil_iff_forall_not_mem.mpr fun a ha => by cases hall a ha
    rw [hl]
    exact .refl _
  | cons k kinds ih =>
    obtain ⟨hfresh, hnodup⟩ := List.nodup_cons.mp hnodup
    -- the later groups are those of the elements that are not of the first kind
    have hrest : groups kind kinds l = groups kind kinds (l.filter fun a => !decide (kind a = k)) := by
      refine List.flatMap_congr fun k' hk' => ?_
      rw [List.filter_filter]
      refine List.filter_congr fun a _ => ?_
      by_cases he : kind a = k'
      · have hne : kind a ≠ k := fun e => hfresh (e ▸ he ▸ hk')
        simp [he, he ▸ hne]
      · simp [he]
    have hlater := ih hnodup (l := l.filter fun a => !decide (kind a = k)) fun a ha => by
      have hne : kind a ≠ k := by simpa using List.of_mem_filter ha
      exact (List.mem_cons.mp (hall a (List.mem_of_mem_filter ha))).resolve_left hne
    rw [groups, List.flatMap_cons, ← groups, hrest]
    exact (hlater.append_left _).trans (List.filter_append_perm _ l)

end Groups

end Statement

/-! ### Kinds of rows -/

namespace Record

/-- Whether a row is of a relationship of the kind. -/
def isOfRelationKind (kind : RelationKind) (row : Properties) : Bool :=
  row.get? "type" = some (.string kind.name)

/-- Whether a row is of a node of the kind. -/
def isOfNodeKind (kind : NodeKind) (row : Properties) : Bool :=
  (row.get? "props").bind (Json.field? "type") = some (.string kind.name)

theorem isOfRelationKind_ofRelationship (kind : RelationKind) (r : Relationship) :
    isOfRelationKind kind (ofRelationship r) = decide (r.kind = kind) := by
  have htype : (ofRelationship r).get? "type" = some (.string r.kind.name) := by
    simp [ofRelationship, SortedMap.ofList, SortedMap.get?_insert_eq]
  rw [isOfRelationKind, htype, decide_eq_decide, Option.some.injEq, Json.string.injEq]
  exact ⟨RelationKind.name_injective, congrArg _⟩

theorem field?_ofProperties (p : Properties) (key : String) :
    (Json.ofProperties p).field? key = p.get? key := by
  obtain ⟨entries, hascending⟩ := p
  show entries.lookup key = SortedMap.lookup key entries
  clear hascending
  induction entries with
  | nil => rfl
  | cons e rest ih =>
    obtain ⟨k, v⟩ := e
    rw [List.lookup_cons, SortedMap.lookup, ih]
    by_cases hk : key = k
    · simp [hk]
    · rw [beq_false_of_ne hk, if_neg (mt SortedMap.compare_eq_iff.mp hk)]

theorem isOfNodeKind_ofNode (kind : NodeKind) (n : Node) :
    isOfNodeKind kind (ofNode n) = decide (n.kind = kind) := by
  have hprops : (ofNode n).get? "props" = some (.ofProperties (nodeAttributes n)) :=
    SortedMap.get?_insert_self _ _ _
  have htype : (nodeAttributes n).get? "type" = some (.string n.kind.name) := by
    rw [nodeAttributes, SortedMap.get?_insert_of_ne _ _ (by decide), SortedMap.get?_insert_self]
  rw [isOfNodeKind, hprops, Option.bind_some, field?_ofProperties, htype, decide_eq_decide,
    Option.some.injEq, Json.string.injEq]
  exact ⟨NodeKind.name_injective, congrArg _⟩

end Record

namespace Statement

section Rows

variable {α κ : Type} [DecidableEq κ] {kind : α → κ} {kinds : List κ} {row : α → Properties}
  {isOf : κ → Properties → Bool} {title text : κ → String} {size : Nat}

/-- Statements for one group after the other carry the rows of the groups. -/
theorem rowsOf_flatMap_ofBatches (title text : κ → String) (size : Nat) (l : List α) :
    rowsOf (kinds.flatMap fun k => ofBatches (title k) (text k) row size (l.filter (kind · = k))) =
      (groups kind kinds l).map row := by
  rw [rowsOf, List.flatMap_assoc, groups, List.map_flatMap]
  exact List.flatMap_congr fun k _ => rowsOf_ofBatches _ _ row size _

/-- The rows of a kind are those of the elements of that kind. -/
theorem filter_map_row (hrow : ∀ k a, isOf k (row a) = decide (kind a = k)) (k : κ) (l : List α) :
    (l.map row).filter (isOf k) = (l.filter (kind · = k)).map row := by
  rw [List.filter_map]
  exact congrArg (List.map row) (List.filter_congr fun a _ => hrow k a)

theorem map_groups (hrow : ∀ k a, isOf k (row a) = decide (kind a = k)) (l : List α) :
    (groups kind kinds l).map row = kinds.flatMap fun k => (l.map row).filter (isOf k) := by
  rw [groups, List.map_flatMap]
  exact List.flatMap_congr fun k _ => (filter_map_row hrow k l).symm

/-- A statement for a group has the text of a kind, and its rows are of that kind. -/
theorem of_mem_flatMap_ofBatches (hrow : ∀ k a, isOf k (row a) = decide (kind a = k)) {l : List α}
    {s : Statement}
    (h : s ∈ kinds.flatMap fun k => ofBatches (title k) (text k) row size (l.filter (kind · = k))) :
    (1 ≤ s.rows.length ∧ s.rows.length ≤ max size 1) ∧
      ∃ k, s.text = text k ∧ ∀ r ∈ s.rows, isOf k r = true := by
  obtain ⟨k, _, hs⟩ := List.mem_flatMap.mp h
  obtain ⟨htext, hlength, hrows⟩ := of_mem_ofBatches hs
  refine ⟨hlength, k, htext, fun r hr => ?_⟩
  obtain ⟨a, ha, rfl⟩ := hrows r hr
  rw [hrow]
  exact (List.mem_filter.mp ha).2

end Rows

/-! ### Texts -/

/-- The text of a statement tells the kind, whose name is the one part of it that varies. -/
theorem kindMerge_inj {a b : RelationKind} : kindMerge a = kindMerge b ↔ a = b := by
  constructor
  · intro h
    rw [kindMerge, kindMerge, String.append_left_inj, String.append_left_inj,
      String.append_right_inj] at h
    exact RelationKind.name_injective h
  · exact congrArg kindMerge

/-! ### What the statements carry -/

/-- What the statements of both strategies carry: the rows of the relationships, the accelerated one in
their order, the grouped one kind by kind, each kind in their order and by statements of that kind alone,
in the text of which the name of the kind and of no other stands; and no statement is empty or larger
than a batch. -/
structure CarryRelationships (relationships : List Relationship) (size : Nat) : Prop where
  accelerated : rowsOf (ImportStrategy.accelerated.statements relationships size) =
    relationships.map Record.ofRelationship
  grouped : (rowsOf (ImportStrategy.grouped.statements relationships size)).Perm
    (relationships.map Record.ofRelationship)
  order : ∀ kind, (rowsOf (ImportStrategy.grouped.statements relationships size)).filter
      (Record.isOfRelationKind kind) =
    (relationships.map Record.ofRelationship).filter (Record.isOfRelationKind kind)
  sized : ∀ strategy : ImportStrategy, ∀ s ∈ strategy.statements relationships size,
    1 ≤ s.rows.length ∧ s.rows.length ≤ max size 1
  spliced : ∀ s ∈ ImportStrategy.grouped.statements relationships size,
    ∃ kind, (∀ row ∈ s.rows, Record.isOfRelationKind kind row = true) ∧
      ∀ other : RelationKind, s.text = endpointMerge ++ "MERGE (s)-[r:" ++ other.name ++
          " \x7bid: row.id\x7d]->(t)\n" ++ "SET r += row.props, r.updated_at = timestamp()\n" ↔
        other = kind

/-- What the statements for nodes carry: the row of each node once, kind by kind and in the order of the
nodes; and no statement is empty or larger than a batch. -/
structure CarryNodes (nodes : List Node) (size : Nat) : Prop where
  once : (rowsOf (forNodes nodes size)).Perm (nodes.map Record.ofNode)
  grouped : rowsOf (forNodes nodes size) =
    NodeKind.all.flatMap fun kind => (nodes.map Record.ofNode).filter (Record.isOfNodeKind kind)
  sized : ∀ s ∈ forNodes nodes size, 1 ≤ s.rows.length ∧ s.rows.length ≤ max size 1

theorem carryRelationships (relationships : List Relationship) (size : Nat) :
    CarryRelationships relationships size where
  accelerated := rowsOf_ofBatches _ _ _ _ _
  grouped := by
    rw [ImportStrategy.statements, Statement.grouped, rowsOf_flatMap_ofBatches]
    exact (perm_groups (by decide) fun r _ => by cases r.kind <;> decide).map _
  order kind := by
    rw [ImportStrategy.statements, Statement.grouped, rowsOf_flatMap_ofBatches,
      filter_map_row Record.isOfRelationKind_ofRelationship,
      filter_map_row Record.isOfRelationKind_ofRelationship,
      filter_groups (by decide) (by cases kind <;> decide)]
  sized strategy s hs := by
    cases strategy with
    | accelerated => exact (of_mem_ofBatches hs).2.1
    | grouped => exact (of_mem_flatMap_ofBatches Record.isOfRelationKind_ofRelationship hs).1
  spliced s hs := by
    obtain ⟨_, kind, htext, hrows⟩ :=
      of_mem_flatMap_ofBatches Record.isOfRelationKind_ofRelationship hs
    refine ⟨kind, hrows, fun other => ?_⟩
    rw [htext]
    exact kindMerge_inj.trans eq_comm

theorem carryNodes (nodes : List Node) (size : Nat) : CarryNodes nodes size where
  once := by
    rw [forNodes, rowsOf_flatMap_ofBatches]
    exact (perm_groups (by decide) fun n _ => by cases n.kind <;> decide).map _
  grouped := by
    rw [forNodes, rowsOf_flatMap_ofBatches, map_groups Record.isOfNodeKind_ofNode]
  sized s hs := (of_mem_flatMap_ofBatches Record.isOfNodeKind_ofNode hs).1

/-- Whatever the relationships, the nodes and the size of the batches, both strategies carry the same
rows, and nodes are carried once each. -/
theorem imports_carry_rows (relationships : List Relationship) (nodes : List Node) (size : Nat) :
    CarryRelationships relationships size ∧ CarryNodes nodes size :=
  ⟨carryRelationships relationships size, carryNodes nodes size⟩

end Statement

end CodeAtlas
