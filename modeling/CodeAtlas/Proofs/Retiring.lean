/-
# Retiring files in parts is retiring them at once

A retirement takes out the relationships of some files, marks the nodes of these files as unresolved,
and then takes out the unresolved nodes that no relationship is left to end at. Said without the steps
(`Store.Retired`), what is left of a store depends only on which files are retired, and two retirements
leave what one of all the files leaves (`Store.Retired.append`): a node that the first one takes out is
unresolved and no end of what is left then, so it is no end of the fewer relationships that are left
after the second.

So the order of retirements does not matter, nor whether they are made in one call, and to retire the
same files again takes out nothing (`Memory.retirements_compose`). To retire no files is not to do
nothing: unresolved nodes that are no end go even then, which is why a run of retirements is compared
with one call only where it makes one (`Store.retire_run`).

Key definitions: `Store.Retired`, `Memory.retired`.
Key theorems: `Store.retired_retire`, `Store.Retired.unique`, `Store.Retired.append`,
`Store.retire_run`, `Memory.retirements_compose`.
-/
import CodeAtlas.Proofs.Storing
import CodeAtlas.Store.Backend

namespace CodeAtlas

namespace Store

/-- What is left of a store when files are retired: the relationships of other files, and the nodes that
are resolved or an end of one of these, a node being resolved when it was and is of another file. -/
structure Retired (paths : List String) (s t : Store) : Prop where
  relationship : ∀ {i r}, t.relationships.get? i = some r ↔
    s.relationships.get? i = some r ∧ ∀ q ∈ paths, r.filePath? ≠ some q
  node : ∀ {i n}, t.nodes.get? i = some n ↔
    (∃ old, s.nodes.get? i = some old ∧ n.node = old.node ∧
      (n.resolved = true ↔ old.resolved = true ∧ ∀ q ∈ paths, old.node.filePath? ≠ some q)) ∧
    (n.resolved = true ∨ ∃ j r, t.relationships.get? j = some r ∧ EndOf i r)

variable {s t u : Store} {p q : List String}

theorem isOf_eq_false_iff {paths : List String} {path : Option String} :
    isOf paths path = false ↔ ∀ q ∈ paths, path ≠ some q := by
  rw [Bool.eq_false_iff, Ne, isOf_iff]
  constructor
  · intro h q hq he
    exact h ⟨q, he, hq⟩
  · rintro h ⟨q, he, hq⟩
    exact h q hq he

/-- The mark of a node when files are retired. -/
theorem resolved_mark {n old : StoredNode} {paths : List String} :
    (if isOf paths old.node.filePath? then { old with resolved := false } else old) = n ↔
      n.node = old.node ∧
        (n.resolved = true ↔ old.resolved = true ∧ ∀ q ∈ paths, old.node.filePath? ≠ some q) := by
  obtain ⟨node, resolved⟩ := n
  obtain ⟨node', resolved'⟩ := old
  rw [← isOf_eq_false_iff]
  cases hof : isOf paths node'.filePath? with
  | true =>
    simp only [if_true, StoredNode.mk.injEq, Bool.true_eq_false, and_false, iff_false,
      Bool.not_eq_true]
    exact and_congr eq_comm eq_comm
  | false =>
    simp only [Bool.false_eq_true, if_false, StoredNode.mk.injEq, and_true, ← Bool.eq_iff_iff]
    exact and_congr eq_comm eq_comm

theorem exists_mark (old : StoredNode) (paths : List String) : ∃ mid : StoredNode,
    mid.node = old.node ∧
      (mid.resolved = true ↔ old.resolved = true ∧ ∀ q ∈ paths, old.node.filePath? ≠ some q) :=
  ⟨_, resolved_mark.mp rfl⟩

theorem retired_retire (paths : List String) (s : Store) : Retired paths s (s.retire paths) where
  relationship := by
    intro i r
    rw [get?_retire_relationships, isOf_eq_false_iff]
  node := by
    intro i n
    show ((s.unresolvedNodes paths).filter fun id n =>
      n.resolved || isEnd (s.keptRelationships paths) id).get? i = some n ↔ _
    rw [SortedMap.get?_filter, Option.filter_eq_some_iff, unresolvedNodes, SortedMap.get?_mapValues,
      Option.map_eq_some_iff, Bool.or_eq_true, isEnd_iff]
    refine and_congr ?_ Iff.rfl
    exact exists_congr fun old => and_congr_right fun _ => resolved_mark

/-- One store is left. -/
theorem Retired.unique (h : Retired p s t) (h' : Retired p s u) : t = u := by
  have hrelationships : t.relationships = u.relationships := by
    refine SortedMap.ext_get? fun i => Option.ext fun r => ?_
    rw [h.relationship, h'.relationship]
  have hnodes : t.nodes = u.nodes := by
    refine SortedMap.ext_get? fun i => Option.ext fun n => ?_
    rw [h.node, h'.node, hrelationships]
  cases t
  cases u
  simp_all

/-- It matters which files are retired, not how they are listed. -/
theorem Retired.congr (h : Retired p s t) (hpq : ∀ x, x ∈ p ↔ x ∈ q) : Retired q s t where
  relationship := by
    intro i r
    rw [h.relationship]
    simp only [hpq]
  node := by
    intro i n
    rw [h.node]
    simp only [hpq]

/-- What is left after two retirements is what is left after one of all the files. -/
theorem Retired.append (h : Retired p s t) (h' : Retired q t u) : Retired (p ++ q) s u where
  relationship := by
    intro i r
    rw [h'.relationship, h.relationship, and_assoc]
    simp only [List.mem_append, or_imp, forall_and]
  node := by
    intro i n
    have hboth : ∀ path : Option String, (∀ x ∈ p ++ q, path ≠ some x) ↔
        (∀ x ∈ p, path ≠ some x) ∧ ∀ x ∈ q, path ≠ some x := by
      intro path
      simp only [List.mem_append, or_imp, forall_and]
    rw [h'.node]
    constructor
    · rintro ⟨⟨mid, hmid, hnode, hresolved⟩, hleft⟩
      obtain ⟨⟨old, hold, hnode', hresolved'⟩, _⟩ := h.node.mp hmid
      refine ⟨⟨old, hold, hnode.trans hnode', ?_⟩, hleft⟩
      rw [hresolved, hresolved', hboth, hnode', and_assoc]
    · rintro ⟨⟨old, hold, hnode, hresolved⟩, hleft⟩
      rw [hboth] at hresolved
      -- the node as the first retirement marks it is left by it: resolved if it still is at the end,
      -- or an end of a relationship that even the second retirement leaves
      obtain ⟨mid, hnode', hresolved'⟩ := exists_mark old p
      have hkept : mid.resolved = true ∨ ∃ j r, t.relationships.get? j = some r ∧ EndOf i r := by
        rcases hleft with hr | ⟨j, r, hr, hend⟩
        · have ⟨hwas, hother, _⟩ := hresolved.mp hr
          exact .inl (hresolved'.mpr ⟨hwas, hother⟩)
        · exact .inr ⟨j, r, (h'.relationship.mp hr).1, hend⟩
      have hmid : t.nodes.get? i = some mid := h.node.mpr ⟨⟨old, hold, hnode', hresolved'⟩, hkept⟩
      refine ⟨⟨mid, hmid, hnode.trans hnode'.symm, ?_⟩, hleft⟩
      rw [hresolved, hresolved', hnode', and_assoc]

theorem retire_retire (s : Store) (p q : List String) :
    (s.retire p).retire q = s.retire (p ++ q) :=
  ((retired_retire p s).append (retired_retire q _)).unique (retired_retire (p ++ q) s)

theorem retire_congr (s : Store) (hpq : ∀ x, x ∈ p ↔ x ∈ q) : s.retire p = s.retire q :=
  ((retired_retire p s).congr hpq).unique (retired_retire q s)

/-- A run of retirements, one at least, is one retirement of all the files. -/
theorem retire_run : ∀ (ps : List (List String)) (s : Store) (p : List String),
    (p :: ps).foldl retire s = s.retire (p :: ps).flatten
  | [], s, p => by simp
  | q :: ps, s, p => by
    have ih := retire_run ps (s.retire p) q
    rw [List.foldl_cons, ih, retire_retire, List.flatten_cons (l := p)]

/-- The order of retirements does not matter. -/
theorem foldl_retire_of_perm (s : Store) {ps qs : List (List String)} (h : ps.Perm qs) :
    ps.foldl retire s = qs.foldl retire s := by
  cases ps with
  | nil => rw [List.nil_perm.mp h]
  | cons p ps =>
    cases qs with
    | nil => exact absurd h.length_eq (by simp)
    | cons q qs =>
      rw [retire_run, retire_run]
      refine retire_congr s fun x => ?_
      simp only [List.mem_flatten]
      exact exists_congr fun l => and_congr_left fun _ => h.mem_iff

/-- A retirement of a run, made once more after it, changes nothing. -/
theorem retire_of_mem_run (s : Store) {ps : List (List String)} (h : p ∈ ps) :
    (ps.foldl retire s).retire p = ps.foldl retire s := by
  cases ps with
  | nil => cases h
  | cons q ps =>
    rw [retire_run, retire_retire]
    refine retire_congr s fun x => ?_
    rw [List.mem_append]
    exact ⟨fun hx => hx.elim id fun hx => List.mem_flatten_of_mem h hx, .inl⟩

/-- A retirement that changes nothing reports that nothing was taken out. -/
theorem retireSummary_of_eq (h : s.retire p = s) :
    s.retireSummary p = ⟨0, (s.retireSummary p).nodesUnresolved, 0⟩ := by
  simp only [retireSummary, h, Nat.sub_self]

end Store

namespace Memory

/-- A graph in memory when files were retired from it. -/
def retired (m : Memory) (paths : List String) : Memory := (backend.retire paths m).2

theorem retired_eq (m : Memory) (paths : List String) :
    m.retired paths = { m with store := m.store.retire paths } := rfl

theorem foldl_retired : ∀ (ps : List (List String)) (m : Memory),
    ps.foldl retired m = { m with store := ps.foldl Store.retire m.store }
  | [], _ => rfl
  | p :: ps, m => by
    rw [List.foldl_cons, List.foldl_cons, foldl_retired ps, retired_eq]

/-- Retirements compose. Two of them leave what one of all their files leaves, and a run of them leaves
the same in any order. One that the run made, made again after it, answers that no relationship and no
node was taken out, and changes nothing. -/
theorem retirements_compose (m : Memory) (p q : List String) {ps qs : List (List String)}
    (h : ps.Perm qs) :
    m.store.Retired p (m.retired p).store ∧
      (m.retired p).retired q = m.retired (p ++ q) ∧
      ps.foldl retired m = qs.foldl retired m ∧
      ∀ r ∈ ps, ∃ unresolved,
        backend.retire r (ps.foldl retired m) = (.ok ⟨0, unresolved, 0⟩, ps.foldl retired m) := by
  refine ⟨Store.retired_retire p m.store, ?_, ?_, ?_⟩
  · rw [retired_eq, retired_eq, retired_eq, Store.retire_retire]
  · rw [foldl_retired, foldl_retired, Store.foldl_retire_of_perm m.store h]
  · intro r hr
    have hagain := Store.retire_of_mem_run m.store hr
    rw [foldl_retired]
    refine ⟨((ps.foldl Store.retire m.store).retireSummary r).nodesUnresolved, ?_⟩
    simp only [backend, hagain, ← Store.retireSummary_of_eq hagain]

end Memory

namespace Trial

/-- Two functions, each of a file of its own, the second of which calls the first. -/
def linked : Memory :=
  let named (name : String) : Node :=
    (Node.make name .function name).withProperty "file_path" (.string (name ++ ".ts"))
  let call := (Relationship.make .calls "b" "a").withProperty "file_path" (.string "b.ts")
  { Memory.empty with store := Store.empty.importBatch [named "a", named "b"] [call] }

/-- The called function stays as an end when its file is retired, and goes when the calling one is
retired too, whichever comes first. -/
theorem retirements_linked :
    ([["a.ts"], ["b.ts"]].Perm [["b.ts"], ["a.ts"]] ∧
      (linked.retired ["a.ts"]).store.nodes.keys = ["a", "b"] ∧
      (linked.retired ["b.ts"]).store.nodes.keys = ["a"]) ∧
    linked.store.Retired ["a.ts"] (linked.retired ["a.ts"]).store ∧
      (linked.retired ["a.ts"]).retired ["b.ts"] = linked.retired ["a.ts", "b.ts"] ∧
      [["a.ts"], ["b.ts"]].foldl Memory.retired linked =
        [["b.ts"], ["a.ts"]].foldl Memory.retired linked ∧
      ∀ r ∈ [["a.ts"], ["b.ts"]], ∃ unresolved,
        Memory.backend.retire r ([["a.ts"], ["b.ts"]].foldl Memory.retired linked) =
          (.ok ⟨0, unresolved, 0⟩, [["a.ts"], ["b.ts"]].foldl Memory.retired linked) :=
  ⟨⟨.swap .., by decide +kernel, by decide +kernel⟩,
    Memory.retirements_compose linked ["a.ts"] ["b.ts"] (.swap ..)⟩

end Trial

end CodeAtlas
