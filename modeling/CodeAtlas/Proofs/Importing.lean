/-
# Importing the same lists again changes nothing

An import writes its nodes and relationships one after the other, and several of them may have one id.
What it leaves is said here without the steps (`Store.Imported`): a node of the lists has the kind and
the name of the last one of its id, a relationship has the kind and the ends it was first stored with,
and of each property and of each entry of further data the last value written counts, or the old one
where none was written. An end that nothing stands for becomes a stub, and the rest is as it was.

That determines the store (`Store.Imported.unique`), and what an import leaves is also what the import
of the same lists leaves of it (`Store.Imported.again`): the old values no longer matter where one was
written, and where none was they are still there. So a second import changes nothing
(`Memory.import_again`).

Key definitions: `Store.Overlaid`, `Store.WrittenNode`, `Store.WrittenRelationship`, `Store.Imported`.
Key theorems: `Store.imported_importBatch`, `Store.Imported.unique`, `Store.Imported.again`,
`Memory.import_again`.
-/
import CodeAtlas.Proofs.Storing
import CodeAtlas.Store.Backend
import Mathlib.Data.List.Induction

namespace CodeAtlas

namespace Store

/-! ### Writing over what is there -/

section Writes

variable {α β : Type} {write : Option α → β → α}

/-- Where each element is written at its key over what stands there, what stands at a key afterwards
comes from the elements of that key alone. -/
theorem get?_foldl_write {put : SortedMap String α → β → SortedMap String α} {key : β → String}
    (hput : ∀ m b i, (put m b).get? i =
      if i = key b then some (write (m.get? (key b)) b) else m.get? i) (i : String) :
    ∀ (l : List β) (m : SortedMap String α), (l.foldl put m).get? i =
      (l.filter (key · = i)).foldl (fun old b => some (write old b)) (m.get? i)
  | [], _ => rfl
  | b :: l, m => by
    have ih := get?_foldl_write hput i l (put m b)
    rw [List.foldl_cons, ih, hput, List.filter_cons]
    by_cases hi : key b = i
    · simp [hi]
    · have hne : i ≠ key b := fun e => hi e.symm
      simp [hi, hne]

/-- Once an element was written, something stands there, and it has what each further one gives it. -/
theorem exists_of_foldl_write (write : Option α → β → α) (old : Option α) {P : List β → α → Prop}
    (hone : ∀ b, P [b] (write old b))
    (hmore : ∀ l now b, P l now → P (l ++ [b]) (write (some now) b)) :
    ∀ l : List β, l ≠ [] →
      ∃ now, l.foldl (fun old b => some (write old b)) old = some now ∧ P l now := by
  intro l
  -- the last element is written over what the others left, so the induction takes it off first
  induction l using List.reverseRecOn with
  | nil => intro hne; exact absurd rfl hne
  | append_singleton l b ih =>
    intro _
    rw [List.foldl_append, List.foldl_cons, List.foldl_nil]
    by_cases hl : l = []
    · subst hl
      exact ⟨_, rfl, hone b⟩
    · obtain ⟨now, hnow, hp⟩ := ih hl
      rw [hnow]
      exact ⟨_, rfl, hmore l now b hp⟩

end Writes

/-! ### Properties written over others -/

/-- The entries `now` are the last ones that `writes` give each key, over the entries `old`. -/
def Overlaid (old : Properties) (writes : List Properties) (now : Properties) : Prop :=
  ∀ key, now.get? key = (writes.reverse.findSome? (·.get? key)).or (old.get? key)

theorem overlaid_nil (old : Properties) : Overlaid old [] old := fun _ => rfl

theorem Overlaid.concat {old now : Properties} {writes : List Properties}
    (h : Overlaid old writes now) (w : Properties) :
    Overlaid old (writes ++ [w]) (now.union w) := by
  intro key
  rw [SortedMap.get?_union, h key, List.reverse_append, List.reverse_singleton,
    List.singleton_append, List.findSome?_cons]
  cases w.get? key with
  | none => rfl
  | some v => rfl

/-- The first list of entries over none is that list. -/
theorem overlaid_singleton (w : Properties) : Overlaid .empty [w] w := by
  intro key
  simp

theorem Overlaid.unique {old now now' : Properties} {writes : List Properties}
    (h : Overlaid old writes now) (h' : Overlaid old writes now') : now = now' :=
  SortedMap.ext_get? fun key => (h key).trans (h' key).symm

/-- Written over what they left, the same lists leave the same. -/
theorem Overlaid.again {old now : Properties} {writes : List Properties}
    (h : Overlaid old writes now) : Overlaid now writes now := by
  intro key
  have hnow := h key
  cases hw : writes.reverse.findSome? (·.get? key) with
  | none => rfl
  | some v =>
    rw [hw] at hnow
    rw [hnow]
    rfl

/-! ### Nodes -/

/-- What stands at an id after nodes of that id were written over what was there. -/
structure WrittenNode (i : String) (old : Option StoredNode) (writes : List Node)
    (now : StoredNode) : Prop where
  resolved : now.resolved = true
  id : now.node.id = (old.map (·.node.id)).getD i
  last : writes.getLast?.map (fun n => (n.kind, n.name)) = some (now.node.kind, now.node.name)
  properties : Overlaid ((old.map (·.node.properties)).getD .empty) (writes.map (·.properties))
    now.node.properties
  metadata : Overlaid ((old.map (·.node.metadata)).getD .empty) (writes.map (·.metadata))
    now.node.metadata

section Nodes

variable {i : String} {old : Option StoredNode} {writes : List Node} {now : StoredNode}

/-- One node written. -/
theorem writtenNode_singleton {n : Node} (hid : n.id = i) (old : Option StoredNode) :
    WrittenNode i old [n] (mergeNodeInto old n) := by
  cases old with
  | none => exact ⟨rfl, hid, rfl, overlaid_singleton _, overlaid_singleton _⟩
  | some o => exact ⟨rfl, rfl, rfl, (overlaid_nil _).concat _, (overlaid_nil _).concat _⟩

/-- One node more. -/
theorem WrittenNode.concat (h : WrittenNode i old writes now) (n : Node) :
    WrittenNode i old (writes ++ [n]) (mergeNodeInto (some now) n) where
  resolved := rfl
  id := h.id
  last := by
    rw [List.getLast?_concat]
    rfl
  properties := by
    rw [List.map_append]
    exact h.properties.concat _
  metadata := by
    rw [List.map_append]
    exact h.metadata.concat _

theorem exists_writtenNode (i : String) (nodes : List Node) (m : SortedMap String StoredNode)
    (h : nodes.filter (·.id = i) ≠ []) : ∃ now, (nodes.foldl mergeNode m).get? i = some now ∧
      WrittenNode i (m.get? i) (nodes.filter (·.id = i)) now := by
  have hid : ∀ n ∈ nodes.filter (·.id = i), n.id = i := fun n hn => by
    simpa using (List.mem_filter.mp hn).2
  obtain ⟨now, hnow, hw⟩ := exists_of_foldl_write mergeNodeInto (m.get? i)
    (P := fun l now => (∀ n ∈ l, n.id = i) → WrittenNode i (m.get? i) l now)
    (fun n hn => writtenNode_singleton (hn n List.mem_cons_self) _)
    (fun l now n hl hn => (hl fun n' hn' => hn n' (List.mem_append_left _ hn')).concat n) _ h
  exact ⟨now, (get?_foldl_write get?_mergeNode i nodes m).trans hnow, hw hid⟩

theorem WrittenNode.unique {now' : StoredNode} (h : WrittenNode i old writes now)
    (h' : WrittenNode i old writes now') : now = now' := by
  obtain ⟨node, resolved⟩ := now
  obtain ⟨node', resolved'⟩ := now'
  have hid : node.id = node'.id := h.id.trans h'.id.symm
  have hlast := h.last.symm.trans h'.last
  have hproperties : node.properties = node'.properties := h.properties.unique h'.properties
  have hmetadata : node.metadata = node'.metadata := h.metadata.unique h'.metadata
  have hresolved : resolved = resolved' := h.resolved.trans h'.resolved.symm
  simp only [Option.some.injEq, Prod.mk.injEq] at hlast
  obtain ⟨hkind, hname⟩ := hlast
  cases node
  cases node'
  simp_all

theorem WrittenNode.again (h : WrittenNode i old writes now) :
    WrittenNode i (some now) writes now where
  resolved := h.resolved
  id := rfl
  last := h.last
  properties := h.properties.again
  metadata := h.metadata.again

end Nodes

/-! ### Relationships -/

/-- What stands at an id after relationships of that id were written over what was there. -/
structure WrittenRelationship (old : Option Relationship) (writes : List Relationship)
    (now : Relationship) : Prop where
  first : ∃ o, old.or writes.head? = some o ∧ Same now o
  properties : Overlaid ((old.map (·.properties)).getD .empty) (writes.map (·.properties))
    now.properties
  metadata : Overlaid ((old.map (·.metadata)).getD .empty) (writes.map (·.metadata)) now.metadata

section Relationships

variable {i : String} {old : Option Relationship} {writes : List Relationship} {now : Relationship}

theorem writtenRelationship_singleton (r : Relationship) (old : Option Relationship) :
    WrittenRelationship old [r] (mergeInto old r) := by
  cases old with
  | none => exact ⟨⟨r, rfl, rfl, rfl⟩, overlaid_singleton _, overlaid_singleton _⟩
  | some o => exact ⟨⟨o, rfl, rfl, rfl⟩, (overlaid_nil _).concat _, (overlaid_nil _).concat _⟩

theorem WrittenRelationship.concat (h : WrittenRelationship old writes now) (r : Relationship) :
    WrittenRelationship old (writes ++ [r]) (mergeInto (some now) r) where
  first := by
    obtain ⟨o, ho, hsame⟩ := h.first
    refine ⟨o, ?_, hsame.id, hsame.triple⟩
    rw [List.head?_append, ← Option.or_assoc, ho, Option.some_or]
  properties := by
    rw [List.map_append]
    exact h.properties.concat _
  metadata := by
    rw [List.map_append]
    exact h.metadata.concat _

theorem exists_writtenRelationship (i : String) (rs : List Relationship)
    (m : SortedMap String Relationship) (h : rs.filter (·.id = i) ≠ []) :
    ∃ now, (rs.foldl mergeRelationship m).get? i = some now ∧
      WrittenRelationship (m.get? i) (rs.filter (·.id = i)) now := by
  obtain ⟨now, hnow, hw⟩ := exists_of_foldl_write mergeInto (m.get? i)
    (P := WrittenRelationship (m.get? i)) (fun r => writtenRelationship_singleton r _)
    (fun _ _ r hl => hl.concat r) _ h
  exact ⟨now, (get?_foldl_write get?_mergeRelationship i rs m).trans hnow, hw⟩

theorem WrittenRelationship.unique {now' : Relationship} (h : WrittenRelationship old writes now)
    (h' : WrittenRelationship old writes now') : now = now' := by
  obtain ⟨o, ho, hsame⟩ := h.first
  obtain ⟨o', ho', hsame'⟩ := h'.first
  obtain rfl : o = o' := Option.some.inj (ho.symm.trans ho')
  have hid : now.id = now'.id := hsame.id.trans hsame'.id.symm
  have htriple : now.triple = now'.triple := hsame.triple.trans hsame'.triple.symm
  have hproperties : now.properties = now'.properties := h.properties.unique h'.properties
  have hmetadata : now.metadata = now'.metadata := h.metadata.unique h'.metadata
  simp only [Relationship.triple, Prod.mk.injEq] at htriple
  cases now
  cases now'
  simp_all

theorem WrittenRelationship.again (h : WrittenRelationship old writes now) :
    WrittenRelationship (some now) writes now where
  first := ⟨now, rfl, rfl, rfl⟩
  properties := h.properties.again
  metadata := h.metadata.again

end Relationships

/-! ### Imports -/

/-- What an import of the lists into the store `s` leaves. -/
structure Imported (nodes : List Node) (rs : List Relationship) (s t : Store) : Prop where
  node : ∀ n ∈ nodes, ∃ now, t.nodes.get? n.id = some now ∧
    WrittenNode n.id (s.nodes.get? n.id) (nodes.filter (·.id = n.id)) now
  stubbed : ∀ i, (∀ n ∈ nodes, n.id ≠ i) → (∃ r ∈ rs, EndOf i r) →
    t.nodes.get? i = (s.nodes.get? i).or (some (stub i))
  otherNode : ∀ i, (∀ n ∈ nodes, n.id ≠ i) → (∀ r ∈ rs, ¬ EndOf i r) →
    t.nodes.get? i = s.nodes.get? i
  relationship : ∀ r ∈ rs, ∃ now, t.relationships.get? r.id = some now ∧
    WrittenRelationship (s.relationships.get? r.id) (rs.filter (·.id = r.id)) now
  otherRelationship : ∀ i, (∀ r ∈ rs, r.id ≠ i) → t.relationships.get? i = s.relationships.get? i

section Imports

variable {nodes : List Node} {rs : List Relationship} {s t u : Store}

theorem imported_importBatch (nodes : List Node) (rs : List Relationship) (s : Store) :
    Imported nodes rs s (s.importBatch nodes rs) where
  node n hn := by
    have hne : nodes.filter (·.id = n.id) ≠ [] :=
      List.ne_nil_of_mem (List.mem_filter.mpr ⟨hn, by simp⟩)
    obtain ⟨now, hnow, hw⟩ := exists_writtenNode n.id nodes s.nodes hne
    -- the ends of relationships are added only where nothing stands
    have hends : (rs.foldl addEnds (nodes.foldl mergeNode s.nodes)).get? n.id = some now := by
      obtain ⟨hend, hnot⟩ := get?_addAllEnds n.id rs (nodes.foldl mergeNode s.nodes)
      by_cases he : ∃ r ∈ rs, EndOf n.id r
      · rw [hend he, hnow, Option.some_or]
      · rw [hnot fun r hr hre => he ⟨r, hr, hre⟩, hnow]
    exact ⟨now, hends, hw⟩
  stubbed i hi he := by
    have hsame := get?_mergeNodes_of_ne nodes (m := s.nodes) hi
    exact ((get?_addAllEnds i rs _).1 he).trans (by rw [hsame])
  otherNode i hi he :=
    ((get?_addAllEnds i rs _).2 he).trans (get?_mergeNodes_of_ne nodes hi)
  relationship r hr :=
    exists_writtenRelationship r.id rs s.relationships
      (List.ne_nil_of_mem (List.mem_filter.mpr ⟨hr, by simp⟩))
  otherRelationship i hi := by
    have hnone : rs.filter (·.id = i) = [] := by
      rw [List.filter_eq_nil_iff]
      intro r hr
      simpa using hi r hr
    have hget := get?_foldl_write get?_mergeRelationship i rs s.relationships
    rw [hnone] at hget
    exact hget

/-- An import leaves one store. -/
theorem Imported.unique (h : Imported nodes rs s t) (h' : Imported nodes rs s u) : t = u := by
  have hnodes : t.nodes = u.nodes := by
    refine SortedMap.ext_get? fun i => ?_
    by_cases hi : ∃ n ∈ nodes, n.id = i
    · obtain ⟨n, hn, rfl⟩ := hi
      obtain ⟨now, hnow, hw⟩ := h.node n hn
      obtain ⟨now', hnow', hw'⟩ := h'.node n hn
      rw [hnow, hnow', hw.unique hw']
    · have hi : ∀ n ∈ nodes, n.id ≠ i := fun n hn e => hi ⟨n, hn, e⟩
      by_cases he : ∃ r ∈ rs, EndOf i r
      · rw [h.stubbed i hi he, h'.stubbed i hi he]
      · have he : ∀ r ∈ rs, ¬ EndOf i r := fun r hr e => he ⟨r, hr, e⟩
        rw [h.otherNode i hi he, h'.otherNode i hi he]
  have hrelationships : t.relationships = u.relationships := by
    refine SortedMap.ext_get? fun i => ?_
    by_cases hi : ∃ r ∈ rs, r.id = i
    · obtain ⟨r, hr, rfl⟩ := hi
      obtain ⟨now, hnow, hw⟩ := h.relationship r hr
      obtain ⟨now', hnow', hw'⟩ := h'.relationship r hr
      rw [hnow, hnow', hw.unique hw']
    · have hi : ∀ r ∈ rs, r.id ≠ i := fun r hr e => hi ⟨r, hr, e⟩
      rw [h.otherRelationship i hi, h'.otherRelationship i hi]
  cases t
  cases u
  simp_all

/-- What an import leaves is what it leaves of that. -/
theorem Imported.again (h : Imported nodes rs s t) : Imported nodes rs t t where
  node n hn := by
    obtain ⟨now, hnow, hw⟩ := h.node n hn
    exact ⟨now, hnow, hnow ▸ hw.again⟩
  stubbed i hi he := by
    rw [h.stubbed i hi he, Option.or_assoc]
    rfl
  otherNode _ _ _ := rfl
  relationship r hr := by
    obtain ⟨now, hnow, hw⟩ := h.relationship r hr
    exact ⟨now, hnow, hnow ▸ hw.again⟩
  otherRelationship _ _ := rfl

theorem importBatch_again (nodes : List Node) (rs : List Relationship) (s : Store) :
    (s.importBatch nodes rs).importBatch nodes rs = s.importBatch nodes rs :=
  (imported_importBatch nodes rs _).unique (imported_importBatch nodes rs s).again

end Imports

end Store

/-- An import into a graph in memory answers and leaves what it is to leave, whatever the lists and the
graph; the same import once more gives the same answer and changes nothing. -/
theorem Memory.import_again (m : Memory) (nodes : List Node) (rs : List Relationship) :
    ∃ summary m', Memory.backend.importBatch nodes rs m = (.ok summary, m') ∧
      Store.Imported nodes rs m.store m'.store ∧
      Memory.backend.importBatch nodes rs m' = (.ok summary, m') := by
  refine ⟨_, _, rfl, Store.imported_importBatch nodes rs m.store, ?_⟩
  have hstore := Store.importBatch_again nodes rs m.store
  simp only [Memory.backend, hstore]

end CodeAtlas
