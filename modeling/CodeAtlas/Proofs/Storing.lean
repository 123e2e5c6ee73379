/-
# What a store holds after importing and retiring

Importing relationships leaves at each id what was there, or what was written there last over what
was there first (`Store.get?_mergeRelationships`): the ends of a relationship stay those it was first
stored with, and its properties are those of the last writer. Importing nodes leaves resolved nodes,
and then stubs for the missing ends (`Store.of_get?_addAllEnds`). Retiring files takes out their
relationships, and leaves only nodes that are resolved or an end.

A store is bare when it holds packages only. Importing into a bare store and into the empty one differs
in the packages alone (`Store.importBatch_bare`).

Key definitions: `Store.Overlays`, `Store.Same`, `Store.Keyed`, `Store.Bare`, `Store.timeless`.
Key theorems: `Store.get?_mergeRelationships`, `Store.exists_of_mem`, `Store.triple_of_old`,
`Store.mergeNodes_induction`, `Store.of_get?_addAllEnds`, `Store.get?_retire_nodes`,
`Store.importBatch_bare`, `Store.mergeRelationships_stamp`.
-/
import CodeAtlas.Proofs.Building
import CodeAtlas.Store.Graph

namespace CodeAtlas

namespace Store

/-! ### Importing relationships -/

/-- What is stored for a relationship over what was there. -/
def mergeInto (old : Option Relationship) (r : Relationship) : Relationship :=
  match old with
  | some o => mergedRelationship o r
  | none => r

theorem get?_mergeRelationship (m : SortedMap String Relationship) (r : Relationship) (i : String) :
    (mergeRelationship m r).get? i = if i = r.id then some (mergeInto (m.get? r.id) r) else m.get? i := by
  unfold mergeRelationship mergeInto
  cases m.get? r.id with
  | none => exact SortedMap.get?_insert_eq ..
  | some o => exact SortedMap.get?_insert_eq ..

/-- All properties of `c` are properties of `r`. -/
def Overlays (r c : Relationship) : Prop :=
  ∀ {key value}, c.properties.get? key = some value → r.properties.get? key = some value

theorem overlays_mergeInto (old : Option Relationship) (c : Relationship) :
    Overlays (mergeInto old c) c := by
  intro key value h
  cases old with
  | none => exact h
  | some o =>
    show (o.properties.union c.properties).get? key = some value
    rw [SortedMap.get?_union, h, Option.some_or]

/-- The same kind, ends and id. -/
structure Same (r o : Relationship) : Prop where
  id : r.id = o.id
  triple : r.triple = o.triple

theorem same_mergeInto (old : Option Relationship) (c : Relationship) :
    (∃ o, old = some o ∧ Same (mergeInto old c) o) ∨ (old = none ∧ Same (mergeInto old c) c) := by
  cases old with
  | none => exact .inr ⟨rfl, rfl, rfl⟩
  | some o => exact .inl ⟨o, rfl, rfl, rfl⟩

/-- Every relationship is stored at its id. -/
def Keyed (m : SortedMap String Relationship) : Prop := ∀ {i r}, m.get? i = some r → r.id = i

theorem keyed_mergeRelationship {m : SortedMap String Relationship} (hm : Keyed m)
    (c : Relationship) : Keyed (mergeRelationship m c) := by
  intro i r h
  rw [get?_mergeRelationship] at h
  by_cases hi : i = c.id
  · rw [if_pos hi] at h
    rw [← Option.some.inj h]
    rcases same_mergeInto (m.get? c.id) c with ⟨o, ho, hs⟩ | ⟨_, hs⟩
    · rw [hs.id, hm ho, hi]
    · rw [hs.id, hi]
  · rw [if_neg hi] at h
    exact hm h

theorem keyed_mergeRelationships : ∀ (rs : List Relationship) {m : SortedMap String Relationship},
    Keyed m → Keyed (rs.foldl mergeRelationship m)
  | [], _, hm => hm
  | c :: rs, _, hm => keyed_mergeRelationships rs (keyed_mergeRelationship hm c)

/-- What is stored at an id after an import: what was there, if nothing was written; or else it has
the properties of one that was written and says what one of them or the old one says. -/
theorem get?_mergeRelationships {i : String} {r : Relationship} :
    ∀ (rs : List Relationship) {m : SortedMap String Relationship}, Keyed m →
    (rs.foldl mergeRelationship m).get? i = some r →
    (m.get? i = some r ∧ ∀ c ∈ rs, c.id ≠ i) ∨
      ∃ c ∈ rs, c.id = i ∧ Overlays r c ∧ ∃ o, (m.get? i = some o ∨ o ∈ rs) ∧ Same r o
  | [], _, _, h => .inl ⟨h, by simp⟩
  | a :: rs, m, hm, h => by
    have ha := get?_mergeRelationship m a i
    rcases get?_mergeRelationships rs (keyed_mergeRelationship hm a) h with
      ⟨hr, hnone⟩ | ⟨c, hc, hci, hover, o, ho, hsame⟩
    · by_cases hi : i = a.id
      · rw [ha, if_pos hi] at hr
        have hr := Option.some.inj hr
        refine .inr ⟨a, List.mem_cons_self, hi.symm, hr ▸ overlays_mergeInto _ _, ?_⟩
        rcases same_mergeInto (m.get? a.id) a with ⟨o, ho, hs⟩ | ⟨_, hs⟩
        · exact ⟨o, .inl (hi ▸ ho), hr ▸ hs⟩
        · exact ⟨a, .inr List.mem_cons_self, hr ▸ hs⟩
      · rw [ha, if_neg hi] at hr
        refine .inl ⟨hr, fun c hc => ?_⟩
        rcases List.mem_cons.mp hc with rfl | hc
        · exact Ne.symm hi
        · exact hnone c hc
    · refine .inr ⟨c, List.mem_cons_of_mem _ hc, hci, hover, ?_⟩
      rcases ho with ho | ho
      · by_cases hi : i = a.id
        · rw [ha, if_pos hi] at ho
          have ho := Option.some.inj ho
          rcases same_mergeInto (m.get? a.id) a with ⟨o', ho', hs⟩ | ⟨_, hs⟩
          · rw [ho] at hs
            exact ⟨o', .inl (hi ▸ ho'), hsame.id.trans hs.id, hsame.triple.trans hs.triple⟩
          · rw [ho] at hs
            exact ⟨a, .inr List.mem_cons_self, hsame.id.trans hs.id, hsame.triple.trans hs.triple⟩
        · rw [ha, if_neg hi] at ho
          exact ⟨o, .inl ho, hsame⟩
      · exact ⟨o, .inr (List.mem_cons_of_mem _ ho), hsame⟩

/-- What is stored keeps what it says through an import. -/
theorem triple_of_old {i : String} : ∀ (rs : List Relationship) {m : SortedMap String Relationship}
    {o : Relationship}, m.get? i = some o →
    ∃ r, (rs.foldl mergeRelationship m).get? i = some r ∧ r.triple = o.triple
  | [], _, o, h => ⟨o, h, rfl⟩
  | a :: rs, m, o, h => by
    have ha := get?_mergeRelationship m a i
    by_cases hi : i = a.id
    · subst hi
      rw [if_pos rfl, h] at ha
      obtain ⟨r, hr, ht⟩ := triple_of_old rs ha
      exact ⟨r, hr, ht⟩
    · rw [if_neg hi, h] at ha
      exact triple_of_old rs ha

/-- Every relationship imported is stored. -/
theorem exists_of_mem : ∀ (rs : List Relationship) {m : SortedMap String Relationship}
    {c : Relationship}, c ∈ rs → ∃ r, (rs.foldl mergeRelationship m).get? c.id = some r
  | a :: rs, m, c, h => by
    rcases List.mem_cons.mp h with rfl | h
    · have ha := get?_mergeRelationship m c c.id
      rw [if_pos rfl] at ha
      obtain ⟨r, hr, _⟩ := triple_of_old rs ha
      exact ⟨r, hr⟩
    · exact exists_of_mem rs h

/-! ### Importing nodes -/

/-- What is stored for a node over what was there. -/
def mergeNodeInto (old : Option StoredNode) (n : Node) : StoredNode :=
  match old with
  | some o => ⟨mergedNode o.node n, true⟩
  | none => ⟨n, true⟩

theorem get?_mergeNode (m : SortedMap String StoredNode) (n : Node) (i : String) :
    (mergeNode m n).get? i = if i = n.id then some (mergeNodeInto (m.get? n.id) n) else m.get? i := by
  unfold mergeNode mergeNodeInto
  cases m.get? n.id with
  | none => exact SortedMap.get?_insert_eq ..
  | some o => exact SortedMap.get?_insert_eq ..

/-- What is stored at an id depends on what was there alone. -/
theorem get?_mergeNodes {i : String} : ∀ (nodes : List Node) {m m' : SortedMap String StoredNode},
    m.get? i = m'.get? i → (nodes.foldl mergeNode m).get? i = (nodes.foldl mergeNode m').get? i
  | [], _, _, h => h
  | n :: nodes, m, m', h => by
    refine get?_mergeNodes nodes ?_
    rw [get?_mergeNode, get?_mergeNode]
    by_cases hi : i = n.id
    · subst hi
      rw [if_pos rfl, if_pos rfl, h]
    · rw [if_neg hi, if_neg hi, h]

/-- After nodes were imported, a property that writing keeps holds at an id if it held there before. -/
theorem mergeNodes_induction {i : String} {P : StoredNode → Prop} : ∀ (nodes : List Node)
    {m : SortedMap String StoredNode}, (∀ s, m.get? i = some s → P s) →
    (∀ n ∈ nodes, n.id = i → ∀ old, (∀ s, old = some s → P s) → P (mergeNodeInto old n)) →
    ∀ s, (nodes.foldl mergeNode m).get? i = some s → P s
  | [], _, hm, _, s, h => hm s h
  | n :: nodes, m, hm, hstep, s, h => by
    refine mergeNodes_induction nodes (m := mergeNode m n) (fun s hs => ?_)
      (fun n' hn' => hstep n' (List.mem_cons_of_mem _ hn')) s h
    rw [get?_mergeNode] at hs
    by_cases hi : i = n.id
    · subst hi
      rw [if_pos rfl] at hs
      exact Option.some.inj hs ▸ hstep n List.mem_cons_self rfl _ hm
    · rw [if_neg hi] at hs
      exact hm s hs

theorem isSome_mergeNodes {i : String} : ∀ (nodes : List Node) {m : SortedMap String StoredNode},
    (m.get? i).isSome = true ∨ (∃ n ∈ nodes, n.id = i) →
    ((nodes.foldl mergeNode m).get? i).isSome = true
  | [], _, h => h.resolve_right (by simp)
  | n :: nodes, m, h => by
    refine isSome_mergeNodes nodes ?_
    rw [get?_mergeNode]
    by_cases hi : i = n.id
    · rw [if_pos hi]
      exact .inl rfl
    · rw [if_neg hi]
      rcases h with h | ⟨n', hn', he⟩
      · exact .inl h
      · rcases List.mem_cons.mp hn' with rfl | hn'
        · exact absurd he.symm hi
        · exact .inr ⟨n', hn', he⟩

theorem get?_mergeNodes_of_ne {i : String} : ∀ (nodes : List Node)
    {m : SortedMap String StoredNode}, (∀ n ∈ nodes, n.id ≠ i) →
    (nodes.foldl mergeNode m).get? i = m.get? i
  | [], _, _ => rfl
  | n :: nodes, m, h => by
    rw [List.foldl_cons, get?_mergeNodes_of_ne nodes fun n' hn' => h n' (List.mem_cons_of_mem _ hn'),
      get?_mergeNode, if_neg (Ne.symm (h n List.mem_cons_self))]

/-- After nodes were imported, a property that writing gives holds at the id of one of them. -/
theorem exists_mergeNodes_of_mem {i : String} {P : StoredNode → Prop} : ∀ (nodes : List Node)
    {m : SortedMap String StoredNode}, (∃ n ∈ nodes, n.id = i) →
    (∀ n ∈ nodes, n.id = i → ∀ old, P (mergeNodeInto old n)) →
    ∃ s, (nodes.foldl mergeNode m).get? i = some s ∧ P s
  | [], _, h, _ => by simp at h
  | n :: nodes, m, h, hw => by
    by_cases hlater : ∃ n' ∈ nodes, n'.id = i
    · exact exists_mergeNodes_of_mem nodes hlater fun n' hn' => hw n' (List.mem_cons_of_mem _ hn')
    · -- the first is the last that writes there
      have hid : n.id = i := by
        obtain ⟨n', hn', hi⟩ := h
        rcases List.mem_cons.mp hn' with rfl | hn'
        · exact hi
        · exact absurd ⟨n', hn', hi⟩ hlater
      refine ⟨_, ?_, hw n List.mem_cons_self hid (m.get? n.id)⟩
      rw [List.foldl_cons, get?_mergeNodes_of_ne nodes fun n' hn' hi => hlater ⟨n', hn', hi⟩,
        get?_mergeNode, if_pos hid.symm]

/-- A node that is no package carries the path of its file when it is stored. -/
theorem filePath?_mergeNodeInto {f : FileFacts} {n : Node} (h : Build.NodeOf f n)
    (hk : n.kind ≠ .module) (old : Option StoredNode) :
    (mergeNodeInto old n).node.filePath? = some f.path := by
  have hpath := (h.filed.resolve_left fun hm => hk hm.1).2
  have hnew : (mergeNodeInto old n).node.properties.get? "file_path" = some (.string f.path) := by
    cases old with
    | none => exact hpath
    | some o =>
      show (o.node.properties.union n.properties).get? "file_path" = _
      rw [SortedMap.get?_union, hpath, Option.some_or]
  rw [Node.filePath?, hnew]
  rfl

theorem resolved_mergeNodeInto (old : Option StoredNode) (n : Node) :
    (mergeNodeInto old n).resolved = true := by
  cases old <;> rfl

/-- The id is an end of the relationship. -/
def EndOf (i : String) (r : Relationship) : Prop := r.source = i ∨ r.target = i

theorem EndOf.of_triple {i : String} {r r' : Relationship} (h : EndOf i r)
    (ht : r'.triple = r.triple) : EndOf i r' := by
  obtain ⟨_, hs, ht⟩ : r'.kind = r.kind ∧ r'.source = r.source ∧ r'.target = r.target := by
    simpa [Relationship.triple] using ht
  rw [EndOf, hs, ht]
  exact h

theorem get?_addStub (m : SortedMap String StoredNode) (id i : String) :
    (addStub m id).get? i = (m.get? i).or (if i = id then some (stub i) else none) := by
  rw [addStub]
  by_cases hc : m.contains id = true
  · rw [if_pos hc]
    by_cases hi : i = id
    · obtain ⟨s, hs⟩ := SortedMap.contains_iff.mp hc
      rw [hi, hs, Option.some_or]
    · rw [if_neg hi, Option.or_none]
  · rw [if_neg hc, SortedMap.get?_insert_eq]
    have hnone : m.get? id = none := SortedMap.contains_eq_false_iff.mp (by simpa using hc)
    by_cases hi : i = id
    · rw [if_pos hi, if_pos hi, hi, hnone, Option.none_or]
    · rw [if_neg hi, if_neg hi, Option.or_none]

theorem get?_addEnds (m : SortedMap String StoredNode) (r : Relationship) (i : String) :
    (EndOf i r → (addEnds m r).get? i = (m.get? i).or (some (stub i))) ∧
      (¬ EndOf i r → (addEnds m r).get? i = m.get? i) := by
  rw [addEnds, get?_addStub, get?_addStub, EndOf]
  by_cases hs : i = r.source
  · subst hs
    cases m.get? r.source <;> simp
  · by_cases ht : i = r.target
    · subst ht
      cases m.get? r.target <;> simp [hs]
    · simp [hs, ht, Ne.symm hs, Ne.symm ht]

/-- The ends of relationships are added where they are missing, and nothing else is. -/
theorem get?_addAllEnds (i : String) : ∀ (rs : List Relationship) (m : SortedMap String StoredNode),
    ((∃ r ∈ rs, EndOf i r) → (rs.foldl addEnds m).get? i = (m.get? i).or (some (stub i))) ∧
      ((∀ r ∈ rs, ¬ EndOf i r) → (rs.foldl addEnds m).get? i = m.get? i)
  | [], m => ⟨by simp, fun _ => rfl⟩
  | r :: rs, m => by
    obtain ⟨hend, hnot⟩ := get?_addEnds m r i
    obtain ⟨ih1, ih2⟩ := get?_addAllEnds i rs (addEnds m r)
    rw [List.foldl_cons]
    constructor
    · rintro ⟨c, hc, he⟩
      by_cases hr : EndOf i r
      · by_cases hrs : ∃ c ∈ rs, EndOf i c
        · rw [ih1 hrs, hend hr, Option.or_assoc]
          rfl
        · rw [ih2 fun c hc he => hrs ⟨c, hc, he⟩, hend hr]
      · rcases List.mem_cons.mp hc with rfl | hc
        · exact absurd he hr
        · rw [ih1 ⟨c, hc, he⟩, hnot hr]
    · intro h
      rw [ih2 fun c hc => h c (List.mem_cons_of_mem _ hc), hnot (h r List.mem_cons_self)]

/-- What stands at an id after the ends were added was there, or is the stub of an end. -/
theorem of_get?_addAllEnds {rs : List Relationship} {m : SortedMap String StoredNode} {i : String}
    {n : StoredNode} (h : (rs.foldl addEnds m).get? i = some n) :
    m.get? i = some n ∨ (m.get? i = none ∧ n = stub i ∧ ∃ r ∈ rs, EndOf i r) := by
  obtain ⟨hend, hnot⟩ := get?_addAllEnds i rs m
  by_cases he : ∃ r ∈ rs, EndOf i r
  · rw [hend he, Option.or_eq_some_iff] at h
    exact h.imp_right fun ⟨hm, hn⟩ => ⟨hm, (Option.some.inj hn).symm, he⟩
  · rw [hnot fun r hr hre => he ⟨r, hr, hre⟩] at h
    exact .inl h

/-! ### Retiring -/

section Retire

variable {s : Store} {paths : List String} {i : String}

theorem isOf_iff {path : Option String} : isOf paths path = true ↔ ∃ q, path = some q ∧ q ∈ paths := by
  cases path <;> simp [isOf]

theorem isOf_nil (path : Option String) : isOf [] path = false := by
  cases path <;> rfl

theorem get?_retire_relationships {r : Relationship} :
    (s.retire paths).relationships.get? i = some r ↔
      s.relationships.get? i = some r ∧ isOf paths r.filePath? = false := by
  show (s.keptRelationships paths).get? i = some r ↔ _
  rw [keptRelationships, SortedMap.get?_filter, Option.filter_eq_some_iff]
  simp

theorem isEnd_iff {m : SortedMap String Relationship} :
    isEnd m i = true ↔ ∃ j r, m.get? j = some r ∧ EndOf i r := by
  rw [isEnd, List.any_eq_true]
  constructor
  · rintro ⟨r, hr, he⟩
    obtain ⟨j, hj⟩ := SortedMap.mem_values.mp hr
    exact ⟨j, r, hj, by simpa [EndOf] using he⟩
  · rintro ⟨j, r, hj, he⟩
    exact ⟨r, SortedMap.mem_values.mpr ⟨j, hj⟩, by simpa [EndOf] using he⟩

/-- A node that is left was there, and is resolved or an end of a relationship that is left. -/
theorem get?_retire_nodes {n : StoredNode} (h : (s.retire paths).nodes.get? i = some n) :
    (∃ old, s.nodes.get? i = some old ∧ n.node = old.node ∧
      (n.resolved = true → old.resolved = true ∧ isOf paths old.node.filePath? = false)) ∧
      (n.resolved = true ∨ ∃ j r, (s.retire paths).relationships.get? j = some r ∧ EndOf i r) := by
  have h : ((s.unresolvedNodes paths).filter fun id n =>
      n.resolved || isEnd (s.keptRelationships paths) id).get? i = some n := h
  rw [SortedMap.get?_filter, Option.filter_eq_some_iff, unresolvedNodes, SortedMap.get?_mapValues]
    at h
  obtain ⟨hget, hkeep⟩ := h
  obtain ⟨old, hold, rfl⟩ := Option.map_eq_some_iff.mp hget
  refine ⟨⟨old, hold, ?_, ?_⟩, ?_⟩
  · split <;> rfl
  · intro hr
    split at hr
    · cases hr
    · rename_i hof
      exact ⟨hr, by simpa using hof⟩
  · rw [Bool.or_eq_true] at hkeep
    exact hkeep.imp_right isEnd_iff.mp

/-- A resolved node is left as it is, unless it comes from one of the files. -/
theorem get?_retire_resolved {n : StoredNode} (hr : n.resolved = true) :
    (s.retire paths).nodes.get? i = some n ↔
      s.nodes.get? i = some n ∧ isOf paths n.node.filePath? = false := by
  constructor
  · intro h
    obtain ⟨⟨old, hold, hnode, hres⟩, _⟩ := get?_retire_nodes h
    obtain ⟨hr', hof⟩ := hres hr
    have hsame : n = old := by
      cases n
      cases old
      simp_all
    exact ⟨hsame ▸ hold, hsame ▸ hof⟩
  · rintro ⟨h, hof⟩
    show ((s.unresolvedNodes paths).filter fun id n =>
      n.resolved || isEnd (s.keptRelationships paths) id).get? i = some n
    rw [SortedMap.get?_filter, unresolvedNodes, SortedMap.get?_mapValues, h]
    simp [hof, hr]

end Retire

/-! ### Bare stores -/

/-- The store holds packages only. -/
structure Bare (s : Store) : Prop where
  relationships : ∀ i, s.relationships.get? i = none
  nodes : ∀ {i n}, s.nodes.get? i = some n →
    NodeKind.Tagged .module i ∧ n.node.kind = .module

theorem bare_empty : Store.empty.Bare where
  relationships _ := rfl
  nodes h := by cases h

/-- What is imported: nodes of files, and edges of files whose ends in packages are among the nodes. -/
structure Importable (nodes : List Node) (rs : List Relationship) : Prop where
  tagged : ∀ n ∈ nodes, n.kind.Tagged n.id
  packages : ∀ {i}, NodeKind.Tagged .module i → (∃ r ∈ rs, EndOf i r) → ∃ n ∈ nodes, n.id = i

/-- Importing into a bare store leaves the nodes of importing into the empty one, the packages apart. -/
theorem importBatch_bare {s : Store} (hs : s.Bare) {nodes : List Node} {rs : List Relationship}
    (h : Importable nodes rs) :
    (s.importBatch nodes rs).nodes.filter (fun _ n => n.node.kind ≠ .module) =
      (Store.empty.importBatch nodes rs).nodes.filter fun _ n => n.node.kind ≠ .module := by
  refine SortedMap.ext_get? fun i => ?_
  rw [SortedMap.get?_filter, SortedMap.get?_filter]
  show ((rs.foldl addEnds (nodes.foldl mergeNode s.nodes)).get? i).filter _ =
    ((rs.foldl addEnds (nodes.foldl mergeNode .empty)).get? i).filter _
  by_cases hi : NodeKind.Tagged .module i
  · -- what stands for a package is one, in both
    have hkind : ∀ s' : Store, s'.Bare → ∀ n,
        (nodes.foldl mergeNode s'.nodes).get? i = some n → n.node.kind = .module := by
      intro s' hs'
      refine mergeNodes_induction nodes (fun n hn => (hs'.nodes hn).2) fun n hn he old _ => ?_
      have : n.kind = .module := NodeKind.tagged_unique (h.tagged n hn) (he ▸ hi)
      cases old <;> exact this
    have hnone : ∀ s' : Store, s'.Bare →
        ((rs.foldl addEnds (nodes.foldl mergeNode s'.nodes)).get? i).filter
          (fun n => decide (n.node.kind ≠ .module)) = none := by
      intro s' hs'
      have hends : (rs.foldl addEnds (nodes.foldl mergeNode s'.nodes)).get? i =
          (nodes.foldl mergeNode s'.nodes).get? i := by
        obtain ⟨h1, h2⟩ := get?_addAllEnds i rs (nodes.foldl mergeNode s'.nodes)
        by_cases he : ∃ r ∈ rs, EndOf i r
        · obtain ⟨n, hn, hid⟩ := h.packages hi he
          obtain ⟨v, hv⟩ := Option.isSome_iff_exists.mp
            (isSome_mergeNodes nodes (m := s'.nodes) (.inr ⟨n, hn, hid⟩))
          rw [h1 he, hv, Option.some_or]
        · exact h2 fun r hr hre => he ⟨r, hr, hre⟩
      rw [hends, Option.filter_eq_none_iff]
      intro n hn
      simpa using hkind s' hs' n hn
    exact (hnone s hs).trans (hnone Store.empty bare_empty).symm
  · have hget : s.nodes.get? i = none := by
      cases hg : s.nodes.get? i with
      | none => rfl
      | some n => exact absurd (hs.nodes hg).1 hi
    have hmerge : (nodes.foldl mergeNode s.nodes).get? i = (nodes.foldl mergeNode .empty).get? i :=
      get?_mergeNodes nodes (by rw [hget]; rfl)
    obtain ⟨h1, h2⟩ := get?_addAllEnds i rs (nodes.foldl mergeNode s.nodes)
    obtain ⟨h1', h2'⟩ := get?_addAllEnds i rs (nodes.foldl mergeNode .empty)
    by_cases he : ∃ r ∈ rs, EndOf i r
    · rw [h1 he, h1' he, hmerge]
    · have he : ∀ r ∈ rs, ¬ EndOf i r := fun r hr hre => he ⟨r, hr, hre⟩
      rw [h2 he, h2' he, hmerge]

/-! ### The time of an import -/

/-- The relationship without the time it was made at. -/
def timeless (r : Relationship) : Relationship :=
  { r with properties := r.properties.erase "created_at" }

theorem timeless_stamp (time : Int) (r : Relationship) : timeless (r.stamp time) = timeless r := by
  have : (r.properties.insert "created_at" (.int time)).erase "created_at" =
      r.properties.erase "created_at" := by
    refine SortedMap.ext_get? fun k => ?_
    rw [SortedMap.get?_erase_eq, SortedMap.get?_erase_eq, SortedMap.get?_insert_eq]
    by_cases hk : "created_at" = k
    · rw [if_pos hk, if_pos hk]
    · rw [if_neg hk, if_neg hk, if_neg (Ne.symm hk)]
  rw [timeless, timeless, Relationship.stamp, Relationship.withProperty, this]

theorem timeless_mergeInto (old : Option Relationship) (r : Relationship) :
    timeless (mergeInto old r) = mergeInto (old.map timeless) (timeless r) := by
  cases old with
  | none => rfl
  | some o =>
    have : (o.properties.union r.properties).erase "created_at" =
        (o.properties.erase "created_at").union (r.properties.erase "created_at") := by
      refine SortedMap.ext_get? fun k => ?_
      rw [SortedMap.get?_erase_eq, SortedMap.get?_union, SortedMap.get?_union,
        SortedMap.get?_erase_eq, SortedMap.get?_erase_eq]
      by_cases hk : "created_at" = k
      · rw [if_pos hk, if_pos hk, if_pos hk]
        rfl
      · rw [if_neg hk, if_neg hk, if_neg hk]
    show timeless (mergedRelationship o r) = mergedRelationship (timeless o) (timeless r)
    rw [timeless, mergedRelationship, this]
    rfl

theorem mergeRelationships_timeless : ∀ (rs : List Relationship)
    (m : SortedMap String Relationship),
    (rs.foldl mergeRelationship m).mapValues (fun _ => timeless) =
      (rs.map timeless).foldl mergeRelationship (m.mapValues fun _ => timeless)
  | [], _ => rfl
  | r :: rs, m => by
    have hstep : (mergeRelationship m r).mapValues (fun _ => timeless) =
        mergeRelationship (m.mapValues fun _ => timeless) (timeless r) := by
      refine SortedMap.ext_get? fun i => ?_
      rw [SortedMap.get?_mapValues, get?_mergeRelationship, get?_mergeRelationship,
        show (timeless r).id = r.id from rfl, SortedMap.get?_mapValues, SortedMap.get?_mapValues]
      by_cases hi : i = r.id
      · rw [if_pos hi, if_pos hi, Option.map_some, timeless_mergeInto]
      · rw [if_neg hi, if_neg hi]
    rw [List.map_cons, List.foldl_cons, List.foldl_cons, ← hstep]
    exact mergeRelationships_timeless rs (mergeRelationship m r)

/-- Apart from the time, what an import writes does not depend on the time. -/
theorem mergeRelationships_stamp (time time' : Int) (rs : List Relationship)
    (m : SortedMap String Relationship) :
    ((rs.map (.stamp time)).foldl mergeRelationship m).mapValues (fun _ => timeless) =
      ((rs.map (.stamp time')).foldl mergeRelationship m).mapValues fun _ => timeless := by
  rw [mergeRelationships_timeless, mergeRelationships_timeless, List.map_map, List.map_map]
  simp only [Function.comp_def, timeless_stamp]

end Store

end CodeAtlas
