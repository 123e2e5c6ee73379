/-
# What searches collect

A search goes through nodes or relationships of the graph and adds what it comes to, with the ends where it
is a relationship, unless its id was added already. Its loops differ in what they go through only, so it is
said once what a step adds and from it what a run adds (`Found.Collects.foldl`): all that is added is kept,
each id once. That nothing is lost where an id is passed over rests on the graph, in which an id tells the
node or the relationship.

What is collected can therefore be looked at without the graph (`Store.SelfContained`): the ends of its
relationships are among its nodes. And it is all that fits, as far as the limit goes (`Fills`); the search
for a path finds one of at most six relationships where there is one (`Store.Connects`).

Key definitions: `Store.HasNode`, `Store.HasRelationship`, `KeepsOnce`, `Found.Collects`,
`Store.SelfContained`, `Fills`, `Store.Connects`.
Key theorems: `KeepsOnce.add`, `Found.Collects.foundEdge`, `Found.Collects.foldl`,
`Store.Integral.collects_searchNodes`, `Store.Integral.collects_searchEdges`,
`Store.Integral.collects_searchPath`.
-/
import CodeAtlas.Proofs.Integrity
import CodeAtlas.Proofs.PathSearch
import Mathlib.Data.List.Nodup
import Mathlib.Data.List.Perm.Subperm

namespace CodeAtlas

/-! ### What is stored -/

namespace Store

variable {s : Store}

/-- The node is stored, as it is. -/
def HasNode (s : Store) (n : Node) : Prop := (s.nodes.get? n.id).map StoredNode.node = some n

/-- The relationship is stored, as it is. -/
def HasRelationship (s : Store) (r : Relationship) : Prop := s.relationships.get? r.id = some r

theorem HasNode.eq_of_id {a b : Node} (ha : s.HasNode a) (hb : s.HasNode b) (h : a.id = b.id) :
    a = b := by
  unfold HasNode at ha hb
  rw [h, hb] at ha
  exact Option.some.inj ha.symm

theorem HasRelationship.eq_of_id {a b : Relationship} (ha : s.HasRelationship a)
    (hb : s.HasRelationship b) (h : a.id = b.id) : a = b := by
  unfold HasRelationship at ha hb
  rw [h, hb] at ha
  exact Option.some.inj ha.symm

namespace Integral

variable (h : s.Integral)
include h

theorem hasNode_of_get? {i : String} {n : StoredNode} (hn : s.nodes.get? i = some n) :
    s.HasNode n.node := by
  rw [HasNode, h.nodes hn, hn, Option.map_some]

theorem mem_nodes {n : Node} : n ∈ s.nodes.values.map StoredNode.node ↔ s.HasNode n := by
  rw [List.mem_map]
  constructor
  · rintro ⟨stored, hstored, rfl⟩
    obtain ⟨i, hi⟩ := SortedMap.mem_values.mp hstored
    exact h.hasNode_of_get? hi
  · intro hn
    obtain ⟨stored, hstored, rfl⟩ := Option.map_eq_some_iff.mp hn
    exact ⟨stored, SortedMap.mem_values.mpr ⟨_, hstored⟩, rfl⟩

theorem mem_relationships {r : Relationship} : r ∈ s.relationships.values ↔ s.HasRelationship r := by
  rw [SortedMap.mem_values]
  constructor
  · rintro ⟨i, hi⟩
    rw [HasRelationship, h.relationships hi, hi]
  · intro hr
    exact ⟨_, hr⟩

theorem nodup_nodes : (s.nodes.values.map StoredNode.node).Nodup := by
  apply List.Nodup.of_map Node.id
  have hkeys : s.nodes.values.map (fun n => n.node.id) = s.nodes.keys := SortedMap.map_values h.nodes
  rw [List.map_map]
  exact hkeys ▸ SortedMap.nodup_keys _

theorem nodup_relationships : s.relationships.values.Nodup := by
  apply List.Nodup.of_map Relationship.id
  rw [SortedMap.map_values h.relationships]
  exact SortedMap.nodup_keys _

end Integral

/-- The node of an id, if there is one. -/
def nodesAt (s : Store) (i : String) : List Node := ((s.nodes.get? i).map StoredNode.node).toList

/-- The nodes at the ends of a relationship. -/
def endsOf (s : Store) (r : Relationship) : List Node := s.nodesAt r.source ++ s.nodesAt r.target

/-- Whether a relationship is looked for. -/
def fits (s : Store) (f : NodeFilter) (kinds : List String) (shape : Shape) (r : Relationship) : Bool :=
  (kinds.isEmpty || kinds.contains r.kind.name) && s.hasShape f shape r

theorem Integral.exists_end (h : s.Integral) {r : Relationship} (hr : s.HasRelationship r) {i : String}
    (hi : EndOf i r) : ∃ n ∈ s.endsOf r, n.id = i := by
  obtain ⟨n, hn⟩ := SortedMap.contains_iff.mp (h.ends hr hi)
  have hmem : n.node ∈ s.nodesAt i := by simp [nodesAt, hn]
  refine ⟨n.node, ?_, h.nodes hn⟩
  obtain rfl | rfl := hi
  · exact List.mem_append_left _ hmem
  · exact List.mem_append_right _ hmem

end Store

/-! ### What is collected -/

/-- The elements with one more, unless its key is among theirs. -/
def once {α : Type} (key : α → String) (l : List α) (a : α) : List α :=
  if l.any (key · == key a) then l else l ++ [a]

/-- What is kept of given elements: each key once, and all of them. -/
structure KeepsOnce {α : Type} (key : α → String) (Has : α → Prop) (given kept : List α) : Prop where
  keys : (kept.map key).Nodup
  mem : ∀ a, a ∈ kept ↔ a ∈ given
  has : ∀ a ∈ given, Has a

namespace KeepsOnce

variable {α : Type} {key : α → String} {Has : α → Prop} {given kept : List α}

theorem nil : KeepsOnce key Has [] [] where
  keys := .nil
  mem _ := .rfl
  has := by simp

variable (h : KeepsOnce key Has given kept)
include h

/-- Where the key tells apart what there is, one that is left out was kept already. -/
theorem add (hkey : ∀ {a b}, Has a → Has b → key a = key b → a = b) {a : α} (ha : Has a) :
    KeepsOnce key Has (given ++ [a]) (once key kept a) where
  keys := by
    unfold once
    split
    · exact h.keys
    · rename_i hnew
      rw [List.map_append, List.map_singleton, ← List.concat_eq_append]
      refine List.Nodup.concat ?_ h.keys
      simpa using hnew
  mem b := by
    rw [List.mem_append, List.mem_singleton, ← h.mem, once]
    split
    · rename_i hold
      obtain ⟨c, hc, hca⟩ := List.any_eq_true.mp hold
      obtain rfl : c = a := hkey (h.has c ((h.mem c).mp hc)) ha (by simpa using hca)
      constructor
      · exact .inl
      · rintro (hb | rfl)
        · exact hb
        · exact hc
    · simp
  has b hb := by
    obtain hb | hb := List.mem_append.mp hb
    · exact h.has b hb
    · exact List.mem_singleton.mp hb ▸ ha

theorem nodup : kept.Nodup := h.keys.of_map key

theorem length_le : kept.length ≤ given.length :=
  (List.subperm_of_subset h.nodup fun a ha => (h.mem a).mp ha).length_le

theorem length_eq (hgiven : given.Nodup) : kept.length = given.length :=
  ((List.perm_ext_iff_of_nodup h.nodup hgiven).mpr h.mem).length_eq

end KeepsOnce

namespace Found

/-- What is found when nodes and relationships of a graph are added in turn. -/
structure Collects (s : Store) (ns : List Node) (rs : List Relationship) (f : Found) : Prop where
  nodes : KeepsOnce Node.id s.HasNode ns f.nodes
  relationships : KeepsOnce Relationship.id s.HasRelationship rs f.relationships

theorem addNode_eq (f : Found) (n : Node) :
    f.addNode n = { f with nodes := once Node.id f.nodes n } := by
  unfold addNode once
  split <;> rfl

theorem addRelationship_eq (f : Found) (r : Relationship) :
    f.addRelationship r = { f with relationships := once Relationship.id f.relationships r } := by
  unfold addRelationship once
  split <;> rfl

namespace Collects

variable {s : Store} {ns : List Node} {rs : List Relationship} {f : Found}

theorem nothing : Collects s [] [] nothing := ⟨.nil, .nil⟩

variable (h : Collects s ns rs f)
include h

theorem addRow : Collects s ns rs f.addRow := ⟨h.nodes, h.relationships⟩

theorem addNode {n : Node} (hn : s.HasNode n) : Collects s (ns ++ [n]) rs (f.addNode n) := by
  rw [addNode_eq]
  exact ⟨h.nodes.add Store.HasNode.eq_of_id hn, h.relationships⟩

theorem addRelationship {r : Relationship} (hr : s.HasRelationship r) :
    Collects s ns (rs ++ [r]) (f.addRelationship r) := by
  rw [addRelationship_eq]
  exact ⟨h.nodes, h.relationships.add Store.HasRelationship.eq_of_id hr⟩

theorem foundNode (hs : s.Integral) (i : String) :
    Collects s (ns ++ s.nodesAt i) rs (s.foundNode f i) := by
  unfold Store.foundNode Store.nodesAt
  cases hi : s.nodes.get? i with
  | none => simpa using h
  | some n => exact h.addNode (hs.hasNode_of_get? hi)

/-- A relationship that is found brings its ends. -/
theorem foundEdge (hs : s.Integral) {r : Relationship} (hr : s.HasRelationship r) :
    Collects s (ns ++ s.endsOf r) (rs ++ [r]) (s.foundEdge f r) := by
  have hends := (h.foundNode hs r.source).foundNode hs r.target
  rw [List.append_assoc] at hends
  exact hends.addRelationship hr

omit h in
/-- What is collected in a run is what its steps collect. -/
theorem foldl {α : Type} {step : Found → α → Found} (nodesOf : α → List Node)
    (relationshipsOf : α → List Relationship) : ∀ (l : List α) {ns : List Node} {rs : List Relationship}
    {f : Found}, Collects s ns rs f →
    (∀ a ∈ l, ∀ {ns rs f}, Collects s ns rs f →
      Collects s (ns ++ nodesOf a) (rs ++ relationshipsOf a) (step f a)) →
    Collects s (ns ++ l.flatMap nodesOf) (rs ++ l.flatMap relationshipsOf) (l.foldl step f)
  | [], _, _, _, h, _ => by simpa using h
  | a :: l, _, _, _, h, hstep => by
    have ih := foldl nodesOf relationshipsOf l (hstep a List.mem_cons_self h)
      fun b hb => hstep b (List.mem_cons_of_mem _ hb)
    simpa [List.append_assoc] using ih

end Collects

end Found

/-! ### Looking at it without the graph -/

namespace Store

/-- What some nodes and relationships are that can be looked at without the graph: each id is there once,
all of them are stored, and the ends of the relationships are among the nodes. -/
structure SelfContained (s : Store) (ns : List Node) (rs : List Relationship) : Prop where
  node_ids : (ns.map Node.id).Nodup
  relationship_ids : (rs.map Relationship.id).Nodup
  hasNode : ∀ n ∈ ns, s.HasNode n
  hasRelationship : ∀ r ∈ rs, s.HasRelationship r
  ends : ∀ r ∈ rs, r.source ∈ ns.map Node.id ∧ r.target ∈ ns.map Node.id

theorem selfContained_of_collects {s : Store} {ns : List Node} {rs : List Relationship} {f : Found}
    (h : Found.Collects s ns rs f) (hends : ∀ r ∈ rs, ∀ {i}, EndOf i r → ∃ n ∈ ns, n.id = i) :
    s.SelfContained f.nodes f.relationships where
  node_ids := h.nodes.keys
  relationship_ids := h.relationships.keys
  hasNode n hn := h.nodes.has n ((h.nodes.mem n).mp hn)
  hasRelationship r hr := h.relationships.has r ((h.relationships.mem r).mp hr)
  ends r hr := by
    have hend {i : String} (hi : EndOf i r) : i ∈ f.nodes.map Node.id := by
      obtain ⟨n, hn, rfl⟩ := hends r ((h.relationships.mem r).mp hr) hi
      exact List.mem_map_of_mem ((h.nodes.mem n).mpr hn)
    exact ⟨hend (.inl rfl), hend (.inr rfl)⟩

theorem Integral.selfContained_edges {s : Store} (hs : s.Integral) {rs : List Relationship} {f : Found}
    (h : Found.Collects s (rs.flatMap s.endsOf) rs f) : s.SelfContained f.nodes f.relationships := by
  refine selfContained_of_collects h fun r hr i hi => ?_
  obtain ⟨n, hn, hid⟩ := hs.exists_end (h.relationships.has r hr) hi
  exact ⟨n, List.mem_flatMap.mpr ⟨r, hr, hn⟩, hid⟩

end Store

/-! ### The searches -/

/-- What is given of those that fit: no more than the limit, and all of them where there are fewer. -/
structure Fills {α : Type} (limit : Nat) (Fits : α → Prop) (l : List α) : Prop where
  length_le : l.length ≤ limit
  fits : ∀ a ∈ l, Fits a
  complete : l.length < limit → ∀ a, Fits a → a ∈ l

theorem KeepsOnce.fills {α : Type} {key : α → String} {Has Fits : α → Prop} {l kept : List α}
    {limit : Nat} (h : KeepsOnce key Has (l.take limit) kept) (hl : l.Nodup)
    (hfits : ∀ a, a ∈ l ↔ Fits a) : Fills limit Fits kept := by
  have hlength := h.length_eq (hl.sublist (List.take_sublist _ _))
  rw [List.length_take] at hlength
  refine ⟨by omega, ?_, ?_⟩
  · intro a ha
    exact (hfits a).mp (List.mem_of_mem_take ((h.mem a).mp ha))
  · intro hfew a ha
    have hall : l.take limit = l := List.take_of_length_le (by omega)
    rw [h.mem, hall]
    exact (hfits a).mpr ha

namespace Store

open Found (Collects)

variable {s : Store}

/-- A path of at most six relationships, from a node whose name holds one text to another node, whose
name holds another. -/
structure Connects (s : Store) (start goal : String) (path : List Relationship) (a b : Node) : Prop where
  hasStart : s.HasNode a ∧ Text.hasSub start (Text.lower a.name) = true
  hasGoal : s.HasNode b ∧ Text.hasSub goal (Text.lower b.name) = true
  ne : a.id ≠ b.id
  chain : Chain s.relationships.values a.id path b.id
  length_le : path.length ≤ 6

theorem Chain.subset {rs path : List Relationship} {a b : String} (h : Chain rs a path b) : path ⊆ rs := by
  induction h with
  | nil => exact List.nil_subset _
  | snoc _ hr _ ih => exact List.append_subset.mpr ⟨ih, List.cons_subset.mpr ⟨hr, List.nil_subset _⟩⟩

theorem chain_of_shortestPath? {rs : SortedMap String Relationship} {a b : String}
    {path : List Relationship} (h : shortestPath? rs a b = some path) :
    Chain rs.values a path b ∧ path.length ≤ 6 := by
  have hanswers := answers_shortestPath? rs a b
  obtain ⟨hchain, hleast⟩ := hanswers.shortest path h
  obtain ⟨other, hother, hlength⟩ := hanswers.isSome_iff.mp (h ▸ rfl)
  have hle := hleast other hother
  exact ⟨hchain, by omega⟩

/-- A run that finds relationships collects them and their ends. -/
theorem collects_edges {step : Found → Relationship → Found} {l : List Relationship}
    (hstep : ∀ r ∈ l, ∀ {ns rs f}, Collects s ns rs f →
      Collects s (ns ++ s.endsOf r) (rs ++ [r]) (step f r)) :
    Collects s (l.flatMap s.endsOf) l (l.foldl step .nothing) := by
  have hrun : Collects s _ _ (l.foldl step .nothing) := .foldl s.endsOf (fun r => [r]) l .nothing hstep
  rwa [List.flatMap_singleton', List.nil_append, List.nil_append] at hrun

namespace Integral

variable (h : s.Integral)
include h

theorem collects_searchNodes (f : NodeFilter) (limit : Nat) :
    Collects s ((Ordered.sort precedes ((s.nodes.values.map StoredNode.node).filter f.accepts)).take limit)
      [] (s.searchNodes f limit) := by
  have hrun : Collects s _ _ (s.searchNodes f limit) :=
    .foldl (fun n => [n]) (fun _ => []) _ .nothing fun n hn ns rs found hfound => by
      have hmem := (List.mem_filter.mp (Ordered.mem_sort.mp (List.mem_of_mem_take hn))).1
      rw [List.append_nil]
      exact (hfound.addNode (h.mem_nodes.mp hmem)).addRow
  rwa [List.flatMap_singleton', List.nil_append, List.nil_append,
    List.flatMap_eq_nil_iff.mpr fun _ _ => rfl] at hrun

theorem fills_searchNodes (f : NodeFilter) (limit : Nat) :
    Fills limit (fun n => s.HasNode n ∧ f.accepts n = true) (s.searchNodes f limit).nodes := by
  refine (h.collects_searchNodes f limit).nodes.fills ?_ fun n => ?_
  · exact (Ordered.sort_perm precedes _).nodup_iff.mpr (h.nodup_nodes.filter f.accepts)
  · rw [Ordered.mem_sort, List.mem_filter, h.mem_nodes]

theorem collects_searchEdges (f : NodeFilter) (kinds : List String) (shape : Shape) (limit : Nat) :
    let chosen := (s.relationships.values.filter (s.fits f kinds shape)).take limit
    Collects s (chosen.flatMap s.endsOf) chosen (s.searchEdges f kinds shape limit) := by
  refine collects_edges fun r hr ns rs found hfound => ?_
  have hmem := (List.mem_filter.mp (List.mem_of_mem_take hr)).1
  exact (hfound.foundEdge h (h.mem_relationships.mp hmem)).addRow

theorem fills_searchEdges (f : NodeFilter) (kinds : List String) (shape : Shape) (limit : Nat) :
    Fills limit (fun r => s.HasRelationship r ∧ s.fits f kinds shape r = true)
      (s.searchEdges f kinds shape limit).relationships := by
  refine (h.collects_searchEdges f kinds shape limit).relationships.fills ?_ fun r => ?_
  · exact h.nodup_relationships.filter _
  · rw [List.mem_filter, h.mem_relationships]

theorem mem_named {part : String} {n : Node} : n ∈ s.named part ↔
    s.HasNode n ∧ Text.hasSub part (Text.lower n.name) = true := by
  rw [← h.mem_nodes, named, List.mem_map, List.mem_map]
  constructor
  · rintro ⟨stored, hstored, rfl⟩
    obtain ⟨hmem, hname⟩ := List.mem_filter.mp hstored
    exact ⟨⟨stored, hmem, rfl⟩, hname⟩
  · rintro ⟨⟨stored, hmem, rfl⟩, hname⟩
    exact ⟨stored, List.mem_filter.mpr ⟨hmem, hname⟩, rfl⟩

/-- A path that is looked for is found, or there is none. -/
theorem collects_searchPath (start goal : String) :
    (s.searchPath start goal = .nothing ∧ ∀ path a b, ¬ s.Connects start goal path a b) ∨
      ∃ path a b, s.Connects start goal path a b ∧
        Collects s (path.flatMap s.endsOf) path (s.searchPath start goal) := by
  unfold searchPath
  dsimp only
  split
  · rename_i path hfind
    right
    obtain ⟨⟨a, b⟩, hpair, hpath⟩ := List.exists_of_findSome?_eq_some hfind
    obtain ⟨na, hna, hpair⟩ := List.mem_flatMap.mp hpair
    obtain ⟨nb, hnb, hpair⟩ := List.mem_map.mp hpair
    obtain ⟨rfl, rfl⟩ := Prod.mk.inj hpair
    have hne : na.id ≠ nb.id := by
      intro he
      simp [he] at hpath
    obtain ⟨hchain, hlength⟩ := chain_of_shortestPath? (by simpa [hne] using hpath)
    refine ⟨path, na, nb, ⟨h.mem_named.mp hna, h.mem_named.mp hnb, hne, hchain, hlength⟩, ?_⟩
    have hrun : Collects s (path.flatMap s.endsOf) path (path.foldl s.foundEdge .nothing) :=
      collects_edges fun r hr ns rs f hf => hf.foundEdge h (h.mem_relationships.mp (hchain.subset hr))
    exact ⟨hrun.nodes, hrun.relationships⟩
  · rename_i hfind
    left
    refine ⟨rfl, fun path a b hconnects => ?_⟩
    have hpair : (a.id, b.id) ∈
        (s.named start).flatMap fun a => (s.named goal).map fun b => (a.id, b.id) :=
      List.mem_flatMap.mpr ⟨a, h.mem_named.mpr hconnects.hasStart,
        List.mem_map.mpr ⟨b, h.mem_named.mpr hconnects.hasGoal, rfl⟩⟩
    have hnone := List.findSome?_eq_none_iff.mp hfind _ hpair
    have hmissed : shortestPath? s.relationships a.id b.id = none := by simpa [hconnects.ne] using hnone
    have hnear : Nearer s.relationships.values a.id 7 b.id :=
      ⟨path, hconnects.chain, Nat.lt_succ_of_le hconnects.length_le⟩
    have hsome := (answers_shortestPath? s.relationships a.id b.id).isSome_iff.mpr hnear
    simp [hmissed] at hsome

end Integral

end Store

end CodeAtlas
