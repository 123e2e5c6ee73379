/-
# What is built is closed

Each place at which a relationship is drawn (`Build.Drawn`) names two ids. The first is always that of a
node of the same file: the file itself, something that it declares, or an export. So is the second where
the source text alone decides it. Only a call, a base, the use of a type and an import of a file of the
project lead to where an index or the tree of files says, and that may be outside of what is built.

Nodes of one id are kept once (`Build.nodup_distinctNodes`), and no id is lost, so what holds of the nodes
of a file holds of what is built of many files (`Batch.ofFilesWith_closed`).

Key definitions: `FileFacts.MethodsPlaced`, `Build.HasNode`, `Batch.Closed`.
Key theorems: `Build.Drawn.source_mem`, `Build.Drawn.target_mem`, `Build.nodup_distinctNodes`,
`Batch.ofFilesWith_closed`.
-/
import CodeAtlas.Proofs.Agreement

namespace CodeAtlas

/-- The methods of the file are in classes that the file declares. -/
def FileFacts.MethodsPlaced (f : FileFacts) : Prop :=
  ∀ g c, .function g ∈ f.declarations → g.className = some c →
    ∃ k, .classType k ∈ f.declarations ∧ k.name = c

namespace Build

variable {createdAt : Int} {ix : SymbolIndex} {file : FileFacts} {r : Relationship}

/-! ### What every relationship has -/

theorem Drawn.exists_eq_edge (h : Drawn createdAt ix file r) :
    ∃ kind source target confidence description line,
      r = edge createdAt file kind source target confidence description line := by
  cases h <;> exact ⟨_, _, _, _, _, _, rfl⟩

theorem Drawn.id_eq (h : Drawn createdAt ix file r) :
    r.id = Ident.relationship r.kind r.source r.target := by
  obtain ⟨_, _, _, _, _, _, rfl⟩ := h.exists_eq_edge
  rfl

theorem Drawn.filePath? (h : Drawn createdAt ix file r) : r.filePath? = some file.path := by
  obtain ⟨_, _, _, _, _, _, rfl⟩ := h.exists_eq_edge
  rw [Relationship.filePath?, filePath_edge]
  rfl

theorem Drawn.created (h : Drawn createdAt ix file r) :
    r.properties.get? "created_at" = some (.int createdAt) := by
  obtain ⟨_, _, _, _, _, _, rfl⟩ := h.exists_eq_edge
  simp [edge, Relationship.withProperty, Relationship.make, SortedMap.get?_insert_eq]

theorem Drawn.createdAt_eq (h : Drawn createdAt ix file r) (htime : Word.isSigned createdAt = true) :
    r.createdAt = createdAt := by
  rw [Relationship.createdAt, h.created]
  simp [Json.int, Json.int?, htime]

/-! ### The ends -/

/-- The file has a node of this id. -/
def HasNode (file : FileFacts) (id : String) : Prop := ∃ n ∈ fileNodes file, n.id = id

theorem Made.hasNode {n : Node} (h : Made file n) : HasNode file n.id :=
  ⟨n, mem_fileNodes.mpr h, rfl⟩

/-- What an export refers to is declared in the file. -/
theorem hasNode_of_localId? {name target : String} (h : localId? file name = some target) :
    HasNode file target := by
  obtain ⟨before, after, hl, _⟩ := List.lookup_eq_some_iff.mp h
  have hm : (name, target) ∈ (file.declarations.filterMap (local? file)).reverse := by simp [hl]
  obtain ⟨d, hd, hlocal⟩ := List.mem_filterMap.mp (List.mem_reverse.mp hm)
  unfold local? at hlocal
  split at hlocal
  · cases hlocal
  · obtain ⟨x, hx, he⟩ := Option.map_eq_some_iff.mp hlocal
    cases he
    exact node_of_symbol? hd hx

/-- A relationship starts at a node of its file. -/
theorem Drawn.source_mem (hplaced : file.MethodsPlaced) (h : Drawn createdAt ix file r) :
    HasNode file r.source := by
  cases h with
  | method hg hc =>
    obtain ⟨k, hk, rfl⟩ := hplaced _ _ hg hc
    exact (Made.classType hk).hasNode
  | call hg | usedType hg => exact (Made.function hg).hasNode
  | superclass hc | implemented hc => exact (Made.classType hc).hasNode
  | parent hi => exact (Made.interface hi).hasNode
  | reference he => exact (Made.exported he).hasNode
  | function | classType | interface | typeAlias | imported | importedFile | importedPackage | exported =>
    exact Made.file.hasNode

/-- The kinds of relationships whose target is a name that is looked up. -/
def lookedUp : List RelationKind := [.calls, .extends, .implements, .usesType]

/-- A relationship ends at a node of its file, unless its target is a name that is looked up, or a file. -/
theorem Drawn.target_mem (h : Drawn createdAt ix file r) : r.kind ∈ lookedUp ∨
    (r.kind = .dependsOn ∧ ∃ path, r.target = Ident.file path) ∨ HasNode file r.target := by
  cases h with
  | call | usedType | superclass | implemented | parent => exact .inl (by simp [lookedUp])
  | importedFile => exact .inr (.inl ⟨rfl, _, rfl⟩)
  | method hg | function hg => exact .inr (.inr (Made.function hg).hasNode)
  | classType hc => exact .inr (.inr (Made.classType hc).hasNode)
  | interface hi => exact .inr (.inr (Made.interface hi).hasNode)
  | typeAlias ht => exact .inr (.inr (Made.typeAlias ht).hasNode)
  | imported hi => exact .inr (.inr (Made.imported hi).hasNode)
  | importedPackage hi hname => exact .inr (.inr (Made.package hi hname).hasNode)
  | exported he => exact .inr (.inr (Made.exported he).hasNode)
  | reference _ _ _ htarget => exact .inr (.inr (hasNode_of_localId? htarget))

/-! ### Many files -/

/-- The nodes kept have ids of their own, all of which were seen. -/
structure KeptOnce (state : List Node × SortedMap String Unit) : Prop where
  nodup : (state.1.map (·.id)).Nodup
  seen : ∀ n ∈ state.1, state.2.contains n.id = true

theorem KeptOnce.keepNode {state : List Node × SortedMap String Unit} (h : KeptOnce state) (a : Node) :
    KeptOnce (keepNode state a) := by
  rw [Build.keepNode]
  by_cases ha : state.2.contains a.id = true
  · rw [if_pos ha]
    exact h
  · rw [if_neg ha]
    constructor
    · rw [List.map_cons, List.nodup_cons]
      refine ⟨fun hmem => ?_, h.nodup⟩
      obtain ⟨n, hn, hid⟩ := List.mem_map.mp hmem
      exact ha (hid ▸ h.seen n hn)
    · intro n hn
      rw [SortedMap.contains_insert]
      rcases List.mem_cons.mp hn with rfl | hn
      · simp
      · simp [h.seen n hn]

theorem KeptOnce.foldl {nodes : List Node} {state : List Node × SortedMap String Unit}
    (h : KeptOnce state) : KeptOnce (nodes.foldl Build.keepNode state) := by
  induction nodes generalizing state with
  | nil => exact h
  | cons a nodes ih => exact ih (h.keepNode a)

/-- No id is kept twice. -/
theorem nodup_distinctNodes (nodes : List Node) : ((distinctNodes nodes).map (·.id)).Nodup := by
  have hstart : KeptOnce ([], .empty) := ⟨List.nodup_nil, by simp⟩
  rw [distinctNodes_eq, List.map_reverse, (List.reverse_perm _).nodup_iff]
  exact hstart.foldl.nodup

end Build

namespace Batch

open Build

variable {createdAt : Int} {ix : SymbolIndex} {files : List FileFacts}

/-- What a file has a node for is among what is built. -/
theorem exists_node {f : FileFacts} (hf : f ∈ files) {id : String} (h : HasNode f id) :
    ∃ n ∈ (ofFilesWith createdAt ix files).nodes, n.id = id := by
  obtain ⟨n, hn, rfl⟩ := h
  exact exists_mem_distinctNodes (List.mem_flatMap.mpr ⟨f, hf, hn⟩)

/-- The nodes have ids of their own. Every relationship has the id of what it says, the time of building
and the path of one of the files, and starts at one of the nodes; and it ends at one of them, unless its
target is a name that is looked up, or a file that is not among the files. -/
structure Closed (createdAt : Int) (files : List FileFacts) (b : Batch) : Prop where
  nodup : (b.nodes.map (·.id)).Nodup
  id_eq : ∀ r ∈ b.relationships, r.id = Ident.relationship r.kind r.source r.target
  created : ∀ r ∈ b.relationships, r.properties.get? "created_at" = some (.int createdAt) ∧
    (Word.isSigned createdAt = true → r.createdAt = createdAt)
  filed : ∀ r ∈ b.relationships, ∃ f ∈ files, r.filePath? = some f.path
  source_mem : ∀ r ∈ b.relationships, ∃ n ∈ b.nodes, n.id = r.source
  target_mem : ∀ r ∈ b.relationships, r.kind ∈ [.calls, .extends, .implements, .usesType] ∨
    (r.kind = .dependsOn ∧ ∃ path, path ∉ files.map (·.path) ∧ r.target = Ident.file path) ∨
    ∃ n ∈ b.nodes, n.id = r.target

/-- What is built of files whose methods are in classes that they declare is closed, whatever the names
are looked up in. -/
theorem ofFilesWith_closed (createdAt : Int) (ix : SymbolIndex) (hplaced : ∀ f ∈ files, f.MethodsPlaced) :
    Closed createdAt files (ofFilesWith createdAt ix files) := by
  have hdrawn : ∀ r ∈ (ofFilesWith createdAt ix files).relationships,
      ∃ f ∈ files, Drawn createdAt ix f r := by
    intro r hr
    obtain ⟨f, hf, hr⟩ := List.mem_flatMap.mp hr
    exact ⟨f, hf, mem_fileRelationships.mp hr⟩
  constructor
  · exact nodup_distinctNodes _
  · intro r hr
    obtain ⟨f, _, h⟩ := hdrawn r hr
    exact h.id_eq
  · intro r hr
    obtain ⟨f, _, h⟩ := hdrawn r hr
    exact ⟨h.created, h.createdAt_eq⟩
  · intro r hr
    obtain ⟨f, hf, h⟩ := hdrawn r hr
    exact ⟨f, hf, h.filePath?⟩
  · intro r hr
    obtain ⟨f, hf, h⟩ := hdrawn r hr
    exact exists_node hf (h.source_mem (hplaced f hf))
  · intro r hr
    obtain ⟨f, hf, h⟩ := hdrawn r hr
    rcases h.target_mem with hlooked | ⟨hkind, path, htarget⟩ | hnode
    · exact .inl hlooked
    · by_cases hpath : path ∈ files.map (·.path)
      · -- a file that is among the files has a node
        obtain ⟨g, hg, rfl⟩ := List.mem_map.mp hpath
        exact .inr (.inr (htarget ▸ exists_node hg Made.file.hasNode))
      · exact .inr (.inl ⟨hkind, path, hpath, htarget⟩)
    · exact .inr (.inr (exists_node hf hnode))

end Batch

namespace Trial

/-- A file with a class that extends another and has a method which calls a function, an import of a
package and one of a file, and an export of the class. -/
def connected : FileFacts :=
  { classes "a.ts" with
    declarations :=
      [.export ⟨.named, ["C"], none, 1⟩, .function (function (some "C") "m" ["n"]),
       .classType ⟨"C", false, false, some "B", [], ["m"], [], none, 2, 4, none⟩,
       .import ⟨"lodash", [.default], [], false, 5⟩, .import ⟨"./b", [.sideEffect], [], true, 6⟩]
    resolvedImports := [("./b", "b.ts")] }

theorem placed_connected : connected.MethodsPlaced := by
  intro g c hg hc
  simp only [connected, List.mem_cons, List.not_mem_nil, or_false, reduceCtorEq, false_or,
    Declaration.function.injEq] at hg
  subst hg
  cases hc
  refine ⟨⟨"C", false, false, some "B", [], ["m"], [], none, 2, 4, none⟩, ?_, rfl⟩
  simp [connected]

/-- The file is built by itself, with nothing to look names up in: ten relationships are drawn, and what is
built is closed. -/
theorem closed_connected : (∀ f ∈ [connected], f.MethodsPlaced) ∧
    (Batch.ofFilesWith 7 ⟨[], []⟩ [connected]).relationships.length = 10 ∧
    Batch.Closed 7 [connected] (Batch.ofFilesWith 7 ⟨[], []⟩ [connected]) := by
  have hplaced : ∀ f ∈ [connected], f.MethodsPlaced := by
    intro f hf
    rw [List.mem_singleton] at hf
    exact hf ▸ placed_connected
  exact ⟨hplaced, by decide +kernel, Batch.ofFilesWith_closed 7 ⟨[], []⟩ hplaced⟩

end Trial

end CodeAtlas
