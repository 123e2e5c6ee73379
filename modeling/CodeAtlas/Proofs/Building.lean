/-
# What the relationships of a file look like

An id begins with the tag of its kind, so it tells the kind of its node (`NodeKind.tagged_unique`).
Every relationship that is built for a file is an edge between two tagged ids whose kinds determine
the kind of the relationship (`Build.exists_edge`), so long as the names are looked up in an index whose
ids are tagged (`SymbolIndex.IsTagged`), as those of all parsed files are
(`FileSymbols.isTagged_ofFacts`). A built relationship carries the path of its file, and the time it was
built at only in one property (`Build.fileRelationships_stamp`).

The nodes of a file carry its path too, packages apart, and those for names are what the file declares
(`Build.exists_node_of_declares`, `Build.declares_of_node`). Of several files that declare one id, the
first gives the node (`Build.find?_declares_of_mem`).

Key definitions: `NodeKind.Tagged`, `RelationKind.between?`, `Relationship.Proper`,
`Candidate.IsFirst`, `SymbolIndex.IsTagged`, `Relationship.stamp`, `Build.declares`.
Key theorems: `Candidate.mem_distinct`, `Build.exists_edge`, `Build.EdgeOf.proper`,
`Build.fileRelationships_stamp`, `Build.nodeOf_of_mem`, `Build.exists_mem_distinctNodes`,
`Build.find?_declares_of_mem`.
-/
import CodeAtlas.Graph.Reduce
import CodeAtlas.Proofs.Drawing
import CodeAtlas.Proofs.SortedMap

namespace CodeAtlas

/-! ### Tags -/

namespace NodeKind

/-- The id begins with the tag of the kind. -/
def Tagged (k : NodeKind) (id : String) : Prop :=
  id.toList.takeWhile (fun c => c != ':') = k.tag.toList

instance (k : NodeKind) (id : String) : Decidable (k.Tagged id) :=
  inferInstanceAs (Decidable (_ = _))

theorem tagged_unique {k k' : NodeKind} {id : String} (h : k.Tagged id) (h' : k'.Tagged id) :
    k = k' := by
  have he : k.tag.toList = k'.tag.toList := h.symm.trans h'
  revert he
  cases k <;> cases k' <;> decide

theorem tagged_node (k : NodeKind) (space name : String) (mark : Option String) :
    k.Tagged (Ident.node k space name mark) := by
  have htag : ∀ c ∈ k.tag.toList, (c != ':') = true :=
    List.all_eq_true.mp (by cases k <;> rfl)
  rw [Tagged, Ident.node, Ident.ofFields, String.toList_append, String.toList_append,
    List.append_assoc, List.takeWhile_append_of_pos htag]
  simp

end NodeKind

/-- The kind of the relationships between nodes of two kinds. -/
def RelationKind.between? : NodeKind → NodeKind → Option RelationKind
  | .function, .function => some .calls
  | .function, .classType | .function, .interface | .function, .typeAlias => some .usesType
  | .classType, .function => some .hasMethod
  | .classType, .classType | .interface, .interface => some .extends
  | .classType, .interface => some .implements
  | .file, .function | .file, .classType => some .contains
  | .file, .interface | .file, .typeAlias => some .defines
  | .file, .import => some .imports
  | .file, .export => some .exports
  | .file, .file | .file, .module => some .dependsOn
  | .export, .function | .export, .classType | .export, .interface | .export, .typeAlias =>
    some .references
  | _, _ => none

/-- A relationship with the id of what it says, between ids whose kinds tell its kind, confident
enough, and with the path of a file. -/
structure Relationship.Proper (r : Relationship) : Prop where
  id_eq : r.id = Ident.relationship r.kind r.source r.target
  ends : ∃ s t, s.Tagged r.source ∧ t.Tagged r.target ∧ RelationKind.between? s t = some r.kind
  confident : ∃ c, r.properties.get? "confidence" = some (.float c) ∧ ¬ c < Reduce.minConfidence
  filed : ∃ path, r.properties.get? "file_path" = some (.string path)

namespace Relationship.Proper

variable {r r' : Relationship}

theorem confidence_passes (h : r.Proper) : ¬ r.confidence < Reduce.minConfidence := by
  obtain ⟨c, hc, hpass⟩ := h.confident
  have : r.confidence = c := by
    rw [Relationship.confidence, hc]
    rfl
  rwa [this]

/-- Between two nodes there is only one thing to say. -/
theorem kind_unique (h : r.Proper) (h' : r'.Proper) (hs : r.source = r'.source)
    (ht : r.target = r'.target) : r.kind = r'.kind := by
  obtain ⟨s, t, hs1, ht1, hk⟩ := h.ends
  obtain ⟨s', t', hs2, ht2, hk'⟩ := h'.ends
  rw [← hs] at hs2
  rw [← ht] at ht2
  rw [NodeKind.tagged_unique hs1 hs2, NodeKind.tagged_unique ht1 ht2, hk'] at hk
  exact (Option.some.inj hk).symm

theorem kind_ne_relatedTo (h : r.Proper) : r.kind ≠ .relatedTo := by
  obtain ⟨s, t, _, _, hk⟩ := h.ends
  intro he
  rw [he] at hk
  revert hk
  cases s <;> cases t <;> decide

end Relationship.Proper

/-- The relationship with the time it was made at. -/
def Relationship.stamp (time : Int) (r : Relationship) : Relationship :=
  r.withProperty "created_at" (.int time)

/-! ### Tagged symbols -/

/-- The id of a symbol has the tag of its kind, and only functions have an owner. -/
structure Symbol.IsTagged (s : Symbol) : Prop where
  id : s.kind.Tagged s.id
  owner : s.owner.isSome = true → s.kind = .function

/-- Every symbol of the file is tagged. -/
def FileSymbols.IsTagged (f : FileSymbols) : Prop := ∀ s ∈ f.symbols, s.IsTagged

/-- Every symbol of every file is tagged. -/
def SymbolMap.IsTagged (m : SymbolMap) : Prop := ∀ {path f}, m.get? path = some f → f.IsTagged

/-- A declared symbol is tagged, and may be what an export refers to. -/
theorem Scope.isTagged_symbol? {scope : Scope} {d : Declaration} {s : Symbol}
    (h : scope.symbol? d = some s) :
    s.IsTagged ∧ RelationKind.between? .export s.kind = some .references := by
  unfold Scope.symbol? at h
  split at h
  · split at h
    · cases h
      exact ⟨⟨NodeKind.tagged_node .function _ _ _, fun _ => rfl⟩, rfl⟩
    · cases h
      exact ⟨⟨NodeKind.tagged_node .function _ _ _, nofun⟩, rfl⟩
  · cases h
    exact ⟨⟨NodeKind.tagged_node .classType _ _ _, nofun⟩, rfl⟩
  · cases h
    exact ⟨⟨NodeKind.tagged_node .interface _ _ _, nofun⟩, rfl⟩
  · cases h
    exact ⟨⟨NodeKind.tagged_node .typeAlias _ _ _, nofun⟩, rfl⟩
  · cases h
  · cases h

/-- The symbols of a parsed file are tagged. -/
theorem FileSymbols.isTagged_ofFacts (f : FileFacts) : (FileSymbols.ofFacts f).IsTagged := by
  intro s hs
  obtain ⟨d, _, hd⟩ := List.mem_filterMap.mp hs
  exact (Scope.isTagged_symbol? hd).1

namespace Candidate

variable {l : List Candidate} {c : Candidate}

/-- The candidate is the first in the list with its id. -/
def IsFirst (l : List Candidate) (c : Candidate) : Prop := l.find? (·.id == c.id) = some c

theorem IsFirst.mem (h : IsFirst l c) : c ∈ l := List.mem_of_find?_eq_some h

theorem exists_first (h : c ∈ l) : ∃ d, IsFirst l d ∧ d.id = c.id := by
  cases hd : l.find? (·.id == c.id) with
  | none => exact absurd (List.find?_eq_none.mp hd c h) (by simp)
  | some d =>
    have hid : d.id = c.id := by simpa using List.find?_some hd
    exact ⟨d, by rwa [IsFirst, hid], hid⟩

theorem mem_distinct : c ∈ distinct l ↔ IsFirst l c := by
  -- what is kept already counts as found before the rest of the list
  have step : ∀ (l kept : List Candidate),
      c ∈ l.foldl (fun kept c => if kept.any (·.id == c.id) then kept else kept ++ [c]) kept ↔
        c ∈ kept ∨ (kept.any (·.id == c.id) = false ∧ l.find? (·.id == c.id) = some c) := by
    intro l
    induction l with
    | nil => simp
    | cons d l ih =>
      intro kept
      rw [List.foldl_cons, ih]
      by_cases hd : d.id = c.id
      · rw [List.find?_cons_of_pos (by simpa using hd)]
        by_cases hk : kept.any (·.id == d.id) = true
        · simp [hk, ← hd]
        · simp only [hk, Bool.false_eq_true, ↓reduceIte, List.any_append, ← hd]
          simp only [List.mem_append, List.mem_singleton]
          grind
      · rw [List.find?_cons_of_neg (by simpa using hd)]
        by_cases hk : kept.any (·.id == d.id) = true
        · simp [hk]
        · have hne : c ≠ d := fun h => hd (h ▸ rfl)
          simp [hk, hd, hne]
  rw [distinct, step]
  simp [IsFirst]

end Candidate

namespace SymbolIndex

/-- The ids that names stand for have the tags of their kinds. -/
structure IsTagged (ix : SymbolIndex) : Prop where
  declared : ∀ c ∈ ix.declared, c.kind.Tagged c.id
  methods : ∀ e ∈ ix.methods, NodeKind.Tagged .function e.id

/-- An index of files whose symbols are tagged is tagged. -/
theorem isTagged_ofFiles {files : List (String × FileSymbols)} (h : ∀ e ∈ files, e.2.IsTagged) :
    (ofFiles files).IsTagged where
  declared c hc := by
    obtain ⟨⟨path, f⟩, hf, hs⟩ := List.mem_flatMap.mp hc
    obtain ⟨s, hsym, rfl⟩ := List.mem_map.mp hs
    exact (h _ hf s (List.mem_filter.mp hsym).1).id
  methods e he := by
    obtain ⟨⟨path, f⟩, hf, hs⟩ := List.mem_flatMap.mp he
    obtain ⟨s, hsym, ho⟩ := List.mem_filterMap.mp hs
    obtain ⟨o, hso, rfl⟩ := Option.map_eq_some_iff.mp ho
    have htag := h _ hf s hsym
    exact htag.owner (by rw [hso]; rfl) ▸ htag.id

theorem isTagged_ofMap {m : SymbolMap} (hm : m.IsTagged) : (ofMap m).IsTagged :=
  isTagged_ofFiles fun _ he => hm (SortedMap.get?_eq_some_iff.mpr he)

variable {ix : SymbolIndex} {kinds : List NodeKind} {name package path id owner : String}

/-- A name found in a tagged index has one of the kinds looked for. -/
theorem tagged_of_find? (hix : ix.IsTagged) (h : ix.find? kinds name package path = some id) :
    ∃ k ∈ kinds, k.Tagged id := by
  obtain ⟨c, hp, rfl⟩ := Option.map_eq_some_iff.mp h
  have hc : c ∈ ix.candidates kinds name := by
    unfold pick at hp
    rcases Option.or_eq_some_iff.mp hp with h | ⟨_, h⟩
    · exact List.mem_of_find?_eq_some h
    · rcases Option.or_eq_some_iff.mp h with h | ⟨_, h⟩
      · exact List.mem_of_find?_eq_some h
      · rcases Option.or_eq_some_iff.mp h with h | ⟨_, h⟩
        · exact List.mem_of_find?_eq_some h
        · exact List.mem_of_find?_eq_some h
  rw [candidates, Ordered.mem_sort] at hc
  obtain ⟨hd, hk⟩ := List.mem_filter.mp (Candidate.mem_distinct.mp hc).mem
  simp only [Bool.and_eq_true, List.contains_iff_mem] at hk
  exact ⟨_, hk.1, hix.declared c hd⟩

theorem tagged_of_method? (hix : ix.IsTagged) (h : ix.method? owner name = some id) :
    NodeKind.Tagged .function id := by
  obtain ⟨e, he, rfl⟩ := Option.map_eq_some_iff.mp h
  exact hix.methods e (List.mem_reverse.mp (List.mem_of_find?_eq_some he))

end SymbolIndex

/-! ### Edges -/

namespace Build

/-- The confidences that relationships are built with. -/
def confidences : List Binary64 :=
  [structural, resolvedReference, resolvedFile, resolvedCall, unresolvedHeritage, typeUsage,
   unresolvedCall]

theorem confidences_pass : ∀ c ∈ confidences, ¬ c < Reduce.minConfidence := by decide +kernel

section Edge

variable (createdAt : Int) (file : FileFacts) (kind : RelationKind) (source target : String)
  (confidence : Binary64) (description : String) (line : Nat)

theorem confidence_edge :
    (edge createdAt file kind source target confidence description line).properties.get?
      "confidence" = some (.float confidence) := by
  simp [edge, Relationship.withProperty, Relationship.make, SortedMap.get?_insert_eq]

theorem filePath_edge :
    (edge createdAt file kind source target confidence description line).properties.get?
      "file_path" = some (.string file.path) := by
  simp [edge, Relationship.withProperty, Relationship.make, SortedMap.get?_insert_eq]

end Edge

/-- What there is to know of a relationship that is built for a file: it is an edge of the file, between
tagged ids, and a package it leads to is among the nodes of the file. -/
structure IsEdge (createdAt : Int) (file : FileFacts) (kind : RelationKind) (source target : String)
    (confidence : Binary64) (description : String) (line : Nat) : Prop where
  confident : confidence ∈ confidences
  ends : ∃ s t, s.Tagged source ∧ t.Tagged target ∧ RelationKind.between? s t = some kind ∧
    (t = .module → ∃ n ∈ fileNodes file, n.id = target)

/-- The relationship is an edge of the file. -/
def EdgeOf (createdAt : Int) (file : FileFacts) (r : Relationship) : Prop :=
  ∃ kind source target confidence description line,
    r = edge createdAt file kind source target confidence description line ∧
    IsEdge createdAt file kind source target confidence description line

variable {createdAt : Int} {file : FileFacts} {ix : SymbolIndex} {r : Relationship}

/-- An edge that leads to no package. -/
theorem edgeOf_of_tags {kind : RelationKind} {source target description : String}
    {confidence : Binary64} {line : Nat} {s t : NodeKind} (hs : s.Tagged source)
    (ht : t.Tagged target) (hk : RelationKind.between? s t = some kind) (hm : t ≠ .module)
    (hc : confidence ∈ confidences) :
    EdgeOf createdAt file (edge createdAt file kind source target confidence description line) :=
  ⟨kind, source, target, confidence, description, line, rfl, hc, s, t, hs, ht, hk,
    fun e => absurd e hm⟩

theorem tagged_file (path : String) : NodeKind.Tagged .file (Ident.file path) :=
  NodeKind.tagged_node .file _ _ _

theorem tagged_topLevelId (scope : Scope) (k : NodeKind) (name : String) :
    k.Tagged (scope.topLevelId k name) := NodeKind.tagged_node k _ _ _

theorem tagged_functionId (scope : Scope) (f : FunctionInfo) :
    NodeKind.Tagged .function (scope.functionId f) := by
  unfold Scope.functionId
  split
  · exact NodeKind.tagged_node .function _ _ _
  · exact tagged_topLevelId _ _ _

theorem callTarget?_tagged (hix : ix.IsTagged) {classId : Option String} {callee target : String}
    {confidence : Binary64}
    (h : callTarget? ix file classId callee = some (target, confidence)) :
    NodeKind.Tagged .function target ∧ confidence ∈ confidences := by
  unfold callTarget? at h
  split at h
  · rename_i id hid
    cases h
    refine ⟨?_, by simp [confidences]⟩
    rcases Option.or_eq_some_iff.mp hid with h | ⟨_, h⟩
    · obtain ⟨c, _, h⟩ := Option.bind_eq_some_iff.mp h
      exact SymbolIndex.tagged_of_method? hix h
    · obtain ⟨k, hk, ht⟩ := SymbolIndex.tagged_of_find? hix h
      rw [List.mem_singleton] at hk
      exact hk ▸ ht
  · split at h
    · cases h
    · cases h
      exact ⟨NodeKind.tagged_node .function _ _ _, by simp [confidences]⟩

theorem heritageTarget_tagged (file : FileFacts) (hix : ix.IsTagged) (kind : NodeKind) (base : String) :
    kind.Tagged (heritageTarget (ix.find? [kind] base file.package file.path) kind
      file.package base).1 ∧
    (heritageTarget (ix.find? [kind] base file.package file.path) kind
      file.package base).2 ∈ confidences := by
  cases hf : ix.find? [kind] base file.package file.path with
  | none => exact ⟨NodeKind.tagged_node kind _ _ _, by simp [heritageTarget, confidences]⟩
  | some id =>
    obtain ⟨k, hk, ht⟩ := SymbolIndex.tagged_of_find? hix hf
    rw [List.mem_singleton] at hk
    exact ⟨hk ▸ ht, by simp [heritageTarget, confidences]⟩

theorem tagged_of_localId? {name target : String} (h : localId? file name = some target) :
    ∃ k : NodeKind, k.Tagged target ∧ RelationKind.between? .export k = some .references := by
  obtain ⟨before, after, hl, _⟩ := List.lookup_eq_some_iff.mp h
  have hm : (name, target) ∈ (file.declarations.filterMap (local? file)).reverse := by simp [hl]
  obtain ⟨d, _, hd⟩ := List.mem_filterMap.mp (List.mem_reverse.mp hm)
  unfold local? at hd
  split at hd
  · cases hd
  · obtain ⟨s, hs, he⟩ := Option.map_eq_some_iff.mp hd
    cases he
    obtain ⟨htag, hk⟩ := Scope.isTagged_symbol? hs
    exact ⟨s.kind, htag.id, hk⟩

theorem structural_mem : structural ∈ confidences := by simp [confidences]

/-- Every relationship of a file is an edge of the file. -/
theorem exists_edge (hix : ix.IsTagged) (h : r ∈ fileRelationships createdAt ix file) :
    EdgeOf createdAt file r := by
  cases mem_fileRelationships.mp h with
  | method =>
    exact edgeOf_of_tags (tagged_topLevelId _ .classType _) (tagged_functionId _ _) rfl nofun
      structural_mem
  | function =>
    exact edgeOf_of_tags (tagged_file _) (tagged_functionId _ _) rfl nofun structural_mem
  | call _ _ htarget =>
    obtain ⟨htag, hc⟩ := callTarget?_tagged hix htarget
    exact edgeOf_of_tags (tagged_functionId _ _) htag rfl nofun hc
  | usedType _ _ htarget =>
    obtain ⟨k, hk, htag⟩ := SymbolIndex.tagged_of_find? hix htarget
    simp only [List.mem_cons, List.not_mem_nil, or_false] at hk
    have hc : typeUsage ∈ confidences := by simp [confidences]
    rcases hk with rfl | rfl | rfl
    · exact edgeOf_of_tags (tagged_functionId _ _) htag rfl nofun hc
    · exact edgeOf_of_tags (tagged_functionId _ _) htag rfl nofun hc
    · exact edgeOf_of_tags (tagged_functionId _ _) htag rfl nofun hc
  | classType | interface | typeAlias =>
    exact edgeOf_of_tags (tagged_file _) (tagged_topLevelId _ _ _) rfl nofun structural_mem
  | superclass =>
    obtain ⟨htag, hc⟩ := heritageTarget_tagged file hix .classType _
    exact edgeOf_of_tags (tagged_topLevelId _ .classType _) htag rfl nofun hc
  | implemented =>
    obtain ⟨htag, hc⟩ := heritageTarget_tagged file hix .interface _
    exact edgeOf_of_tags (tagged_topLevelId _ .classType _) htag rfl nofun hc
  | parent =>
    obtain ⟨htag, hc⟩ := heritageTarget_tagged file hix .interface _
    exact edgeOf_of_tags (tagged_topLevelId _ .interface _) htag rfl nofun hc
  | imported =>
    exact edgeOf_of_tags (tagged_file _) (NodeKind.tagged_node .import _ _ _) rfl nofun
      structural_mem
  | importedFile =>
    exact edgeOf_of_tags (tagged_file _) (tagged_file _) rfl nofun (by simp [confidences])
  | importedPackage hi hname =>
    -- the node of the package is made with the import
    exact ⟨_, _, _, _, _, _, rfl, by simp [confidences], .file, .module, tagged_file _,
      NodeKind.tagged_node .module _ _ _, rfl,
      fun _ => ⟨packageNode _, mem_fileNodes.mpr (.package hi hname), rfl⟩⟩
  | exported =>
    exact edgeOf_of_tags (tagged_file _) (NodeKind.tagged_node .export _ _ _) rfl nofun
      structural_mem
  | reference _ _ _ htarget =>
    obtain ⟨k, htag, hk⟩ := tagged_of_localId? htarget
    refine edgeOf_of_tags (NodeKind.tagged_node .export _ _ _) htag hk ?_ (by simp [confidences])
    rintro rfl
    cases hk

theorem EdgeOf.filePath (h : EdgeOf createdAt file r) :
    r.properties.get? "file_path" = some (.string file.path) := by
  obtain ⟨_, _, _, _, _, _, rfl, _⟩ := h
  exact filePath_edge ..

theorem EdgeOf.proper (h : EdgeOf createdAt file r) : r.Proper := by
  have hf := h.filePath
  obtain ⟨kind, source, target, confidence, description, line, rfl, hc, s, t, hs, ht, hk, _⟩ := h
  exact ⟨rfl, ⟨s, t, hs, ht, hk⟩, ⟨confidence, confidence_edge .., confidences_pass confidence hc⟩,
    _, hf⟩

/-- An end of an edge that is a package is a node of the file. -/
theorem EdgeOf.package_mem (h : EdgeOf createdAt file r) {id : String}
    (hid : id = r.source ∨ id = r.target) (hm : NodeKind.Tagged .module id) :
    ∃ n ∈ fileNodes file, n.id = id := by
  obtain ⟨kind, source, target, confidence, description, line, rfl, hc, s, t, hs, ht, hk, hn⟩ := h
  rcases hid with rfl | rfl
  · rw [NodeKind.tagged_unique hs hm] at hk
    cases t <;> cases hk
  · exact hn (NodeKind.tagged_unique ht hm)

/-! ### The time of building -/

theorem edge_stamp (time time' : Int) (file : FileFacts) (kind : RelationKind)
    (source target : String) (confidence : Binary64) (description : String) (line : Nat) :
    (edge time' file kind source target confidence description line).stamp time =
      edge time file kind source target confidence description line := by
  have hp : (edge time' file kind source target confidence description line).properties.insert
      "created_at" (.int time) =
      (edge time file kind source target confidence description line).properties := by
    refine SortedMap.ext_get? fun k => ?_
    simp only [edge, Relationship.withProperty, SortedMap.get?_insert_eq]
    by_cases h : k = "created_at"
    · simp [h]
    · simp [h]
  rw [Relationship.stamp, Relationship.withProperty, hp]
  rfl

section Stamp

variable (time time' : Int) (ix : SymbolIndex) (file : FileFacts)

theorem functionEdges_stamp (f : FunctionInfo) :
    (functionEdges time' ix file f).map (.stamp time) = functionEdges time ix file f := by
  simp only [functionEdges, List.map_append, List.map_filterMap, Option.map_map,
    Function.comp_def, edge_stamp]

theorem functionPlace_stamp (f : FunctionInfo) :
    (functionPlace time' file f).stamp time = functionPlace time file f := by
  unfold functionPlace
  simp only
  split <;> exact edge_stamp ..

theorem declarationEdges_stamp (d : Declaration) :
    (declarationEdges time' ix file d).map (.stamp time) = declarationEdges time ix file d := by
  cases d with
  | function f =>
    simp only [declarationEdges, List.map_cons, functionPlace_stamp, functionEdges_stamp]
  | classType c =>
    simp only [declarationEdges, classEdges, List.map_cons, List.map_append, List.map_map,
      Function.comp_def, edge_stamp]
  | interface i =>
    simp only [declarationEdges, interfaceEdges, List.map_cons, List.map_map, Function.comp_def,
      edge_stamp]
  | typeAlias t => simp only [declarationEdges, List.map_cons, List.map_nil, edge_stamp]
  | «import» i =>
    simp only [declarationEdges, importEdges, List.map_cons, edge_stamp]
    cases importTarget? file i with
    | none => rfl
    | some t => simp only [Option.map_some, Option.toList_some, List.map_cons, List.map_nil, edge_stamp]
  | «export» e => rfl

theorem exportEdges_stamp (d : Declaration) :
    (exportEdges time' file d).map (.stamp time) = exportEdges time file d := by
  cases d with
  | «export» e =>
    simp only [exportEdges, List.map_cons, edge_stamp]
    split
    · rfl
    · simp only [List.map_filterMap, Option.map_map, Function.comp_def, edge_stamp]
  | function _ | classType _ | interface _ | typeAlias _ | «import» _ => rfl

/-- The time of building is the only thing that the time changes. -/
theorem fileRelationships_stamp :
    (fileRelationships time' ix file).map (.stamp time) = fileRelationships time ix file := by
  simp only [fileRelationships, List.map_append, List.map_flatMap, declarationEdges_stamp,
    exportEdges_stamp]

end Stamp

/-! ### Nodes -/

section Nodes

variable {n : Node} {f : FileFacts}

/-- A node of a file has the tag of its kind; it is a package, which belongs to no file, or it carries
the path of the file. -/
structure NodeOf (f : FileFacts) (n : Node) : Prop where
  tagged : n.kind.Tagged n.id
  filed : (n.kind = .module ∧ n.properties.get? "file_path" = none) ∨
    (n.kind ≠ .module ∧ n.properties.get? "file_path" = some (.string f.path))

theorem nodeOf_of_mem (h : n ∈ fileNodes f) : NodeOf f n := by
  cases mem_fileNodes.mp h with
  | file =>
    refine ⟨tagged_file _, .inr ⟨(by intro hk; cases hk), ?_⟩⟩
    simp [fileNode, Node.withProperty, Node.make, SortedMap.get?_insert_eq]
  | function =>
    refine ⟨tagged_functionId _ _, .inr ⟨(by intro hk; cases hk), ?_⟩⟩
    simp [functionNode, declaredNode, Node.withProperty, Node.withMetadata, Node.make,
      SortedMap.get?_insert_eq]
  | classType =>
    refine ⟨tagged_topLevelId _ _ _, .inr ⟨(by intro hk; cases hk), ?_⟩⟩
    simp [classNode, declaredNode, Node.withProperty, Node.withMetadata, Node.make,
      SortedMap.get?_insert_eq]
  | interface =>
    refine ⟨tagged_topLevelId _ _ _, .inr ⟨(by intro hk; cases hk), ?_⟩⟩
    simp [interfaceNode, declaredNode, Node.withProperty, Node.withMetadata,
      Node.make, SortedMap.get?_insert_eq]
  | typeAlias =>
    refine ⟨tagged_topLevelId _ _ _, .inr ⟨(by intro hk; cases hk), ?_⟩⟩
    simp [aliasNode, declaredNode, Node.withProperty, Node.make,
      SortedMap.get?_insert_eq]
  | imported =>
    refine ⟨NodeKind.tagged_node .import _ _ _, .inr ⟨(by intro hk; cases hk), ?_⟩⟩
    simp [importNode, Node.withProperty, Node.withMetadata, Node.make,
      SortedMap.get?_insert_eq]
  | package =>
    refine ⟨NodeKind.tagged_node .module _ _ _, .inl ⟨rfl, ?_⟩⟩
    simp [packageNode, Node.withProperty, Node.make, SortedMap.get?_insert_eq]
  | exported =>
    refine ⟨NodeKind.tagged_node .export _ _ _, .inr ⟨(by intro hk; cases hk), ?_⟩⟩
    simp [exportNode, Node.withProperty, Node.withMetadata, Node.make,
      SortedMap.get?_insert_eq]

end Nodes

/-! ### Declared nodes -/

/-- The id is that of something that files declare by name. -/
def IsSymbol (id : String) : Prop :=
  ∃ k : NodeKind, RelationKind.between? .export k = some .references ∧ k.Tagged id

/-- Whether the file declares the id. -/
def declares (f : FileFacts) (id : String) : Bool :=
  (FileSymbols.ofFacts f).symbols.any (·.id == id)

section Declared

variable {n : Node} {f : FileFacts} {d : Declaration} {x : Symbol} {id : String}

theorem isSymbol_of_declares (h : declares f id = true) : IsSymbol id := by
  obtain ⟨x, hx, hid⟩ := List.any_eq_true.mp h
  obtain ⟨d, _, hd⟩ := List.mem_filterMap.mp hx
  obtain ⟨htag, hkind⟩ := Scope.isTagged_symbol? hd
  exact ⟨x.kind, hkind, beq_iff_eq.mp hid ▸ htag.id⟩

theorem symbol?_function (scope : Scope) (g : FunctionInfo) :
    ∃ x, scope.symbol? (.function g) = some x ∧ x.id = scope.functionId g := by
  simp only [Scope.symbol?, Scope.functionId]
  cases g.className with
  | none => exact ⟨_, rfl, rfl⟩
  | some c => exact ⟨_, rfl, rfl⟩

/-- A declaration of a name has a node with the id of its symbol. -/
theorem node_of_symbol? (hd : d ∈ f.declarations) (h : (Scope.ofFacts f).symbol? d = some x) :
    ∃ n ∈ fileNodes f, n.id = x.id := by
  cases d with
  | function g =>
    obtain ⟨y, hy, hid⟩ := symbol?_function (Scope.ofFacts f) g
    rw [h] at hy
    cases hy
    exact ⟨functionNode f g, mem_fileNodes.mpr (.function hd), hid.symm⟩
  | classType c =>
    cases h
    exact ⟨classNode f c, mem_fileNodes.mpr (.classType hd), rfl⟩
  | interface i =>
    cases h
    exact ⟨interfaceNode f i, mem_fileNodes.mpr (.interface hd), rfl⟩
  | typeAlias t =>
    cases h
    exact ⟨aliasNode f t, mem_fileNodes.mpr (.typeAlias hd), rfl⟩
  | «import» i => cases h
  | «export» e => cases h

/-- What a file declares has a node. -/
theorem exists_node_of_declares (h : declares f id = true) : ∃ n ∈ fileNodes f, n.id = id := by
  obtain ⟨x, hx, hid⟩ := List.any_eq_true.mp h
  obtain ⟨d, hd, hsymbol⟩ := List.mem_filterMap.mp hx
  obtain ⟨n, hn, hni⟩ := node_of_symbol? hd hsymbol
  exact ⟨n, hn, hni.trans (beq_iff_eq.mp hid)⟩

theorem declares_of_symbol? (hd : d ∈ f.declarations) (h : (Scope.ofFacts f).symbol? d = some x) :
    declares f x.id = true :=
  List.any_eq_true.mpr ⟨x, List.mem_filterMap.mpr ⟨d, hd, h⟩, beq_self_eq_true _⟩

/-- What a file has a node for under the id of a name, it declares. -/
theorem declares_of_node (hn : n ∈ fileNodes f) (hid : IsSymbol n.id) : declares f n.id = true := by
  obtain ⟨k, hk, htag⟩ := hid
  rw [← NodeKind.tagged_unique (nodeOf_of_mem hn).tagged htag] at hk
  cases mem_fileNodes.mp hn with
  | @function g hg =>
    obtain ⟨x, hx, hid⟩ := symbol?_function (Scope.ofFacts f) g
    have hdeclares := declares_of_symbol? hg hx
    rwa [hid] at hdeclares
  | classType hd | interface hd | typeAlias hd => exact declares_of_symbol? hd rfl
  | file | imported | package | exported => cases hk

end Declared

/-! ### Distinct nodes -/

/-- Keeps a node unless its id was seen. -/
def keepNode (state : List Node × SortedMap String Unit) (n : Node) :
    List Node × SortedMap String Unit :=
  if state.2.contains n.id then state else (n :: state.1, state.2.insert n.id ())

theorem distinctNodes_eq (nodes : List Node) :
    distinctNodes nodes = (nodes.foldl keepNode ([], .empty)).1.reverse := rfl

/-- The ids seen are those of the nodes kept. -/
def SeenKept (state : List Node × SortedMap String Unit) : Prop :=
  ∀ id, state.2.contains id = true → ∃ n ∈ state.1, n.id = id

theorem keepNode_spec {state : List Node × SortedMap String Unit} (h : SeenKept state) (a : Node) :
    SeenKept (keepNode state a) ∧ (∀ n ∈ (keepNode state a).1, n = a ∨ n ∈ state.1) ∧
      (∀ n ∈ state.1, n ∈ (keepNode state a).1) ∧ ∃ n ∈ (keepNode state a).1, n.id = a.id := by
  rw [keepNode]
  by_cases ha : state.2.contains a.id = true
  · rw [if_pos ha]
    exact ⟨h, fun n hn => .inr hn, fun n hn => hn, h _ ha⟩
  · rw [if_neg ha]
    refine ⟨fun id hid => ?_, fun n hn => List.mem_cons.mp hn, fun n hn => List.mem_cons_of_mem _ hn,
      a, List.mem_cons_self, rfl⟩
    rw [SortedMap.contains, SortedMap.get?_insert_eq] at hid
    by_cases he : id = a.id
    · exact ⟨a, List.mem_cons_self, he.symm⟩
    · rw [if_neg he] at hid
      obtain ⟨n, hn, hid⟩ := h id hid
      exact ⟨n, List.mem_cons_of_mem _ hn, hid⟩

theorem foldl_keepNode : ∀ (l : List Node) {state : List Node × SortedMap String Unit},
    SeenKept state → (∀ n ∈ (l.foldl keepNode state).1, n ∈ state.1 ∨ n ∈ l) ∧
      (∀ n ∈ state.1, n ∈ (l.foldl keepNode state).1) ∧
      ∀ n ∈ l, ∃ n' ∈ (l.foldl keepNode state).1, n'.id = n.id
  | [], _, _ => ⟨fun n h => .inl h, fun n h => h, by simp⟩
  | a :: l, state, h => by
    obtain ⟨hseen, hnew, hold, n, hn, ha⟩ := keepNode_spec h a
    obtain ⟨h1, h2, h3⟩ := foldl_keepNode l hseen
    rw [List.foldl_cons]
    refine ⟨fun n hn => ?_, fun n hn => h2 n (hold n hn), fun n' hn' => ?_⟩
    · rcases h1 n hn with hn | hn
      · exact (hnew n hn).elim (fun e => .inr (e ▸ List.mem_cons_self)) .inl
      · exact .inr (List.mem_cons_of_mem _ hn)
    · rcases List.mem_cons.mp hn' with rfl | hn'
      · exact ⟨n, h2 n hn, ha⟩
      · exact h3 n' hn'

/-- The nodes with distinct ids are some of the nodes. -/
theorem mem_of_mem_distinctNodes {nodes : List Node} {n : Node} (h : n ∈ distinctNodes nodes) :
    n ∈ nodes := by
  rw [distinctNodes_eq, List.mem_reverse] at h
  have hs : SeenKept ([], .empty) := fun _ h => by cases h
  exact ((foldl_keepNode nodes hs).1 n h).resolve_left (by simp)

/-- No id is lost. -/
theorem exists_mem_distinctNodes {nodes : List Node} {n : Node} (h : n ∈ nodes) :
    ∃ n' ∈ distinctNodes nodes, n'.id = n.id := by
  have hs : SeenKept ([], .empty) := fun _ h => by cases h
  obtain ⟨n', hn', he⟩ := (foldl_keepNode nodes hs).2.2 n h
  exact ⟨n', by rw [distinctNodes_eq]; exact List.mem_reverse.mpr hn', he⟩

/-- A node that is kept after others were looked at was kept before, or it is the first with its id, which
was not seen before. -/
theorem find?_of_mem_foldl {n : Node} : ∀ (nodes : List Node)
    {state : List Node × SortedMap String Unit}, n ∈ (nodes.foldl keepNode state).1 →
    n ∈ state.1 ∨ (state.2.contains n.id = false ∧ nodes.find? (·.id == n.id) = some n)
  | [], _, h => .inl h
  | a :: nodes, state, h => by
    have ih := find?_of_mem_foldl nodes h
    rw [keepNode] at ih
    by_cases ha : state.2.contains a.id = true
    · rw [if_pos ha] at ih
      refine ih.imp_right fun ⟨hseen, hfind⟩ => ⟨hseen, ?_⟩
      have hne : a.id ≠ n.id := by
        rintro he
        rw [← he, ha] at hseen
        cases hseen
      rw [List.find?_cons_of_neg (by simpa using hne), hfind]
    · rw [if_neg ha, Bool.not_eq_true] at *
      rcases ih with hmem | ⟨hseen, hfind⟩
      · rcases List.mem_cons.mp hmem with rfl | hmem
        · exact .inr ⟨ha, List.find?_cons_of_pos (by simp)⟩
        · exact .inl hmem
      · rw [SortedMap.contains_eq_false_iff, SortedMap.get?_insert_eq] at hseen
        split at hseen
        · cases hseen
        · rename_i hne
          refine .inr ⟨SortedMap.contains_eq_false_iff.mpr hseen, ?_⟩
          rw [List.find?_cons_of_neg (by simpa using Ne.symm hne), hfind]

/-- Of the nodes of one id the first is kept. -/
theorem find?_of_mem_distinctNodes {nodes : List Node} {n : Node} (h : n ∈ distinctNodes nodes) :
    nodes.find? (·.id == n.id) = some n := by
  rw [distinctNodes_eq, List.mem_reverse] at h
  exact ((find?_of_mem_foldl nodes h).resolve_left (by simp)).2

/-- Under the id of a name, the node that is kept is one of the first file that declares it. -/
theorem find?_declares_of_mem {files : List FileFacts} {n : Node}
    (h : n ∈ distinctNodes (files.flatMap fileNodes)) (hid : IsSymbol n.id) :
    ∃ f, files.find? (declares · n.id) = some f ∧ n ∈ fileNodes f := by
  have hfind := find?_of_mem_distinctNodes h
  rw [List.find?_flatMap] at hfind
  obtain ⟨front, f, rest, rfl, hf, hnone⟩ := List.findSome?_eq_some_iff.mp hfind
  have hn : n ∈ fileNodes f := List.mem_of_find?_eq_some hf
  refine ⟨f, List.find?_eq_some_iff_append.mpr ⟨declares_of_node hn hid, front, rest, rfl, ?_⟩, hn⟩
  intro g hg
  rw [Bool.not_eq_true', Bool.eq_false_iff]
  intro hdeclares
  obtain ⟨m, hm, hmi⟩ := exists_node_of_declares hdeclares
  exact List.find?_eq_none.mp (hnone g hg) m hm (beq_iff_eq.mpr hmi)

end Build

end CodeAtlas
