/-
# The names that are kept and the graph that is built

What a file declares is worked out twice: as the symbols that are kept for later runs, and as nodes and
relationships of the graph. Both give the same names: the symbols have the ids and kinds of the nodes
(`Build.exists_symbol_iff_node`), and methods belong to their classes in both
(`Build.exists_owner_iff_edge`). A call within a class is drawn to the method of that class, since the
methods of an index are told apart by the ids of their classes, and in files whose classes have ids of
their own the id of a class tells the ids of its methods (`SymbolIndex.method?_of_indexes`).

Key definitions: `FileFacts.ownerKeys`, `Key.Distinct`, `SymbolMap.Indexes`.
Key theorems: `Build.exists_symbol_iff_node`, `Build.exists_owner_iff_edge`,
`SymbolIndex.method?_of_indexes`, `Build.agrees_with_symbols`.
-/
import CodeAtlas.Proofs.Identity

namespace CodeAtlas

namespace Build

/-! ### Symbols and nodes -/

/-- The kinds of declared names. -/
def symbolKinds : List NodeKind := [.function, .classType, .interface, .typeAlias]

theorem mem_symbolKinds_iff {k : NodeKind} :
    k ∈ symbolKinds ↔ RelationKind.between? .export k = some .references := by
  cases k <;> decide

variable {createdAt : Int} {ix : SymbolIndex} {f : FileFacts} {r : Relationship}

/-- The ids and kinds of the symbols are those of the nodes for names. -/
theorem exists_symbol_iff_node (f : FileFacts) (id : String) (kind : NodeKind) :
    (∃ x ∈ (FileSymbols.ofFacts f).symbols, x.id = id ∧ x.kind = kind) ↔
      kind ∈ symbolKinds ∧ ∃ n ∈ distinctNodes (fileNodes f), n.id = id ∧ n.kind = kind := by
  constructor
  · rintro ⟨x, hx, rfl, rfl⟩
    obtain ⟨d, _, hsymbol⟩ := List.mem_filterMap.mp hx
    obtain ⟨htag, hkind⟩ := Scope.isTagged_symbol? hsymbol
    have hdeclares : declares f x.id = true := List.any_eq_true.mpr ⟨x, hx, beq_self_eq_true _⟩
    obtain ⟨n, hn, hid⟩ := exists_node_of_declares hdeclares
    obtain ⟨n', hn', hid'⟩ := exists_mem_distinctNodes hn
    -- the node that is kept has the id, and so the kind
    have htag' := (nodeOf_of_mem (mem_of_mem_distinctNodes hn')).tagged
    rw [hid', hid] at htag'
    exact ⟨mem_symbolKinds_iff.mpr hkind, n', hn', hid'.trans hid, NodeKind.tagged_unique htag' htag.id⟩
  · rintro ⟨hkind, n, hn, rfl, rfl⟩
    have hmem := mem_of_mem_distinctNodes hn
    have htag := (nodeOf_of_mem hmem).tagged
    have hdeclares := declares_of_node hmem ⟨n.kind, mem_symbolKinds_iff.mp hkind, htag⟩
    obtain ⟨x, hx, hid⟩ := List.any_eq_true.mp hdeclares
    have hid := beq_iff_eq.mp hid
    have htag' := (FileSymbols.isTagged_ofFacts f x hx).id
    rw [hid] at htag'
    exact ⟨x, hx, hid, NodeKind.tagged_unique htag' htag⟩

/-! ### Methods and their classes -/

/-- The owners of the symbols are the classes that have the methods. -/
theorem exists_owner_iff_edge (createdAt : Int) (ix : SymbolIndex) (f : FileFacts) (owner id : String) :
    (∃ x ∈ (FileSymbols.ofFacts f).symbols, x.owner = some owner ∧ x.id = id) ↔
      ∃ r ∈ fileRelationships createdAt ix f, r.kind = .hasMethod ∧ r.source = owner ∧
        r.target = id := by
  constructor
  · rintro ⟨x, hx, howner, rfl⟩
    obtain ⟨d, hd, hsymbol⟩ := List.mem_filterMap.mp hx
    obtain ⟨_, ho, _⟩ := Scope.of_symbol? hsymbol
    rw [howner] at ho
    obtain ⟨c, hc, rfl⟩ := Option.map_eq_some_iff.mp ho.symm
    cases d with
    | function g =>
      obtain ⟨y, hy, hid⟩ := symbol?_function (Scope.ofFacts f) g
      rw [hsymbol] at hy
      cases hy
      exact ⟨_, mem_fileRelationships.mpr (.method hd hc), rfl, rfl, hid.symm⟩
    | classType _ | interface _ | typeAlias _ | «import» _ | «export» _ => cases hc
  · rintro ⟨r, hr, hk, rfl, rfl⟩
    cases mem_fileRelationships.mp hr with
    | @method g c hg hc =>
      obtain ⟨x, hx, hid⟩ := symbol?_function (Scope.ofFacts f) g
      obtain ⟨_, ho, _⟩ := Scope.of_symbol? hx
      refine ⟨x, List.mem_filterMap.mpr ⟨_, hg, hx⟩, ?_, hid⟩
      rw [ho, Declaration.className?, hc]
      rfl
    | function | call | usedType | classType | superclass | implemented | interface | parent | typeAlias
      | imported | importedFile | importedPackage | exported | reference => cases hk

end Build

/-! ### Calls within a class -/

/-- The keys of the classes that the methods of a file are in. -/
def FileFacts.ownerKeys (f : FileFacts) : List Key :=
  f.declarations.filterMap fun d => d.className?.map ((Scope.ofFacts f).key .classType none)

/-- Different keys have different ids. -/
def Key.Distinct (keys : List Key) : Prop := ∀ k ∈ keys, ∀ l ∈ keys, k.id = l.id → k = l

instance (keys : List Key) : Decidable (Key.Distinct keys) :=
  inferInstanceAs (Decidable (∀ k ∈ keys, ∀ l ∈ keys, k.id = l.id → k = l))

/-- The map holds what these files declare. -/
structure SymbolMap.Indexes (m : SymbolMap) (files : List FileFacts) : Prop where
  of_mem : ∀ f ∈ files, ∃ path, m.get? path = some (FileSymbols.ofFacts f)
  mem_of : ∀ {path s}, m.get? path = some s → ∃ f ∈ files, s = FileSymbols.ofFacts f

/-- The symbols of files with paths of their own are those of the files. -/
theorem SymbolMap.indexes_ofFacts {files : List FileFacts}
    (h : ∀ f ∈ files, ∀ g ∈ files, f.path = g.path → f = g) :
    (SymbolMap.ofFacts files).Indexes files where
  of_mem f hf := by
    refine ⟨f.path, ?_⟩
    rw [ofFacts, SortedMap.ofList_eq_writes]
    refine SortedMap.get?_writes_of_mem (List.mem_map.mpr ⟨f, hf, rfl⟩) rfl ?_
    intro e he hpath
    obtain ⟨g, hg, rfl⟩ := List.mem_map.mp he
    rw [h g hg f hf hpath]
  mem_of hs := by
    obtain ⟨f, hf, he⟩ := List.mem_map.mp (SortedMap.mem_of_get?_ofList hs)
    exact ⟨f, hf, (Prod.mk.inj he).2.symm⟩

/-- The id of a class tells the ids of its methods. -/
theorem Scope.methodId_of_key {s s' : Scope} {c c' : String}
    (h : s.key .classType none c = s'.key .classType none c') (name : String) :
    s.methodId c name = s'.methodId c' name := by
  obtain ⟨_, hpackage, hname, hmark⟩ := Key.mk.inj h
  subst hname
  obtain ⟨_, hwhere⟩ := of_mark_eq hmark
  simp only [Option.getD_none] at hwhere
  rw [methodId, methodId, hpackage]
  rcases hwhere with ⟨he, he'⟩ | ⟨he, he', hpath⟩
  · rw [if_pos he, if_pos he']
  · rw [he, he', hpath]

namespace FileFacts

variable {files : List FileFacts} {f f' : FileFacts}

/-- A symbol of a file that has an owner is a method of a class there. -/
theorem of_mem_owned {x : Symbol} (hx : x ∈ (FileSymbols.ofFacts f).symbols) {owner : String}
    (howner : x.owner = some owner) : ∃ c, (Scope.ofFacts f).key .classType none c ∈ f.ownerKeys ∧
      owner = (Scope.ofFacts f).classId c ∧ x.id = (Scope.ofFacts f).methodId c x.name := by
  obtain ⟨d, hd, hsymbol⟩ := List.mem_filterMap.mp hx
  obtain ⟨hid, ho, _⟩ := Scope.of_symbol? hsymbol
  have hkind := (Scope.isTagged_symbol? hsymbol).1.owner (by rw [howner]; rfl)
  rw [howner] at ho
  obtain ⟨c, hc, hclass⟩ := Option.map_eq_some_iff.mp ho.symm
  refine ⟨c, ?_, hclass.symm, ?_⟩
  · exact List.mem_filterMap.mpr ⟨d, hd, by rw [hc, Option.map_some]⟩
  · rw [hid, hkind, hc, Scope.methodId_eq]

/-- In files whose classes have ids of their own, one class has one id for each name of a method. -/
theorem methodId_of_classId (h : Key.Distinct (files.flatMap ownerKeys)) (hf : f ∈ files) (hf' : f' ∈ files)
    {c c' : String} (hc : (Scope.ofFacts f).key .classType none c ∈ f.ownerKeys)
    (hc' : (Scope.ofFacts f').key .classType none c' ∈ f'.ownerKeys)
    (hclass : (Scope.ofFacts f).classId c = (Scope.ofFacts f').classId c') (name : String) :
    (Scope.ofFacts f).methodId c name = (Scope.ofFacts f').methodId c' name := by
  refine Scope.methodId_of_key (h _ (List.mem_flatMap.mpr ⟨f, hf, hc⟩) _
    (List.mem_flatMap.mpr ⟨f', hf', hc'⟩) ?_) name
  rw [← Scope.topLevelId_eq, ← Scope.topLevelId_eq]
  exact hclass

end FileFacts

namespace SymbolIndex

variable {m : SymbolMap} {files : List FileFacts} {f : FileFacts}

/-- The methods of an index are the symbols that have an owner. -/
theorem mem_methods_ofMap {e : MethodEntry} : e ∈ (ofMap m).methods ↔
    ∃ path s, m.get? path = some s ∧ ∃ x ∈ s.symbols, x.owner = some e.owner ∧ x.name = e.name ∧
      x.id = e.id := by
  constructor
  · intro he
    obtain ⟨⟨path, s⟩, hs, he⟩ := List.mem_flatMap.mp he
    obtain ⟨x, hx, he⟩ := List.mem_filterMap.mp he
    obtain ⟨owner, ho, rfl⟩ := Option.map_eq_some_iff.mp he
    exact ⟨path, s, SortedMap.get?_of_mem_entries hs, x, hx, ho, rfl, rfl⟩
  · rintro ⟨path, s, hs, x, hx, ho, hname, hid⟩
    refine List.mem_flatMap.mpr ⟨(path, s), SortedMap.get?_eq_some_iff.mp hs, ?_⟩
    exact List.mem_filterMap.mpr ⟨x, hx, by rw [ho, Option.map_some, hname, hid]⟩

/-- A method that an indexed file declares is in the index under its class. -/
theorem mem_methods_of_indexes (h : m.Indexes files) (hf : f ∈ files) {g : FunctionInfo}
    (hg : .function g ∈ f.declarations) {c : String} (hc : g.className = some c) :
    ⟨(Scope.ofFacts f).classId c, g.name, (Scope.ofFacts f).methodId c g.name⟩ ∈
      (ofMap m).methods := by
  obtain ⟨path, hpath⟩ := h.of_mem f hf
  have hsymbol : (Scope.ofFacts f).symbol? (.function g) = some ⟨.function, g.name,
      (Scope.ofFacts f).methodId c g.name, false, some ((Scope.ofFacts f).classId c)⟩ := by
    rw [Scope.symbol?, hc]
  exact mem_methods_ofMap.mpr
    ⟨path, _, hpath, _, List.mem_filterMap.mpr ⟨_, hg, hsymbol⟩, rfl, rfl, rfl⟩

/-- A method that is in the index is one that an indexed file declares. -/
theorem of_mem_methods (h : m.Indexes files) {e : MethodEntry} (he : e ∈ (ofMap m).methods) :
    ∃ f ∈ files, ∃ c, (Scope.ofFacts f).key .classType none c ∈ f.ownerKeys ∧
      e.owner = (Scope.ofFacts f).classId c ∧ e.id = (Scope.ofFacts f).methodId c e.name := by
  obtain ⟨path, s, hs, x, hx, howner, hname, hid⟩ := mem_methods_ofMap.mp he
  obtain ⟨f, hf, rfl⟩ := h.mem_of hs
  obtain ⟨c, hkey, hclass, hxid⟩ := FileFacts.of_mem_owned hx howner
  exact ⟨f, hf, c, hkey, hclass, by rw [← hid, hxid, hname]⟩

/-- In files whose classes have ids of their own, a method is found by its class. -/
theorem method?_of_indexes (h : m.Indexes files) (hd : Key.Distinct (files.flatMap FileFacts.ownerKeys))
    (hf : f ∈ files) {g : FunctionInfo} (hg : .function g ∈ f.declarations) {c : String}
    (hc : g.className = some c) :
    (ofMap m).method? ((Scope.ofFacts f).classId c) g.name =
      some ((Scope.ofFacts f).methodId c g.name) := by
  have hmem := List.mem_reverse.mpr (mem_methods_of_indexes h hf hg hc)
  unfold method?
  cases hfind : (ofMap m).methods.reverse.find? fun e =>
      e.owner == (Scope.ofFacts f).classId c && e.name == g.name with
  | none => exact absurd (List.find?_eq_none.mp hfind _ hmem) (by simp)
  | some e =>
    -- whichever file the entry is from, its class has the id and so the key
    have hmatch := List.find?_some hfind
    simp only [Bool.and_eq_true, beq_iff_eq] at hmatch
    obtain ⟨f', hf', c', hkey', howner, hid⟩ :=
      of_mem_methods h (List.mem_reverse.mp (List.mem_of_find?_eq_some hfind))
    have hkey : (Scope.ofFacts f).key .classType none c ∈ f.ownerKeys :=
      List.mem_filterMap.mpr ⟨.function g, hg, by rw [Declaration.className?, hc, Option.map_some]⟩
    rw [Option.map_some, hid, hmatch.2,
      FileFacts.methodId_of_classId hd hf' hf hkey' hkey (howner.symm.trans hmatch.1)]

end SymbolIndex

namespace Build

/-- A call that finds a method of the class is drawn to it. -/
theorem exists_call {createdAt : Int} {ix : SymbolIndex} {f : FileFacts} {g : FunctionInfo}
    (hg : .function g ∈ f.declarations) {c callee id : String} (hc : g.className = some c)
    (hcallee : callee ∈ g.calls) (hid : ix.method? ((Scope.ofFacts f).classId c) callee = some id) :
    ∃ r ∈ fileRelationships createdAt ix f, r.kind = .calls ∧
      r.source = (Scope.ofFacts f).methodId c g.name ∧ r.target = id := by
  have htarget : callTarget? ix f (g.className.map (Scope.ofFacts f).classId) callee =
      some (id, resolvedCall) := by
    rw [callTarget?, hc, Option.map_some, Option.bind_some, hid]
    rfl
  refine ⟨edge createdAt f .calls ((Scope.ofFacts f).functionId g) id resolvedCall
    (g.name ++ " calls " ++ callee) g.lineStart, ?_, rfl, ?_, rfl⟩
  · refine List.mem_append_left _ (List.mem_flatMap.mpr ⟨_, hg, List.mem_cons_of_mem _ ?_⟩)
    refine List.mem_append_left _ (List.mem_filterMap.mpr ⟨callee, hcallee, ?_⟩)
    rw [htarget]
    rfl
  · show (Scope.ofFacts f).functionId g = _
    rw [Scope.functionId, hc]

/-- The graph of a file and the symbols that are kept for it agree: the ids and kinds of the symbols are
those of the nodes for names, and the methods are those that classes have. Where the file is indexed
with others and the ids of classes do not collide, a method that calls a method of its own class is drawn
to that method. -/
theorem agrees_with_symbols (f : FileFacts) (createdAt : Int) :
    (∀ (ix : SymbolIndex) (id : String) (kind : NodeKind),
      (∃ x ∈ (FileSymbols.ofFacts f).symbols, x.id = id ∧ x.kind = kind) ↔
        kind ∈ [.function, .classType, .interface, .typeAlias] ∧
          ∃ n ∈ (Batch.ofFilesWith createdAt ix [f]).nodes, n.id = id ∧ n.kind = kind) ∧
    (∀ (ix : SymbolIndex) (owner id : String),
      (∃ x ∈ (FileSymbols.ofFacts f).symbols, x.owner = some owner ∧ x.id = id) ↔
        ∃ r ∈ (Batch.ofFilesWith createdAt ix [f]).relationships, r.kind = .hasMethod ∧
          r.source = owner ∧ r.target = id) ∧
    ∀ (m : SymbolMap) (files : List FileFacts), m.Indexes files → f ∈ files →
      Key.Distinct (files.flatMap FileFacts.ownerKeys) →
      ∀ g callee c, .function g ∈ f.declarations → .function callee ∈ f.declarations →
        g.className = some c → callee.className = some c → callee.name ∈ g.calls →
        ∃ r ∈ (Batch.ofFilesWith createdAt (.ofMap m) [f]).relationships, r.kind = .calls ∧
          r.source = (Scope.ofFacts f).methodId c g.name ∧
          r.target = (Scope.ofFacts f).methodId c callee.name := by
  have hnodes : [f].flatMap fileNodes = fileNodes f := List.flatMap_singleton ..
  have hedges : ∀ ix, [f].flatMap (fileRelationships createdAt ix) =
      fileRelationships createdAt ix f := fun ix => List.flatMap_singleton ..
  refine ⟨fun ix id kind => ?_, fun ix owner id => ?_, ?_⟩
  · rw [Batch.ofFilesWith, hnodes]
    exact exists_symbol_iff_node f id kind
  · rw [Batch.ofFilesWith, hedges]
    exact exists_owner_iff_edge createdAt ix f owner id
  · intro m files hm hf hd g callee c hg hcallee hgc hcc hcalls
    rw [Batch.ofFilesWith, hedges]
    exact exists_call hg hgc hcalls (SymbolIndex.method?_of_indexes hm hd hf hcallee hcc)

end Build

namespace Trial

/-- A file that keeps a class to itself, one of whose methods calls the other. -/
def calling : FileFacts :=
  { classes "b.ts" with
    declarations := [.function (function (some "D") "n" []), .function (function (some "D") "m" ["n"])] }

/-- A file that exports a function of the name that is called, and has a class of the same name. -/
def calledAlike : FileFacts :=
  { classes "a.ts" with
    declarations := [.function (function none "n" []), .function (function (some "D") "n" [])] }

/-- The classes of the two files have ids of their own, and the call is drawn to the method of the class
in its file. -/
theorem agrees_calling :
    Key.Distinct ([calling, calledAlike].flatMap FileFacts.ownerKeys) ∧
    ∃ r ∈ (Batch.ofFilesWith 0 (.ofMap (.ofFacts [calling, calledAlike])) [calling]).relationships,
      r.kind = .calls ∧ r.source = (Scope.ofFacts calling).methodId "D" "m" ∧
        r.target = (Scope.ofFacts calling).methodId "D" "n" := by
  have hindexes : (SymbolMap.ofFacts [calling, calledAlike]).Indexes [calling, calledAlike] :=
    SymbolMap.indexes_ofFacts (by decide)
  have hdistinct : Key.Distinct ([calling, calledAlike].flatMap FileFacts.ownerKeys) := by
    decide +kernel
  obtain ⟨_, _, hcalls⟩ := Build.agrees_with_symbols calling 0
  have hcall := hcalls _ _ hindexes List.mem_cons_self hdistinct (function (some "D") "m" ["n"])
    (function (some "D") "n" []) "D" (by simp [calling]) (by simp [calling]) rfl rfl (by simp [function])
  exact ⟨hdistinct, hcall⟩

end Trial

end CodeAtlas
