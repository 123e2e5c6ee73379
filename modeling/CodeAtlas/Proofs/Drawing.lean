/-
# What nodes and relationships are made for

Every node of a file is made for the file, for one of its declarations, or for a package that it imports
(`Build.Made`), and every relationship is drawn at one of fifteen places (`Build.Drawn`). The two lists
are exact: they have what is made, and nothing else (`Build.mem_fileNodes`,
`Build.mem_fileRelationships`). What is said of all nodes or relationships of a file is shown case by
case from them.

Key definitions: `Build.Made`, `Build.Drawn`.
Key theorems: `Build.mem_fileNodes`, `Build.mem_fileRelationships`.
-/
import CodeAtlas.Graph.Build

namespace CodeAtlas.Build

variable {createdAt : Int} {ix : SymbolIndex} {file : FileFacts}

/-! ### Nodes -/

/-- What a node of the file is made for. -/
inductive Made (file : FileFacts) : Node → Prop
  | file : Made file (fileNode file)
  | function {g} (hg : .function g ∈ file.declarations) : Made file (functionNode file g)
  | classType {c} (hc : .classType c ∈ file.declarations) : Made file (classNode file c)
  | interface {i} (hi : .interface i ∈ file.declarations) : Made file (interfaceNode file i)
  | typeAlias {t} (ht : .typeAlias t ∈ file.declarations) : Made file (aliasNode file t)
  | imported {i} (hi : .import i ∈ file.declarations) : Made file (importNode file i)
  | package {i name} (hi : .import i ∈ file.declarations) (hname : importedPackage? i = some name) :
    Made file (packageNode name)
  | exported {e} (he : .export e ∈ file.declarations) : Made file (exportNode file e)

section Nodes

variable {n : Node}

theorem mem_fileNodes_of_declaration {d : Declaration} (hd : d ∈ file.declarations)
    (h : n ∈ declarationNodes file d) : n ∈ fileNodes file :=
  List.mem_cons_of_mem _ (List.mem_append_left _ (List.mem_flatMap.mpr ⟨d, hd, h⟩))

theorem made_of_declaration {d : Declaration} (hd : d ∈ file.declarations)
    (h : n ∈ declarationNodes file d) : Made file n := by
  cases d with
  | function g => exact List.mem_singleton.mp h ▸ .function hd
  | classType c => exact List.mem_singleton.mp h ▸ .classType hd
  | interface i => exact List.mem_singleton.mp h ▸ .interface hd
  | typeAlias t => exact List.mem_singleton.mp h ▸ .typeAlias hd
  | «import» i =>
    rcases List.mem_cons.mp h with rfl | h
    · exact .imported hd
    · rw [Option.mem_toList] at h
      obtain ⟨name, hname, rfl⟩ := Option.map_eq_some_iff.mp h
      exact .package hd hname
  | «export» e => cases h

theorem mem_fileNodes : n ∈ fileNodes file ↔ Made file n := by
  constructor
  · intro h
    rcases List.mem_cons.mp h with rfl | h
    · exact .file
    · rcases List.mem_append.mp h with h | h
      · obtain ⟨d, hd, h⟩ := List.mem_flatMap.mp h
        exact made_of_declaration hd h
      · obtain ⟨d, hd, h⟩ := List.mem_flatMap.mp h
        cases d with
        | «export» e => exact List.mem_singleton.mp h ▸ .exported hd
        | function _ | classType _ | interface _ | typeAlias _ | «import» _ => cases h
  · intro h
    cases h with
    | file => exact List.mem_cons_self
    | function hd | classType hd | interface hd | typeAlias hd | imported hd =>
      exact mem_fileNodes_of_declaration hd List.mem_cons_self
    | package hi hname =>
      refine mem_fileNodes_of_declaration hi ?_
      rw [declarationNodes, hname]
      exact List.mem_cons_of_mem _ List.mem_cons_self
    | exported he =>
      refine List.mem_cons_of_mem _ (List.mem_append_right _ ?_)
      exact List.mem_flatMap.mpr ⟨_, he, List.mem_cons_self⟩

end Nodes

/-! ### Relationships -/

@[simp] theorem kind_edge (createdAt : Int) (file : FileFacts) (kind : RelationKind)
    (source target : String) (confidence : Binary64) (description : String) (line : Nat) :
    (edge createdAt file kind source target confidence description line).kind = kind := rfl

/-- The places at which a relationship of the file is drawn. -/
inductive Drawn (createdAt : Int) (ix : SymbolIndex) (file : FileFacts) : Relationship → Prop
  | method {g c} (hg : .function g ∈ file.declarations) (hc : g.className = some c) :
    Drawn createdAt ix file (edge createdAt file .hasMethod ((Scope.ofFacts file).classId c)
      ((Scope.ofFacts file).functionId g) structural (c ++ " has method " ++ g.name) g.lineStart)
  | function {g} (hg : .function g ∈ file.declarations) (hc : g.className = none) :
    Drawn createdAt ix file (edge createdAt file .contains (Ident.file file.path)
      ((Scope.ofFacts file).functionId g) structural (file.path ++ " contains function " ++ g.name)
      g.lineStart)
  | call {g callee target confidence} (hg : .function g ∈ file.declarations)
    (hcallee : callee ∈ g.calls)
    (htarget : callTarget? ix file (g.className.map (Scope.ofFacts file).classId) callee =
      some (target, confidence)) :
    Drawn createdAt ix file (edge createdAt file .calls ((Scope.ofFacts file).functionId g) target
      confidence (g.name ++ " calls " ++ callee) g.lineStart)
  | usedType {g name target} (hg : .function g ∈ file.declarations) (hname : name ∈ typeNames g)
    (htarget : ix.type? name file.package file.path = some target) :
    Drawn createdAt ix file (edge createdAt file .usesType ((Scope.ofFacts file).functionId g) target
      typeUsage (g.name ++ " uses type " ++ name) g.lineStart)
  | classType {c} (hc : .classType c ∈ file.declarations) :
    Drawn createdAt ix file (edge createdAt file .contains (Ident.file file.path)
      ((Scope.ofFacts file).topLevelId .classType c.name) structural
      (file.path ++ " contains class " ++ c.name) c.lineStart)
  | superclass {c base} (hc : .classType c ∈ file.declarations) (hbase : base ∈ c.superclass.toList) :
    Drawn createdAt ix file (edge createdAt file .extends
      ((Scope.ofFacts file).topLevelId .classType c.name)
      (heritageTarget (ix.class? base file.package file.path) .classType file.package base).1
      (heritageTarget (ix.class? base file.package file.path) .classType file.package base).2
      (c.name ++ " extends " ++ base) c.lineStart)
  | implemented {c base} (hc : .classType c ∈ file.declarations) (hbase : base ∈ c.implements) :
    Drawn createdAt ix file (edge createdAt file .implements
      ((Scope.ofFacts file).topLevelId .classType c.name)
      (heritageTarget (ix.interface? base file.package file.path) .interface file.package base).1
      (heritageTarget (ix.interface? base file.package file.path) .interface file.package base).2
      (c.name ++ " implements " ++ base) c.lineStart)
  | interface {i} (hi : .interface i ∈ file.declarations) :
    Drawn createdAt ix file (edge createdAt file .defines (Ident.file file.path)
      ((Scope.ofFacts file).topLevelId .interface i.name) structural
      (file.path ++ " defines interface " ++ i.name) i.lineStart)
  | parent {i base} (hi : .interface i ∈ file.declarations) (hbase : base ∈ i.parents) :
    Drawn createdAt ix file (edge createdAt file .extends
      ((Scope.ofFacts file).topLevelId .interface i.name)
      (heritageTarget (ix.interface? base file.package file.path) .interface file.package base).1
      (heritageTarget (ix.interface? base file.package file.path) .interface file.package base).2
      (i.name ++ " extends " ++ base) i.lineStart)
  | typeAlias {t} (ht : .typeAlias t ∈ file.declarations) :
    Drawn createdAt ix file (edge createdAt file .defines (Ident.file file.path)
      ((Scope.ofFacts file).topLevelId .typeAlias t.name) structural
      (file.path ++ " defines type " ++ t.name) t.lineStart)
  | imported {i} (hi : .import i ∈ file.declarations) :
    Drawn createdAt ix file (edge createdAt file .imports (Ident.file file.path) (importId file i)
      structural (file.path ++ " imports " ++ i.module) i.line)
  | importedFile {i path} (hi : .import i ∈ file.declarations) (hinternal : i.isInternal = true)
    (hpath : file.resolvedImports.lookup i.module = some path) :
    Drawn createdAt ix file (edge createdAt file .dependsOn (Ident.file file.path) (Ident.file path)
      resolvedFile (file.path ++ " depends on " ++ path) i.line)
  | importedPackage {i name} (hi : .import i ∈ file.declarations)
    (hname : importedPackage? i = some name) :
    Drawn createdAt ix file (edge createdAt file .dependsOn (Ident.file file.path)
      (Ident.package name) resolvedReference (file.path ++ " depends on package " ++ name) i.line)
  | exported {e} (he : .export e ∈ file.declarations) :
    Drawn createdAt ix file (edge createdAt file .exports (Ident.file file.path) (exportId file e)
      structural (file.path ++ " exports " ++ exportName e) e.line)
  | reference {e name target} (he : .export e ∈ file.declarations) (hsource : e.source = none)
    (hname : name ∈ e.names) (htarget : localId? file name = some target) :
    Drawn createdAt ix file (edge createdAt file .references (exportId file e) target
      resolvedReference ("export of " ++ name) e.line)

section Relationships

variable {r : Relationship}

theorem drawn_function {g : FunctionInfo} (hg : .function g ∈ file.declarations)
    (h : r ∈ declarationEdges createdAt ix file (.function g)) : Drawn createdAt ix file r := by
  rcases List.mem_cons.mp h with rfl | h
  · unfold functionPlace
    cases hc : g.className with
    | none => exact .function hg hc
    | some c => exact .method hg hc
  · rcases List.mem_append.mp h with h | h
    · obtain ⟨callee, hcallee, h⟩ := List.mem_filterMap.mp h
      obtain ⟨⟨target, confidence⟩, htarget, rfl⟩ := Option.map_eq_some_iff.mp h
      exact .call hg hcallee htarget
    · obtain ⟨name, hname, h⟩ := List.mem_filterMap.mp h
      obtain ⟨target, htarget, rfl⟩ := Option.map_eq_some_iff.mp h
      exact .usedType hg hname htarget

theorem drawn_class {c : ClassInfo} (hc : .classType c ∈ file.declarations)
    (h : r ∈ declarationEdges createdAt ix file (.classType c)) : Drawn createdAt ix file r := by
  rcases List.mem_cons.mp h with rfl | h
  · exact .classType hc
  · rcases List.mem_append.mp h with h | h
    · obtain ⟨base, hbase, rfl⟩ := List.mem_map.mp h
      exact .superclass hc hbase
    · obtain ⟨base, hbase, rfl⟩ := List.mem_map.mp h
      exact .implemented hc hbase

theorem drawn_interface {i : InterfaceInfo} (hi : .interface i ∈ file.declarations)
    (h : r ∈ declarationEdges createdAt ix file (.interface i)) : Drawn createdAt ix file r := by
  rcases List.mem_cons.mp h with rfl | h
  · exact .interface hi
  · obtain ⟨base, hbase, rfl⟩ := List.mem_map.mp h
    exact .parent hi hbase

theorem drawn_import {i : ImportInfo} (hi : .import i ∈ file.declarations)
    (h : r ∈ declarationEdges createdAt ix file (.import i)) : Drawn createdAt ix file r := by
  rcases List.mem_cons.mp h with rfl | h
  · exact .imported hi
  · rw [Option.mem_toList] at h
    obtain ⟨⟨target, confidence, description⟩, htarget, rfl⟩ := Option.map_eq_some_iff.mp h
    unfold importTarget? at htarget
    split at htarget
    · rename_i hinternal
      obtain ⟨path, hpath, he⟩ := Option.map_eq_some_iff.mp htarget
      cases he
      exact .importedFile hi hinternal hpath
    · obtain ⟨name, hname, he⟩ := Option.map_eq_some_iff.mp htarget
      cases he
      exact .importedPackage hi hname

theorem drawn_export {e : ExportInfo} (he : .export e ∈ file.declarations)
    (h : r ∈ exportEdges createdAt file (.export e)) : Drawn createdAt ix file r := by
  rcases List.mem_cons.mp h with rfl | h
  · exact .exported he
  · split at h
    · cases h
    · rename_i hsource
      obtain ⟨name, hname, h⟩ := List.mem_filterMap.mp h
      obtain ⟨target, htarget, rfl⟩ := Option.map_eq_some_iff.mp h
      exact .reference he (by simpa using hsource) hname htarget

theorem drawn_of_mem (h : r ∈ fileRelationships createdAt ix file) : Drawn createdAt ix file r := by
  rcases List.mem_append.mp h with h | h
  · obtain ⟨d, hd, h⟩ := List.mem_flatMap.mp h
    cases d with
    | function g => exact drawn_function hd h
    | classType c => exact drawn_class hd h
    | interface i => exact drawn_interface hd h
    | typeAlias t => exact List.mem_singleton.mp h ▸ .typeAlias hd
    | «import» i => exact drawn_import hd h
    | «export» e => cases h
  · obtain ⟨d, hd, h⟩ := List.mem_flatMap.mp h
    cases d with
    | «export» e => exact drawn_export hd h
    | function _ | classType _ | interface _ | typeAlias _ | «import» _ => cases h

theorem mem_of_declaration {d : Declaration} (hd : d ∈ file.declarations)
    (h : r ∈ declarationEdges createdAt ix file d) : r ∈ fileRelationships createdAt ix file :=
  List.mem_append_left _ (List.mem_flatMap.mpr ⟨d, hd, h⟩)

theorem mem_of_function {g : FunctionInfo} (hg : .function g ∈ file.declarations)
    (h : r ∈ functionEdges createdAt ix file g) : r ∈ fileRelationships createdAt ix file :=
  mem_of_declaration hg (List.mem_cons_of_mem _ h)

theorem functionPlace_mem (createdAt : Int) (ix : SymbolIndex) {g : FunctionInfo}
    (hg : .function g ∈ file.declarations) :
    functionPlace createdAt file g ∈ fileRelationships createdAt ix file :=
  mem_of_declaration hg List.mem_cons_self

theorem mem_of_import {i : ImportInfo} {target description : String} {confidence : Binary64}
    (hi : .import i ∈ file.declarations)
    (h : importTarget? file i = some (target, confidence, description)) :
    edge createdAt file .dependsOn (Ident.file file.path) target confidence description i.line ∈
      fileRelationships createdAt ix file := by
  refine mem_of_declaration hi (List.mem_cons_of_mem _ ?_)
  rw [h]
  exact List.mem_cons_self

theorem isInternal_of_importedPackage? {i : ImportInfo} {name : String}
    (h : importedPackage? i = some name) : i.isInternal = false := by
  rw [importedPackage?, ImportInfo.packageName?] at h
  split at h
  · cases h
  · rename_i hinternal
    simpa using hinternal

theorem mem_of_export {e : ExportInfo} (he : .export e ∈ file.declarations)
    (h : r ∈ exportEdges createdAt file (.export e)) : r ∈ fileRelationships createdAt ix file :=
  List.mem_append_right _ (List.mem_flatMap.mpr ⟨.export e, he, h⟩)

/-- The relationships of a file are those drawn at one of the places. -/
theorem mem_fileRelationships :
    r ∈ fileRelationships createdAt ix file ↔ Drawn createdAt ix file r := by
  refine ⟨drawn_of_mem, fun h => ?_⟩
  cases h with
  | method hg hc | function hg hc =>
    have hplace := functionPlace_mem createdAt ix hg
    rwa [functionPlace, hc] at hplace
  | call hg hcallee htarget =>
    refine mem_of_function hg (List.mem_append_left _ (List.mem_filterMap.mpr ⟨_, hcallee, ?_⟩))
    rw [htarget]
    rfl
  | usedType hg hname htarget =>
    refine mem_of_function hg (List.mem_append_right _ (List.mem_filterMap.mpr ⟨_, hname, ?_⟩))
    rw [htarget]
    rfl
  | classType hd | interface hd | typeAlias hd | imported hd =>
    exact mem_of_declaration hd List.mem_cons_self
  | superclass hc hbase =>
    refine mem_of_declaration hc (List.mem_cons_of_mem _ (List.mem_append_left _ ?_))
    exact List.mem_map.mpr ⟨_, hbase, rfl⟩
  | implemented hc hbase =>
    refine mem_of_declaration hc (List.mem_cons_of_mem _ (List.mem_append_right _ ?_))
    exact List.mem_map.mpr ⟨_, hbase, rfl⟩
  | parent hi hbase =>
    exact mem_of_declaration hi (List.mem_cons_of_mem _ (List.mem_map.mpr ⟨_, hbase, rfl⟩))
  | importedFile hi hinternal hpath =>
    refine mem_of_import hi ?_
    rw [importTarget?, if_pos hinternal, hpath]
    rfl
  | importedPackage hi hname =>
    refine mem_of_import hi ?_
    rw [importTarget?, isInternal_of_importedPackage? hname, hname]
    rfl
  | exported he => exact mem_of_export he List.mem_cons_self
  | reference he hsource hname htarget =>
    refine mem_of_export he (List.mem_cons_of_mem _ ?_)
    rw [hsource]
    refine List.mem_filterMap.mpr ⟨_, hname, ?_⟩
    rw [htarget]
    rfl

end Relationships

end CodeAtlas.Build
