/-
# Members of namespaces

Whether a declaration is exported is decided on the way down to it: an export statement says so for what
is below it, and the body of a namespace takes it back. So a member of a namespace is exported only by an
export statement of its own (`Extract.Reached.unexported`).

The names that an export statement lists are found in another way. Where the statement declares a
namespace, it lists that name alone; otherwise it lists every name that was declared below it, those in
the bodies of namespaces included. So the members of a namespace are listed by the export statement
around it exactly if the namespace is not itself what the statement declares, but stands in a declaration
of something else, such as an ambient declaration (`Extract.members_of_namespaces`).

Key definitions: `Declaration.exported?`, `Extract.declares`.
Key theorems: `Extract.Reached.unexported`, `Extract.members_of_namespaces`,
`Extract.exists_member_listed`.
-/
import CodeAtlas.Proofs.Extraction

namespace CodeAtlas

/-- Whether the declaration is exported, if it is of a kind that can be. -/
def Declaration.exported? : Declaration → Option Bool
  | .function f => some f.isExported
  | .classType c => some c.isExported
  | .interface i => some i.isExported
  | .typeAlias a => some a.isExported
  | .import _ | .export _ => none

namespace Extract

/-- Whether nodes of a kind declare functions, classes, interfaces or type aliases by name. -/
def declares (kind : String) : Bool :=
  match roleOf kind with
  | .function | .classType | .interface | .typeAlias | .binding => true
  | .importing | .exporting | .space | .closed | .plain => false

variable {cs path : List Tree} {first exported : Bool} {t : Tree}

/-! ### What members are read as -/

/-- Without an export statement on the way to it, a node is read as exported only if what is read first
is. -/
theorem Reached.unexported (h : Reached cs first path exported t)
    (hno : ∀ s ∈ path, s.kind ≠ "export_statement") (hfirst : first = false) : exported = false := by
  induction h with
  | here _ => exact hfirst
  | exporting _ hkind _ _ _ => exact absurd hkind (hno _ List.mem_cons_self)
  | space _ _ _ _ ih =>
    exact ih (fun s hs => hno s (List.mem_cons_of_mem _ (List.mem_cons_of_mem _ hs))) rfl
  | plain _ _ _ ih => exact ih (fun s hs => hno s (List.mem_cons_of_mem _ hs)) hfirst

theorem exported?_of_classBlock {documented : Option Tree} {x : Declaration}
    (h : x ∈ classBlock t documented false) : x.exported? = some false := by
  rw [classBlock_eq] at h
  cases hname : t.fieldText? "name" with
  | none =>
    rw [hname] at h
    cases h
  | some name =>
    rw [hname] at h
    obtain rfl | h := List.mem_cons.mp h
    · rfl
    · obtain ⟨m, hm, rfl⟩ := List.mem_map.mp h
      obtain ⟨member, _, hmember⟩ := List.mem_filterMap.mp hm
      exact congrArg some (of_method? hmember).2

/-- What is declared by name in a node that is not read as exported is not exported. -/
theorem exported?_of_mem {before documented : Option Tree} {x : Declaration}
    (hdeclares : declares t.kind = true) (h : x ∈ ofTree false before documented t) :
    x.exported? = some false := by
  rw [ofTree_eq] at h
  unfold declares at hdeclares
  cases hrole : roleOf t.kind with
  | function =>
    rw [hrole] at h
    obtain ⟨f, hf, rfl⟩ := Option.map_eq_some_iff.mp (Option.mem_toList.mp h)
    obtain ⟨name, _, rfl⟩ := Option.map_eq_some_iff.mp hf
    rfl
  | classType =>
    rw [hrole] at h
    exact exported?_of_classBlock h
  | interface =>
    rw [hrole] at h
    obtain ⟨i, hi, rfl⟩ := Option.map_eq_some_iff.mp (Option.mem_toList.mp h)
    obtain ⟨name, _, rfl⟩ := Option.map_eq_some_iff.mp hi
    rfl
  | typeAlias =>
    rw [hrole] at h
    obtain ⟨a, ha, rfl⟩ := Option.map_eq_some_iff.mp (Option.mem_toList.mp h)
    obtain ⟨name, _, rfl⟩ := Option.map_eq_some_iff.mp ha
    rfl
  | binding =>
    rw [hrole] at h
    obtain ⟨f, hf, rfl⟩ := List.mem_map.mp h
    obtain ⟨c, _, hc⟩ := List.mem_filterMap.mp hf
    obtain ⟨value, name, rfl⟩ := of_boundFunction? hc
    rfl
  | importing | exporting | space | closed | plain =>
    rw [hrole] at hdeclares
    cases hdeclares

/-! ### What export statements list -/

theorem exportedNames_subset {l l' : List Declaration} (h : l <:+: l') :
    exportedNames l ⊆ exportedNames l' :=
  ((h.sublist.filter _).filterMap _).subset

/-- An export statement lists a name that is declared below it unless it declares a namespace of another
name. -/
theorem mem_names_iff {s declaration : Tree} {declared : List Declaration} {name : String}
    (h : name ∈ exportedNames declared) : name ∈ (exportOfDeclaration s declaration declared).names ↔
      (isNamespace declaration.kind = true → (declaration.fieldText? "name").map unquote = some name) := by
  unfold exportOfDeclaration
  dsimp only
  by_cases hspace : isNamespace declaration.kind = true
  · simp [hspace]
  · simp [hspace, h]

/-- A function, class, interface, type alias or variable in the body of a namespace, with no export
statement between them, is read as not exported. An export statement around the namespace lists its
names exactly if what the statement declares is not a namespace (or is one of that name): then the
statement lists all that is declared below it. -/
theorem members_of_namespaces {root space body t : Tree} {outer inner : List Tree} {x exported : Bool}
    (hspace : Reached root.children false outer x space) (hkind : isNamespace space.kind = true)
    (hbody : space.field? "body" = some body) (ht : Reached body.children false inner exported t)
    (hinner : ∀ s ∈ inner, s.kind ≠ "export_statement") (hdeclares : declares t.kind = true) :
    (∃ b d, ofTree exported b d t <:+: declarations root) ∧
    (∀ b d, ∀ y ∈ ofTree exported b d t, y.exported? = some false) ∧
    ∀ {path mid : List Tree} {y z : Bool} {s declaration : Tree},
      Reached root.children false path y s → s.kind = "export_statement" →
      s.field? "declaration" = some declaration → Reached s.children true mid z space →
      ∃ b d declared, ofTree exported b d t <:+: declared ∧
        declared ++ [.export (exportOfDeclaration s declaration declared)] <:+: declarations root ∧
        ∀ name ∈ exportedNames (ofTree exported b d t),
          name ∈ (exportOfDeclaration s declaration declared).names ↔
            (isNamespace declaration.kind = true →
              (declaration.fieldText? "name").map unquote = some name) := by
  have hwithin : ∀ e b d, ∃ b' d', ofTree exported b' d' t <:+: ofTree e b d space := by
    intro e b d
    rw [ofTree_space hkind hbody]
    exact ht.infix_ofChildren _ _
  have hroot : ∀ {path : List Tree} {e : Bool} {s : Tree}, Reached root.children false path e s →
      ∃ b d, ofTree e b d s <:+: declarations root := by
    intro path e s hs
    obtain ⟨b, d, hpiece⟩ := hs.infix_ofChildren (above root.kind none) none
    exact ⟨b, d, hpiece.trans (List.prefix_append _ _).isInfix⟩
  refine ⟨?_, ?_, ?_⟩
  · obtain ⟨b, d, houter⟩ := hroot hspace
    obtain ⟨b', d', hpiece⟩ := hwithin x b d
    exact ⟨b', d', hpiece.trans houter⟩
  · intro b d y hy
    obtain rfl := ht.unexported hinner rfl
    exact exported?_of_mem hdeclares hy
  · intro path mid y z s declaration hs hexport hdeclaration hmid
    obtain ⟨b, d, houter⟩ := hroot hs
    rw [ofTree_exporting hexport hdeclaration] at houter
    obtain ⟨b', d', hmiddle⟩ := hmid.infix_ofChildren (some b) none
    obtain ⟨b'', d'', hpiece⟩ := hwithin z b' d'
    have hdeclared := hpiece.trans hmiddle
    exact ⟨b'', d'', _, hdeclared, houter,
      fun name hname => mem_names_iff (exportedNames_subset hdeclared hname)⟩

end Extract

/-! ### An ambient namespace -/

namespace Trial

/-- A class without members. -/
def shape : Tree := branch "class_declaration" [("name", 1), ("body", 2)]
  [token "class", leaf "type_identifier" "Shape",
    branch "class_body" [] [token "\x7b", token "\x7d"]]

/-- The body of a namespace with the class in it. -/
def shapes : Tree := branch "statement_block" [] [token "\x7b", shape, token "\x7d"]

/-- A namespace with the class in it. -/
def geometry : Tree := branch "internal_module" [("name", 1), ("body", 2)]
  [token "namespace", leaf "identifier" "Geometry", shapes]

/-- The export statement of a declaration. -/
def exporting (declaration : Tree) : Tree :=
  branch "export_statement" [("declaration", 1)] [token "export", declaration]

/-- A file that exports the namespace. -/
def exported : Tree := branch "program" [] [exporting geometry]

/-- The namespace as one that is defined elsewhere. -/
def ambient : Tree := branch "ambient_declaration" [] [token "declare", geometry]

/-- A file that exports the ambient namespace. -/
def exportedAmbient : Tree := branch "program" [] [exporting ambient]

theorem reached_shape : Extract.Reached shapes.children false [] false shape :=
  .here (.tail _ (.head _))

theorem reached_geometry : Extract.Reached exported.children false [exporting geometry] true geometry :=
  .exporting (.head _) rfl rfl (.here (.tail _ (.head _)))

/-- The export statement of a namespace does not list the class in it. -/
theorem members_exported : ∃ declared,
    declared ++ [.export (Extract.exportOfDeclaration (exporting geometry) geometry declared)] <:+:
        Extract.declarations exported ∧
      "Shape" ∉ (Extract.exportOfDeclaration (exporting geometry) geometry declared).names := by
  obtain ⟨-, -, h⟩ := Extract.members_of_namespaces reached_geometry rfl rfl reached_shape
    (fun _ hs => by cases hs) rfl
  obtain ⟨b, d, declared, -, hpiece, hlisted⟩ :=
    h (.here (.head _)) rfl rfl (.here (.tail _ (.head _)))
  refine ⟨declared, hpiece, fun hmem => ?_⟩
  have hname : "Shape" ∈ Extract.exportedNames (Extract.ofTree false b d shape) := List.mem_singleton.mpr rfl
  have hgeometry := (hlisted "Shape" hname).mp hmem rfl
  revert hgeometry
  decide +kernel

end Trial

/-- In an ambient declaration that is exported, the class of a namespace is listed by the export
statement, though it is not exported and nothing else is declared. -/
theorem Extract.exists_member_listed :
    ∃ (root space body t s declaration : Tree) (outer path mid : List Tree) (x y z : Bool)
      (c : ClassInfo) (info : ExportInfo),
      Reached root.children false outer x space ∧ isNamespace space.kind = true ∧
      space.field? "body" = some body ∧ Reached body.children false [] false t ∧
      declares t.kind = true ∧ Reached root.children false path y s ∧
      s.kind = "export_statement" ∧ s.field? "declaration" = some declaration ∧
      Reached s.children true mid z space ∧
      declarations root = [.classType c, .export info] ∧ c.isExported = false ∧
      info.names = [c.name] := by
  open Trial in
  have hbelow : Reached (exporting ambient).children true [ambient] true geometry :=
    .plain (.tail _ (.head _)) rfl (.here (.tail _ (.head _)))
  have houter : Reached exportedAmbient.children false [exporting ambient, ambient] true geometry :=
    .exporting (.head _) rfl rfl hbelow
  refine ⟨exportedAmbient, geometry, shapes, shape, exporting ambient, ambient,
    [exporting ambient, ambient], [], [ambient], true, false, true,
    classInfo shape none false "Shape", ⟨.declaration, ["Shape"], none, 1⟩,
    houter, rfl, rfl, reached_shape, rfl, .here (.head _), rfl, rfl, hbelow, ?_, rfl, rfl⟩
  decide +kernel

end CodeAtlas
