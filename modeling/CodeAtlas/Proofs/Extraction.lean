/-
# How a syntax tree is read

Each node is read by its kind: as a declaration, an import, an export statement or a namespace, or it is
passed over, or it is plain and its children are read in its place (`Extract.Role`,
`Extract.ofTree_eq`). The children of a node are read one after the other, each with the one before it
(`Extract.ofChildren_eq`). Only through an export statement, a namespace and a plain node are other nodes
read, and these are children, or children of a child: a property of what is read follows from the nodes
below (`Tree.twofold_induction`).

Which nodes are read, and whether as exported, is also said apart from what they declare
(`Extract.Reached`). What such a node declares stands in one piece among all that is declared.

Key definitions: `Extract.Role`, `Extract.roleOf`, `Extract.classInfo`, `Extract.beforeBody`,
`Extract.Reached`.
Key theorems: `Tree.twofold_induction`, `Extract.ofChildren_eq`, `Extract.ofTree_eq`,
`Extract.Reached.infix_ofChildren`.
-/
import CodeAtlas.Source.Extract

namespace CodeAtlas

namespace Tree

mutual

/-- A property of all trees that each tree has if its children have it. -/
theorem step_induction {P : Tree → Prop} (step : ∀ t : Tree, (∀ c ∈ t.children, P c) → P t) :
    ∀ t : Tree, P t
  | node l cs => step (node l cs) (step_induction_all step cs)

theorem step_induction_all {P : Tree → Prop}
    (step : ∀ t : Tree, (∀ c ∈ t.children, P c) → P t) : ∀ cs : List Tree, ∀ c ∈ cs, P c
  | [] => fun _ h => by cases h
  | t :: cs => List.forall_mem_cons.mpr ⟨step_induction step t, step_induction_all step cs⟩

end

/-- A property of all trees that each tree has if its children and their children have it. -/
theorem twofold_induction {P : Tree → Prop}
    (step : ∀ t : Tree, (∀ c ∈ t.children, P c) → (∀ c ∈ t.children, ∀ d ∈ c.children, P d) → P t)
    (t : Tree) : P t := by
  have hboth : ∀ t : Tree, P t ∧ ∀ c ∈ t.children, P c := by
    apply step_induction
    intro t ih
    have hchildren : ∀ c ∈ t.children, P c := fun c hc => (ih c hc).1
    exact ⟨step t hchildren fun c hc => (ih c hc).2, hchildren⟩
  exact (hboth t).1

theorem mem_of_field? {t c : Tree} {name : String} (h : t.field? name = some c) : c ∈ t.children := by
  obtain ⟨position, _, hc⟩ := Option.bind_eq_some_iff.mp h
  exact List.mem_of_getElem? hc

end Tree

namespace Extract

/-- What a node is read as. -/
inductive Role where
  | function
  | classType
  | interface
  | typeAlias
  | importing
  | exporting
  | binding
  | space
  | closed
  | plain
  deriving DecidableEq

/-- What nodes of a kind are read as. -/
def roleOf (kind : String) : Role :=
  if kind == "function_declaration" || kind == "generator_function_declaration" then .function
  else if kind == "class_declaration" || kind == "abstract_class_declaration" then .classType
  else if kind == "interface_declaration" then .interface
  else if kind == "type_alias_declaration" then .typeAlias
  else if kind == "import_statement" then .importing
  else if kind == "export_statement" then .exporting
  else if kind == "lexical_declaration" || kind == "variable_declaration" then .binding
  else if isNamespace kind then .space
  else if closedKinds.contains kind then .closed
  else .plain

/-- The methods of a class of a name. -/
def methodsOf (t : Tree) (name : String) : List FunctionInfo :=
  (withBefore none (members t)).filterMap (method? name)

/-- A class of a name. -/
def classInfo (t : Tree) (before : Option Tree) (exported : Bool) (name : String) : ClassInfo where
  name := name
  isAbstract := t.kind == "abstract_class_declaration" || t.hasChildOfKind "abstract"
  isExported := exported
  superclass := superclass? t
  implements := implemented t
  methods := (methodsOf t name).map (·.name)
  properties := (members t).filterMap property?
  access := access? t
  lineStart := t.firstLine
  lineEnd := t.lastLine
  docstring := documentation? before

theorem classBlock_eq (t : Tree) (before : Option Tree) (exported : Bool) :
    classBlock t before exported = match t.fieldText? "name" with
      | none => []
      | some name => .classType (classInfo t before exported name) ::
          (methodsOf t name).map .function := rfl

theorem of_method? {className : String} {member : Option Tree × Tree} {f : FunctionInfo}
    (h : method? className member = some f) : f.className = some className ∧ f.isExported = false := by
  unfold method? at h
  split at h
  · obtain ⟨name, _, rfl⟩ := Option.map_eq_some_iff.mp h
    exact ⟨rfl, rfl⟩
  · cases h

theorem of_boundFunction? {decl t : Tree} {before : Option Tree} {exported : Bool} {f : FunctionInfo}
    (h : boundFunction? decl before exported t = some f) :
    ∃ value name, f = functionInfo decl value before name exported none := by
  unfold boundFunction? at h
  split at h
  · obtain ⟨name, _, h⟩ := Option.bind_eq_some_iff.mp h
    obtain ⟨value, _, h⟩ := Option.bind_eq_some_iff.mp h
    split at h
    · exact ⟨value, name, (Option.some.inj h).symm⟩
    · cases h
  · cases h

/-- What stands before the body of a namespace. -/
def beforeBody (t : Tree) : Option Tree :=
  (t.label.fields.lookup "body").bind fun position => (t.children.take position).getLast?

theorem mem_of_mem_withBefore {m : Option Tree × Tree} : ∀ {before : Option Tree} {cs : List Tree},
    m ∈ withBefore before cs → m.2 ∈ cs
  | _, [], h => by cases h
  | _, t :: cs, h => by
    obtain rfl | h := List.mem_cons.mp h
    · exact List.mem_cons_self
    · exact List.mem_cons_of_mem _ (mem_of_mem_withBefore h)

theorem ofChildren_eq (exported : Bool) (above : Option (Option Tree)) :
    ∀ (before : Option Tree) (cs : List Tree), ofChildren exported above before cs =
      (withBefore before cs).flatMap fun m => ofTree exported m.1 (above.getD m.1) m.2
  | _, [] => by rw [ofChildren, withBefore, List.flatMap_nil]
  | before, t :: cs => by
    rw [ofChildren, withBefore, List.flatMap_cons, ofChildren_eq exported above (some t) cs]

theorem ofChildAt_eq : ∀ (position : Nat) (before : Option Tree) (cs : List Tree),
    ofChildAt position before cs = match cs[position]? with
      | some body =>
        ofChildren false (above body.kind ((cs.take position).getLast?.or before)) none body.children
      | none => []
  | _, _, [] => by simp [ofChildAt]
  | 0, _, .node l cs :: _ => by
    rw [ofChildAt]
    rfl
  | position + 1, before, .node l cs :: rest => by
    rw [ofChildAt, ofChildAt_eq position, List.getElem?_cons_succ, List.take_succ_cons]
    cases rest[position]? with
    | none => rfl
    | some body =>
      cases hlast : (rest.take position).getLast? <;> simp [List.getLast?_cons, hlast]

/-- What is declared in a node, by what the node is read as. -/
theorem ofTree_eq (exported : Bool) (before documented : Option Tree) (t : Tree) :
    ofTree exported before documented t = match roleOf t.kind with
      | .function => ((function? t documented exported).map .function).toList
      | .classType => classBlock t documented exported
      | .interface => ((interface? t documented exported).map .interface).toList
      | .typeAlias => ((alias? t exported).map .typeAlias).toList
      | .importing => ((import? t).map .import).toList
      | .exporting => match t.field? "declaration" with
        | some declaration =>
          ofChildren true (some before) none t.children ++
            [.export (exportOfDeclaration t declaration (ofChildren true (some before) none t.children))]
        | none => ((exportOfNames? t).map .export).toList
      | .binding => (t.children.filterMap (boundFunction? t documented exported)).map .function
      | .space => match t.field? "body" with
        | some body => ofChildren false (above body.kind (beforeBody t)) none body.children
        | none => []
      | .closed => []
      | .plain => ofChildren exported none none t.children := by
  obtain ⟨l, cs⟩ := t
  have hkind : (Tree.node l cs).kind = l.kind := rfl
  rw [ofTree, hkind, roleOf]
  dsimp only
  by_cases hfunction :
      (l.kind == "function_declaration" || l.kind == "generator_function_declaration") = true
  · rw [if_pos hfunction, if_pos hfunction]
  rw [if_neg hfunction, if_neg hfunction]
  by_cases hclass : (l.kind == "class_declaration" || l.kind == "abstract_class_declaration") = true
  · rw [if_pos hclass, if_pos hclass]
  rw [if_neg hclass, if_neg hclass]
  by_cases hinterface : (l.kind == "interface_declaration") = true
  · rw [if_pos hinterface, if_pos hinterface]
  rw [if_neg hinterface, if_neg hinterface]
  by_cases halias : (l.kind == "type_alias_declaration") = true
  · rw [if_pos halias, if_pos halias]
  rw [if_neg halias, if_neg halias]
  by_cases himport : (l.kind == "import_statement") = true
  · rw [if_pos himport, if_pos himport]
  rw [if_neg himport, if_neg himport]
  by_cases hexport : (l.kind == "export_statement") = true
  · rw [if_pos hexport, if_pos hexport]
    rfl
  rw [if_neg hexport, if_neg hexport]
  by_cases hbinding : (l.kind == "lexical_declaration" || l.kind == "variable_declaration") = true
  · rw [if_pos hbinding, if_pos hbinding]
    rfl
  rw [if_neg hbinding, if_neg hbinding]
  by_cases hspace : isNamespace l.kind = true
  · rw [if_pos hspace, if_pos hspace]
    simp only [Tree.field?, beforeBody, Tree.label]
    cases l.fields.lookup "body" with
    | none => rfl
    | some position =>
      simp only [ofChildAt_eq, Option.bind_some, Option.or_none]
      rfl
  rw [if_neg hspace, if_neg hspace]
  by_cases hclosed : closedKinds.contains l.kind = true
  · rw [if_pos hclosed, if_pos hclosed]
  rw [if_neg hclosed, if_neg hclosed]
  rfl

/-! ### The nodes that are read -/

theorem roleOf_eq_exporting_iff {kind : String} :
    roleOf kind = .exporting ↔ kind = "export_statement" := by
  constructor
  · intro h
    unfold roleOf at h
    grind
  · rintro rfl
    rfl

theorem roleOf_eq_space_iff {kind : String} : roleOf kind = .space ↔ isNamespace kind = true := by
  constructor
  · intro h
    unfold roleOf at h
    grind
  · intro h
    obtain rfl | rfl : kind = "internal_module" ∨ kind = "module" := by simpa [isNamespace] using h
    · rfl
    · rfl

section Roles

variable {t declaration body : Tree}

theorem ofTree_exporting (hkind : t.kind = "export_statement")
    (hdeclaration : t.field? "declaration" = some declaration) (exported : Bool)
    (before documented : Option Tree) : ofTree exported before documented t =
      ofChildren true (some before) none t.children ++
        [.export (exportOfDeclaration t declaration (ofChildren true (some before) none t.children))] := by
  rw [ofTree_eq, roleOf_eq_exporting_iff.mpr hkind, hdeclaration]

theorem ofTree_space (hkind : isNamespace t.kind = true) (hbody : t.field? "body" = some body)
    (exported : Bool) (before documented : Option Tree) : ofTree exported before documented t =
      ofChildren false (above body.kind (beforeBody t)) none body.children := by
  rw [ofTree_eq, roleOf_eq_space_iff.mpr hkind, hbody]

theorem ofTree_plain (hrole : roleOf t.kind = .plain) (exported : Bool)
    (before documented : Option Tree) :
    ofTree exported before documented t = ofChildren exported none none t.children := by
  rw [ofTree_eq, hrole]

end Roles

/-- The nodes that are read where the nodes `cs` are, as exported or not (`first`): a node, the nodes on
the way to it from the outside in, and whether it is read as exported. Below an export statement that
declares something nodes are, in the body of a namespace they are not, and below a plain node they are
as that node is. -/
inductive Reached : List Tree → Bool → List Tree → Bool → Tree → Prop
  | here {cs : List Tree} {first : Bool} {t : Tree} : t ∈ cs → Reached cs first [] first t
  | exporting {cs path : List Tree} {first e : Bool} {s t : Tree} : s ∈ cs →
      s.kind = "export_statement" → (s.field? "declaration").isSome →
      Reached s.children true path e t → Reached cs first (s :: path) e t
  | space {cs path : List Tree} {first e : Bool} {s body t : Tree} : s ∈ cs →
      isNamespace s.kind = true → s.field? "body" = some body →
      Reached body.children false path e t → Reached cs first (s :: body :: path) e t
  | plain {cs path : List Tree} {first e : Bool} {s t : Tree} : s ∈ cs → roleOf s.kind = .plain →
      Reached s.children first path e t → Reached cs first (s :: path) e t

theorem Reached.exists_root {cs path : List Tree} {first e : Bool} {t : Tree}
    (h : Reached cs first path e t) : ∃ s ∈ cs, Reached [s] first path e t := by
  cases h with
  | here ht => exact ⟨t, ht, .here (List.mem_singleton_self t)⟩
  | exporting hs hkind hsome hbelow =>
    exact ⟨_, hs, .exporting (List.mem_singleton_self _) hkind hsome hbelow⟩
  | space hs hkind hbody hbelow =>
    exact ⟨_, hs, .space (List.mem_singleton_self _) hkind hbody hbelow⟩
  | plain hs hrole hbelow => exact ⟨_, hs, .plain (List.mem_singleton_self _) hrole hbelow⟩

theorem Reached.mono {cs cs' path : List Tree} {first e : Bool} {t : Tree}
    (h : Reached cs first path e t) (hsub : ∀ s ∈ cs, s ∈ cs') : Reached cs' first path e t := by
  cases h with
  | here ht => exact .here (hsub _ ht)
  | exporting hs hkind hsome hbelow => exact .exporting (hsub _ hs) hkind hsome hbelow
  | space hs hkind hbody hbelow => exact .space (hsub _ hs) hkind hbody hbelow
  | plain hs hrole hbelow => exact .plain (hsub _ hs) hrole hbelow

theorem exists_mem_withBefore {t : Tree} : ∀ {before : Option Tree} {cs : List Tree}, t ∈ cs →
    ∃ m ∈ withBefore before cs, m.2 = t
  | _, [], h => by cases h
  | before, c :: cs, h => by
    obtain rfl | h := List.mem_cons.mp h
    · exact ⟨(before, t), List.mem_cons_self, rfl⟩
    · obtain ⟨m, hm, rfl⟩ := exists_mem_withBefore h
      exact ⟨m, List.mem_cons_of_mem _ hm, rfl⟩

theorem infix_ofChildren {cs : List Tree} {t : Tree} (h : t ∈ cs) (exported : Bool)
    (above : Option (Option Tree)) (before : Option Tree) :
    ∃ b d, ofTree exported b d t <:+: ofChildren exported above before cs := by
  obtain ⟨m, hm, rfl⟩ := exists_mem_withBefore h
  rw [ofChildren_eq, List.flatMap_def]
  exact ⟨m.1, above.getD m.1, List.infix_of_mem_flatten (List.mem_map.mpr ⟨m, hm, rfl⟩)⟩

/-- What a node declares that is read stands in one piece among all that is declared. -/
theorem Reached.infix_ofChildren {cs path : List Tree} {first e : Bool} {t : Tree}
    (h : Reached cs first path e t) : ∀ above before,
      ∃ b d, ofTree e b d t <:+: ofChildren first above before cs := by
  induction h with
  | here ht => exact Extract.infix_ofChildren ht _
  | exporting hs hkind hsome _ ih =>
    intro above before
    obtain ⟨b, d, hpiece⟩ := Extract.infix_ofChildren hs _ above before
    obtain ⟨declaration, hdeclaration⟩ := Option.isSome_iff_exists.mp hsome
    obtain ⟨b', d', hbelow⟩ := ih (some b) none
    rw [ofTree_exporting hkind hdeclaration] at hpiece
    exact ⟨b', d', (hbelow.trans (List.prefix_append _ _).isInfix).trans hpiece⟩
  | space hs hkind hbody _ ih =>
    intro above before
    obtain ⟨b, d, hpiece⟩ := Extract.infix_ofChildren hs _ above before
    rw [ofTree_space hkind hbody] at hpiece
    obtain ⟨b', d', hbelow⟩ := ih _ _
    exact ⟨b', d', hbelow.trans hpiece⟩
  | plain hs hrole _ ih =>
    intro above before
    obtain ⟨b, d, hpiece⟩ := Extract.infix_ofChildren hs _ above before
    rw [ofTree_plain hrole] at hpiece
    obtain ⟨b', d', hbelow⟩ := ih _ _
    exact ⟨b', d', hbelow.trans hpiece⟩

end Extract

/-! ### Small trees -/

namespace Trial

/-- A token of the grammar. -/
def token (kind : String) : Tree := .node ⟨kind, false, kind, 0, 0, []⟩ []

/-- A named node without children. -/
def leaf (kind text : String) : Tree := .node ⟨kind, true, text, 0, 0, []⟩ []

/-- A named node with children, a blank between them. -/
def branch (kind : String) (fields : List (String × Nat)) (children : List Tree) : Tree :=
  .node ⟨kind, true, Text.join " " (children.map Tree.text), 0, 0, fields⟩ children

end Trial

end CodeAtlas
