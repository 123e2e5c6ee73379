/-
# What is read of a tree without its comments

Each part of a declaration that is found by kind, by role or by text is the same in a tree and in the
tree without its comments: calls and complexity, parameters, members, the class that is extended, and
imports and exports of names. Documentation alone is lost, as what stands before a declaration is no
comment any more (`FunctionInfo.undocumented`, `Extract.NoComment`).

Key definitions: `FunctionInfo.undocumented`, `Extract.NoComment`.
Key theorems: `Extract.functionInfo_withoutComments`, `Extract.methodsOf_withoutComments`,
`Extract.import?_withoutComments`, `Extract.exportOfNames?_withoutComments`.
-/
import CodeAtlas.Proofs.CommentFree

namespace CodeAtlas

/-- The function without its documentation. -/
def FunctionInfo.undocumented (f : FunctionInfo) : FunctionInfo := { f with docstring := none }

namespace Extract

open CodeAtlas.Tree

/-- Whether what stands before a node, if anything, is no comment. -/
def NoComment (before : Option Tree) : Prop := ∀ t ∈ before, t.isComment = false

theorem noComment_none : NoComment none := fun _ h => by cases h

theorem documentation?_of_noComment {before : Option Tree} (h : NoComment before) :
    documentation? before = none := by
  cases before with
  | none => rfl
  | some t =>
    have hkind : ¬ (t.kind == "comment") = true := Bool.eq_false_iff.mp (h t rfl)
    rw [documentation?, Option.bind_some, if_neg hkind]

section Parts

variable {t : Tree}

theorem bind_field?_withoutComments {α : Type} {f g : Tree → Option α} (h : t.tokenComments = true)
    (hsame : ∀ c : Tree, c.tokenComments = true → f c.withoutComments = g c) (name : String) :
    (t.withoutComments.field? name).bind f = (t.field? name).bind g := by
  rw [field?_withoutComments h]
  cases hc : t.field? name with
  | none => rfl
  | some c => exact hsame c (tokenComments_field h hc)

theorem map_field?_withoutComments {α : Type} {f g : Tree → α} (h : t.tokenComments = true)
    (hsame : ∀ c : Tree, c.tokenComments = true → f c.withoutComments = g c) (name : String) :
    (t.withoutComments.field? name).map f = (t.field? name).map g := by
  rw [Option.map_eq_bind, Option.map_eq_bind]
  apply bind_field?_withoutComments h
  intro c hc
  rw [Function.comp_apply, hsame c hc, Function.comp_apply]

/-! ### Functions -/

theorem called?_withoutComments (h : t.tokenComments = true) :
    called? t.withoutComments = called? t := by
  rw [called?, called?, kind_withoutComments, callee?, callee?]
  congr 1
  apply bind_field?_withoutComments h
  intro f hf
  rw [kind_withoutComments, text_withoutComments, fieldText?_withoutComments hf]

theorem calls_withoutComments (h : t.tokenComments = true) : calls t.withoutComments = calls t := by
  rw [calls, calls, filterMap_preorder _ (fun n hn => called?_withoutComments hn) t h]
  intro n hn
  simp [called?, kind_of_comment hn]

theorem isBranch_withoutComments (h : t.tokenComments = true) :
    isBranch t.withoutComments = isBranch t := by
  have hoperator : (t.withoutComments.field? "operator").any (branchOperators.contains ·.kind) =
      (t.field? "operator").any (branchOperators.contains ·.kind) := by
    rw [field?_withoutComments h]
    cases t.field? "operator" <;> simp
  rw [isBranch, isBranch, kind_withoutComments, hoperator]

theorem isBranch_of_comment (h : t.isComment = true) : isBranch t = false := by
  simp [isBranch, kind_of_comment h, branchKinds]

theorem complexity_withoutComments (h : t.tokenComments = true) :
    complexity t.withoutComments = complexity t := by
  let mark (n : Tree) : Option Unit := if isBranch n then some () else none
  have hmark : (fun n => (mark n).isSome) = isBranch := by
    funext n
    cases hn : isBranch n <;> simp [mark, hn]
  have hmarks : t.withoutComments.preorder.filterMap mark = t.preorder.filterMap mark := by
    apply filterMap_preorder _ _ t h
    · intro n hn
      simp [mark, isBranch_of_comment hn]
    · intro n hn
      simp [mark, isBranch_withoutComments hn]
  rw [complexity, complexity, ← hmark, ← List.length_filterMap_eq_countP, hmarks,
    List.length_filterMap_eq_countP]

theorem annotation?_withoutComments (t : Tree) : annotation? t.withoutComments = annotation? t := by
  rw [annotation?, annotation?, text_withoutComments]

theorem baseType?_withoutComments (h : t.tokenComments = true) :
    baseType? t.withoutComments = baseType? t := by
  rw [baseType?, baseType?, kind_withoutComments, field?_withoutComments h]
  by_cases hkind : (t.kind == "generic_type") = true
  · rw [if_pos hkind, if_pos hkind]
    cases t.field? "name" <;> simp
  · rw [if_neg hkind, if_neg hkind, text_withoutComments]

theorem access?_withoutComments (t : Tree) : access? t.withoutComments = access? t := by
  rw [access?, access?, childOfKind?_withoutComments t _ (by decide)]
  cases t.childOfKind? "accessibility_modifier" with
  | none => rfl
  | some m => rw [Option.map_some, Option.bind_some, Option.bind_some, text_withoutComments]

theorem text_or_withoutComments (a b : Option Tree) :
    ((a.map withoutComments).or (b.map withoutComments)).map text = (a.or b).map text := by
  cases a <;> cases b <;> simp

theorem parameter?_withoutComments (h : t.tokenComments = true) :
    parameter? t.withoutComments = parameter? t := by
  rw [parameter?, parameter?, kind_withoutComments, fieldText?_withoutComments h,
    field?_withoutComments h "pattern", childOfKind?_withoutComments t _ (by decide),
    text_or_withoutComments, text_withoutComments,
    bind_field?_withoutComments h (fun c _ => annotation?_withoutComments c)]

theorem parameters_withoutComments (h : t.tokenComments = true) :
    parameters t.withoutComments = parameters t := by
  rw [parameters, parameters, field?_withoutComments h, fieldText?_withoutComments h]
  cases hlist : t.field? "parameters" with
  | none => rfl
  | some list =>
    have hlist := tokenComments_field h hlist
    dsimp only [Option.map_some]
    rw [namedChildren_withoutComments]
    apply filterMap_content
    · intro c _ hc
      simp [parameter?, kind_of_comment hc]
    · intro c hc _
      exact parameter?_withoutComments (tokenComments_child hlist (List.mem_filter.mp hc).1)

variable {before before' : Option Tree}

/-- A function is the same without the comments in it, its documentation apart. -/
theorem functionInfo_withoutComments (h : t.tokenComments = true) (hbefore : NoComment before')
    (decl : Tree) (name : String) (exported : Bool) (className : Option String) :
    functionInfo decl.withoutComments t.withoutComments before' name exported className =
      (functionInfo decl t before name exported className).undocumented := by
  have hasync := hasChildOfKind_withoutComments t "async" (by decide)
  have hstar := hasChildOfKind_withoutComments t "*" (by decide)
  have hstatic := hasChildOfKind_withoutComments t "static" (by decide)
  have hreturn := bind_field?_withoutComments h (fun c _ => annotation?_withoutComments c) "return_type"
  have hcalls := map_field?_withoutComments h (fun _ hc => calls_withoutComments hc) "body"
  simp only [functionInfo, FunctionInfo.undocumented, parameters_withoutComments h, hreturn, hasync,
    hstar, hstatic, kind_withoutComments, access?_withoutComments, firstLine_withoutComments,
    lastLine_withoutComments, hcalls, complexity_withoutComments h,
    documentation?_of_noComment hbefore]

/-! ### Classes and interfaces -/

theorem function?_withoutComments (h : t.tokenComments = true) (hbefore : NoComment before')
    (exported : Bool) : function? t.withoutComments before' exported =
      (function? t before exported).map FunctionInfo.undocumented := by
  rw [function?, function?, fieldText?_withoutComments h, Option.map_map]
  congr 1
  funext name
  exact functionInfo_withoutComments h hbefore t name exported none

theorem method?_withoutComments (h : t.tokenComments = true) (hbefore : NoComment before')
    (className : String) : method? className (before', t.withoutComments) =
      (method? className (before, t)).map FunctionInfo.undocumented := by
  rw [method?, method?, kind_withoutComments, fieldText?_withoutComments h]
  by_cases hkind : methodKinds.contains t.kind = true
  · rw [if_pos hkind, if_pos hkind, Option.map_map]
    congr 1
    funext name
    exact functionInfo_withoutComments h hbefore t name false (some className)
  · rw [if_neg hkind, if_neg hkind, Option.map_none]

theorem members_withoutComments (h : t.tokenComments = true) :
    members t.withoutComments = (content (members t)).map withoutComments := by
  rw [members, members, field?_withoutComments h]
  cases t.field? "body" with
  | none => rfl
  | some body => exact children_withoutComments body

theorem tokenComments_member {c : Tree} (h : t.tokenComments = true) (hc : c ∈ members t) :
    c.tokenComments = true := by
  rw [members] at hc
  cases hbody : t.field? "body" with
  | none => simp [hbody] at hc
  | some body =>
    rw [hbody] at hc
    exact tokenComments_child (tokenComments_field h hbody) hc

/-- The methods among nodes are the same among those that are not comments, their documentation
apart. -/
theorem methods_content (className : String) : ∀ (cs : List Tree) (before before' : Option Tree),
    (∀ c ∈ cs, c.tokenComments = true) → NoComment before' →
      (withBefore before' ((content cs).map withoutComments)).filterMap (method? className) =
        ((withBefore before cs).filterMap (method? className)).map FunctionInfo.undocumented
  | [], _, _, _, _ => rfl
  | c :: cs, before, before', h, hbefore => by
    have hrest := fun d hd => h d (List.mem_cons_of_mem c hd)
    by_cases hc : c.isComment = true
    · have hnone : method? className (before, c) = none := by
        simp [method?, methodKinds, kind_of_comment hc]
      rw [content_cons_of_comment hc, withBefore, List.filterMap_cons_none hnone]
      exact methods_content className cs _ _ hrest hbefore
    · have hc : c.isComment = false := by simpa using hc
      have hnext : NoComment (some c.withoutComments) := by
        rintro _ ⟨⟩
        rw [isComment_withoutComments, hc]
      have hmethod : method? className (before', c.withoutComments) =
          (method? className (before, c)).map FunctionInfo.undocumented :=
        method?_withoutComments (h c List.mem_cons_self) hbefore className
      rw [content_cons hc, List.map_cons, withBefore, withBefore, List.filterMap_cons,
        List.filterMap_cons, hmethod, methods_content className cs _ _ hrest hnext]
      cases method? className (before, c) <;> rfl

theorem methodsOf_withoutComments (h : t.tokenComments = true) (name : String) :
    methodsOf t.withoutComments name = (methodsOf t name).map FunctionInfo.undocumented := by
  rw [methodsOf, methodsOf, members_withoutComments h]
  exact methods_content name _ _ _ (fun _ hc => tokenComments_member h hc) noComment_none

theorem property?_withoutComments (h : t.tokenComments = true) :
    property? t.withoutComments = property? t := by
  rw [property?, property?, kind_withoutComments, field?_withoutComments h, field?_withoutComments h,
    text_or_withoutComments]

theorem properties_withoutComments (h : t.tokenComments = true) :
    (members t.withoutComments).filterMap property? = (members t).filterMap property? := by
  rw [members_withoutComments h]
  apply filterMap_content
  · intro c _ hc
    simp [property?, kind_of_comment hc]
  · intro c hc _
    exact property?_withoutComments (tokenComments_member h hc)

theorem heritage_withoutComments (t : Tree) :
    heritage t.withoutComments = (content (heritage t)).map withoutComments := by
  rw [heritage, heritage, childOfKind?_withoutComments t _ (by decide)]
  cases t.childOfKind? "class_heritage" with
  | none => rfl
  | some clauses => exact children_withoutComments clauses

theorem tokenComments_clause {c : Tree} (h : t.tokenComments = true) (hc : c ∈ heritage t) :
    c.tokenComments = true := by
  rw [heritage] at hc
  cases hclauses : t.childOfKind? "class_heritage" with
  | none => simp [hclauses] at hc
  | some clauses =>
    rw [hclauses] at hc
    exact tokenComments_child (tokenComments_child h (List.mem_of_find?_eq_some hclauses)) hc

theorem superclass?_withoutComments (h : t.tokenComments = true) :
    superclass? t.withoutComments = superclass? t := by
  rw [superclass?, superclass?, heritage_withoutComments, ofKind_content _ (by decide),
    List.getLast?_map]
  cases hlast : ((heritage t).filter (·.kind == "extends_clause")).getLast? with
  | none => rfl
  | some clause =>
    have hclause := (List.mem_filter.mp (List.mem_of_getLast? hlast)).1
    exact bind_field?_withoutComments (tokenComments_clause h hclause)
      (fun _ hc => baseType?_withoutComments hc) "value"

theorem propertySignature?_withoutComments (h : t.tokenComments = true) :
    propertySignature? t.withoutComments = propertySignature? t := by
  rw [propertySignature?, propertySignature?, kind_withoutComments, fieldText?_withoutComments h,
    bind_field?_withoutComments h (fun c _ => annotation?_withoutComments c),
    hasChildOfKind_withoutComments t _ (by decide)]

theorem methodSignature?_withoutComments (h : t.tokenComments = true) :
    methodSignature? t.withoutComments = methodSignature? t := by
  rw [methodSignature?, methodSignature?, kind_withoutComments, fieldText?_withoutComments h,
    text_withoutComments, hasChildOfKind_withoutComments t _ (by decide)]

/-- What members of an interface are read as is the same without the comments. -/
theorem signatures_withoutComments {signature? : Tree → Option Member} (h : t.tokenComments = true)
    (hcomment : ∀ c : Tree, c.isComment = true → signature? c = none)
    (hsame : ∀ c : Tree, c.tokenComments = true → signature? c.withoutComments = signature? c) :
    ((members t.withoutComments).filter (·.label.isNamed)).filterMap signature? =
      ((members t).filter (·.label.isNamed)).filterMap signature? := by
  rw [members_withoutComments h, named_content]
  apply filterMap_content
  · intro c _ hc
    exact hcomment c hc
  · intro c hc _
    exact hsame c (tokenComments_member h (List.mem_filter.mp hc).1)

theorem propertySignatures_withoutComments (h : t.tokenComments = true) :
    ((members t.withoutComments).filter (·.label.isNamed)).filterMap propertySignature? =
      ((members t).filter (·.label.isNamed)).filterMap propertySignature? := by
  apply signatures_withoutComments h
  · intro c hc
    simp [propertySignature?, kind_of_comment hc]
  · intro c hc
    exact propertySignature?_withoutComments hc

theorem methodSignatures_withoutComments (h : t.tokenComments = true) :
    ((members t.withoutComments).filter (·.label.isNamed)).filterMap methodSignature? =
      ((members t).filter (·.label.isNamed)).filterMap methodSignature? := by
  apply signatures_withoutComments h
  · intro c hc
    simp [methodSignature?, kind_of_comment hc]
  · intro c hc
    exact methodSignature?_withoutComments hc

/-! ### Aliases, imports and exports -/

theorem alias?_withoutComments (h : t.tokenComments = true) (exported : Bool) :
    alias? t.withoutComments exported = alias? t exported := by
  rw [alias?, alias?, fieldText?_withoutComments h, fieldText?_withoutComments h,
    firstLine_withoutComments, lastLine_withoutComments]

theorem specifier?_withoutComments (h : t.tokenComments = true) :
    specifier? t.withoutComments = specifier? t := by
  rw [specifier?, specifier?, kind_withoutComments, fieldText?_withoutComments h,
    fieldText?_withoutComments h]

theorem importPart_withoutComments (h : t.tokenComments = true) :
    importPart t.withoutComments = importPart t := by
  have hspecifiers : t.withoutComments.namedChildren.filterMap specifier? =
      t.namedChildren.filterMap specifier? := by
    rw [namedChildren_withoutComments]
    apply filterMap_content
    · intro c _ hc
      simp [specifier?, kind_of_comment hc]
    · intro c hc _
      exact specifier?_withoutComments (tokenComments_child h (List.mem_filter.mp hc).1)
  have hnamed : (t.withoutComments.childOfKind? "identifier").map
        (fun i => (⟨"*", some i.text⟩ : ImportedName)) =
      (t.childOfKind? "identifier").map fun i => ⟨"*", some i.text⟩ := by
    rw [childOfKind?_withoutComments t _ (by decide), Option.map_map]
    apply Option.map_congr
    intro i _
    rw [Function.comp_apply, text_withoutComments]
  rw [importPart, importPart, kind_withoutComments, text_withoutComments, hspecifiers, hnamed]

theorem importPart_of_comment (h : t.isComment = true) : importPart t = ([], []) := by
  simp [importPart, kind_of_comment h]

theorem import?_withoutComments (h : t.tokenComments = true) : import? t.withoutComments = import? t := by
  have hparts : ∀ {α : Type} (part : List ImportKind × List ImportedName → List α), part ([], []) = [] →
      (((((t.withoutComments.childOfKind? "import_clause").map namedChildren).getD []).map
        importPart).flatMap part) =
      ((((t.childOfKind? "import_clause").map namedChildren).getD []).map importPart).flatMap part := by
    intro α part hpart
    rw [childOfKind?_withoutComments t _ (by decide)]
    cases hclause : t.childOfKind? "import_clause" with
    | none => rfl
    | some clause =>
      have hclause := tokenComments_child h (List.mem_of_find?_eq_some hclause)
      dsimp only [Option.map_some, Option.getD_some]
      rw [namedChildren_withoutComments, List.flatMap_map importPart, List.flatMap_map importPart]
      apply flatMap_content
      · intro c _ hc
        rw [importPart_of_comment hc, hpart]
      · intro c hc _
        rw [importPart_withoutComments (tokenComments_child hclause (List.mem_filter.mp hc).1)]
  rw [import?, import?, field?_withoutComments h, childOfKind?_withoutComments t "string" (by decide)]
  simp only [hparts Prod.fst rfl, hparts Prod.snd rfl, firstLine_withoutComments]
  cases t.field? "source" <;> cases t.childOfKind? "string" <;> simp

theorem exportOfNames?_withoutComments (h : t.tokenComments = true) :
    exportOfNames? t.withoutComments = exportOfNames? t := by
  rw [exportOfNames?, exportOfNames?, fieldText?_withoutComments h,
    childOfKind?_withoutComments t _ (by decide), hasChildOfKind_withoutComments t "*" (by decide),
    hasChildOfKind_withoutComments t "namespace_export" (by decide),
    hasChildOfKind_withoutComments t "default" (by decide), firstLine_withoutComments]
  cases hclause : t.childOfKind? "export_clause" with
  | none =>
    rw [field?_withoutComments h]
    cases t.field? "value" with
    | none => rfl
    | some value => simp [Option.filter]
  | some clause =>
    have hclause := tokenComments_child h (List.mem_of_find?_eq_some hclause)
    dsimp only [Option.map_some]
    have hnames : ((clause.withoutComments.namedChildren.filter (·.kind == "export_specifier")).filterMap
        (·.fieldText? "name")) = (clause.namedChildren.filter (·.kind == "export_specifier")).filterMap
        (·.fieldText? "name") := by
      rw [namedChildren_withoutComments, ofKind_content _ (by decide), List.filterMap_map]
      apply List.filterMap_congr
      intro c hc
      have hchild := (List.mem_filter.mp (List.mem_filter.mp hc).1).1
      exact fieldText?_withoutComments (tokenComments_child hclause hchild) "name"
    rw [hnames]

theorem boundFunction?_withoutComments (h : t.tokenComments = true) (hbefore : NoComment before')
    (decl : Tree) (exported : Bool) :
    boundFunction? decl.withoutComments before' exported t.withoutComments =
      (boundFunction? decl before exported t).map FunctionInfo.undocumented := by
  rw [boundFunction?, boundFunction?, kind_withoutComments, fieldText?_withoutComments h,
    field?_withoutComments h]
  by_cases hkind : (t.kind == "variable_declarator") = true
  · rw [if_pos hkind, if_pos hkind]
    cases t.fieldText? "name" with
    | none => rfl
    | some name =>
      cases hvalue : t.field? "value" with
      | none => rfl
      | some value =>
        have hvalue := tokenComments_field h hvalue
        dsimp only [Option.map_some, Option.bind_some]
        rw [kind_withoutComments]
        by_cases hf : functionKinds.contains value.kind = true
        · rw [if_pos hf, if_pos hf, Option.map_some]
          exact congrArg some (functionInfo_withoutComments hvalue hbefore decl name exported none)
        · rw [if_neg hf, if_neg hf, Option.map_none]
  · rw [if_neg hkind, if_neg hkind, Option.map_none]

theorem boundFunctions_withoutComments (h : t.tokenComments = true) (hbefore : NoComment before')
    (exported : Bool) :
    t.withoutComments.children.filterMap (boundFunction? t.withoutComments before' exported) =
      (t.children.filterMap (boundFunction? t before exported)).map FunctionInfo.undocumented := by
  rw [children_withoutComments, List.map_filterMap]
  apply filterMap_content
  · intro c _ hc
    simp [boundFunction?, kind_of_comment hc]
  · intro c hc _
    exact boundFunction?_withoutComments (tokenComments_child h hc) hbefore t exported

end Parts

end Extract

end CodeAtlas
