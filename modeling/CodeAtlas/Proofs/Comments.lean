/-
# What comments change

The declarations of a tree and of the tree without its comments are the same but for their
documentation, and but for two things. The types that a class implements and an interface extends are
all named nodes of a clause, and a comment is one: it is listed among them
(`Extract.listsComment`). And a dynamic import is known by its first argument, so a comment in front of
the module hides it (`Extract.hidesImport`). Nothing else is misread: the declarations are the same
exactly if neither happens at a node that is read (`Extract.comments_unread_iff`).

The walk is compared with itself on the two trees. What it gives differs at most in the lists of types,
so lists of the same length are compared piece by piece, and the names an export statement lists are the
same in any case (`Extract.Mirrors`).

Key definitions: `Declaration.undocumented`, `Extract.typeNodes`, `Extract.listsComment`,
`Extract.hidesImport`, `Extract.Mirrors`.
Key theorems: `Extract.mirrors_ofTree`, `Extract.comments_unread_iff`.
-/
import CodeAtlas.Proofs.CommentFreeParts

namespace CodeAtlas

namespace Declaration

/-- The declaration without its documentation. -/
def undocumented : Declaration → Declaration
  | .function f => .function f.undocumented
  | .classType c => .classType { c with docstring := none }
  | .interface i => .interface { i with docstring := none }
  | d => d

/-- The declaration without its documentation and the types it implements or extends. -/
def bare : Declaration → Declaration
  | .function f => .function f.undocumented
  | .classType c => .classType { c with implements := [], docstring := none }
  | .interface i => .interface { i with parents := [], docstring := none }
  | d => d

@[simp]
theorem bare_undocumented (d : Declaration) : d.undocumented.bare = d.bare := by
  cases d <;> rfl

theorem name?_bare (d : Declaration) : d.bare.name? = d.name? := by
  cases d <;> rfl

theorem isMethod_bare (d : Declaration) : d.bare.isMethod = d.isMethod := by
  cases d <;> rfl

end Declaration

namespace Extract

open CodeAtlas.Tree

theorem exportedNames_bare (ds : List Declaration) :
    exportedNames (ds.map Declaration.bare) = exportedNames ds := by
  rw [exportedNames, exportedNames, List.filter_map, List.filterMap_map]
  simp only [Function.comp_def, Declaration.name?_bare, Declaration.isMethod_bare]

/-! ### Misread comments -/

/-- The nodes that are read as the types that a class implements or an interface extends. -/
def typeNodes (t : Tree) : List Tree :=
  match roleOf t.kind with
  | .classType => ((heritage t).filter (·.kind == "implements_clause")).flatMap namedChildren
  | .interface => ((t.childOfKind? "extends_type_clause").map namedChildren).getD []
  | _ => []

/-- Whether a node is a class or interface that lists a comment among its types. -/
def listsComment (t : Tree) : Bool :=
  (t.fieldText? "name").isSome && (typeNodes t).any fun c => c.isComment && (baseType? c).isSome

/-- Whether a node is a dynamic import. -/
def isImportCall (t : Tree) : Bool :=
  t.kind == "call_expression" && (t.field? "function").any (·.kind == "import")

/-- Whether a node is a dynamic import of a literal that comes after a comment. -/
def hidesImport (t : Tree) : Bool :=
  isImportCall t && (t.field? "arguments").any fun arguments =>
    arguments.namedChildren.head?.any isComment &&
      (content arguments.namedChildren).head?.any (·.kind == "string")

/-- Two ways to read a list, one of which finds all that the other does, give the same only if they
read each element alike. -/
theorem filterMap_eq_iff {α β : Type} {f g : α → Option β} : ∀ {l : List α},
    (∀ x ∈ l, ∀ y, f x = some y → g x = some y) →
      (l.filterMap f = l.filterMap g ↔ ∀ x ∈ l, f x = g x)
  | [], _ => by simp
  | x :: l, h => by
    have hl := fun y hy => h y (List.mem_cons_of_mem x hy)
    have ih := filterMap_eq_iff hl
    rw [List.forall_mem_cons, ← ih, List.filterMap_cons, List.filterMap_cons]
    cases hf : f x with
    | some y => simp [h x List.mem_cons_self y hf]
    | none =>
      cases hg : g x with
      | none => simp
      | some z =>
        -- Here `g` finds one more, and further on it finds no less: the lists differ in length.
        have hshort : (l.filterMap f).length ≤ (l.filterMap g).length := by
          rw [List.length_filterMap_eq_countP, List.length_filterMap_eq_countP]
          apply List.countP_mono_left
          intro y hy hsome
          obtain ⟨w, hw⟩ := Option.isSome_iff_exists.mp hsome
          simp [hl y hy w hw]
        constructor
        · intro heq
          have hlength : (l.filterMap f).length = (l.filterMap g).length + 1 := congrArg List.length heq
          omega
        · rintro ⟨hnone, _⟩
          cases hnone

section Types

variable {t : Tree}

theorem typeNodes_withoutComments (t : Tree) :
    typeNodes t.withoutComments = (content (typeNodes t)).map withoutComments := by
  rw [typeNodes, typeNodes, kind_withoutComments]
  cases roleOf t.kind with
  | classType =>
    dsimp only
    rw [heritage_withoutComments, ofKind_content _ (by decide), List.flatMap_map, content,
      List.filter_flatMap, List.map_flatMap]
    congr 1
    funext clause
    exact namedChildren_withoutComments clause
  | interface =>
    dsimp only
    rw [childOfKind?_withoutComments t _ (by decide)]
    cases t.childOfKind? "extends_type_clause" with
    | none => rfl
    | some clause => exact namedChildren_withoutComments clause
  | _ => rfl

theorem tokenComments_typeNode {c : Tree} (h : t.tokenComments = true) (hc : c ∈ typeNodes t) :
    c.tokenComments = true := by
  rw [typeNodes] at hc
  cases hrole : roleOf t.kind with
  | classType =>
    simp only [hrole] at hc
    obtain ⟨clause, hclause, hc⟩ := List.mem_flatMap.mp hc
    have hclause := tokenComments_clause h (List.mem_filter.mp hclause).1
    exact tokenComments_child hclause (List.mem_filter.mp hc).1
  | interface =>
    simp only [hrole] at hc
    cases hclause : t.childOfKind? "extends_type_clause" with
    | none => simp [hclause] at hc
    | some clause =>
      have htoken := tokenComments_child h (List.mem_of_find?_eq_some hclause)
      simp only [hclause, Option.map_some, Option.getD_some] at hc
      exact tokenComments_child htoken (List.mem_filter.mp hc).1
  | _ => simp [hrole] at hc

/-- The types are the same without the comments exactly if no comment is listed. -/
theorem typeNames_eq_iff (h : t.tokenComments = true) :
    (typeNodes t.withoutComments).filterMap baseType? = (typeNodes t).filterMap baseType? ↔
      (typeNodes t).any (fun c => c.isComment && (baseType? c).isSome) = false := by
  have hread : (typeNodes t.withoutComments).filterMap baseType? =
      (typeNodes t).filterMap fun c => if c.isComment then none else baseType? c := by
    rw [typeNodes_withoutComments]
    apply filterMap_content
    · intro c _ hc
      rw [if_pos hc]
    · intro c hc hcomm
      rw [baseType?_withoutComments (tokenComments_typeNode h hc), if_neg (by simp [hcomm])]
  rw [hread, filterMap_eq_iff, List.any_eq_false]
  · apply forall₂_congr
    intro c _
    cases c.isComment <;> cases baseType? c <;> simp
  · intro c _ y hy
    cases hc : c.isComment with
    | true => simp [hc] at hy
    | false => simpa [hc] using hy

end Types

/-! ### Hidden imports -/

section Imports

/-- The module that the first of some arguments gives. -/
def literal? (arguments : List Tree) : Option String :=
  arguments.head?.bind fun a => if a.kind == "string" then some (unquote a.text) else none

theorem dynamicModule?_eq (t : Tree) : dynamicModule? t =
    if isImportCall t then (t.field? "arguments").bind fun a => literal? a.namedChildren else none := by
  rw [dynamicModule?, Option.bind_assoc]
  rfl

theorem literal?_map_withoutComments (arguments : List Tree) :
    literal? (arguments.map withoutComments) = literal? arguments := by
  cases arguments with
  | nil => rfl
  | cons a arguments => simp [literal?]

theorem literal?_of_comment {a : Tree} (h : a.isComment = true) (arguments : List Tree) :
    literal? (a :: arguments) = none := by
  simp [literal?, kind_of_comment h]

theorem literal?_content_of_eq_some {arguments : List Tree} {module : String}
    (h : literal? arguments = some module) : literal? (content arguments) = some module := by
  cases arguments with
  | nil => cases h
  | cons a arguments =>
    cases ha : a.isComment with
    | true =>
      rw [literal?_of_comment ha] at h
      cases h
    | false =>
      rw [content_cons ha]
      exact h

theorem literal?_eq_content_iff (arguments : List Tree) :
    literal? arguments = literal? (content arguments) ↔
      (arguments.head?.any isComment && (content arguments).head?.any (·.kind == "string")) = false := by
  cases arguments with
  | nil => simp [content]
  | cons a arguments =>
    cases ha : a.isComment with
    | true =>
      rw [literal?_of_comment ha, content_cons_of_comment ha]
      cases content arguments with
      | nil => simp [literal?]
      | cons b rest => by_cases hb : b.kind = "string" <;> simp [literal?, ha, hb]
    | false => simp [content_cons ha, ha, literal?]

variable {t : Tree}

theorem isImportCall_withoutComments (h : t.tokenComments = true) :
    isImportCall t.withoutComments = isImportCall t := by
  rw [isImportCall, isImportCall, kind_withoutComments, field?_withoutComments h, Option.any_map]
  congr 2
  funext f
  exact congrArg (· == "import") (kind_withoutComments f)

theorem dynamicModule?_withoutComments (h : t.tokenComments = true) :
    dynamicModule? t.withoutComments = if isImportCall t then
      (t.field? "arguments").bind fun a => literal? (content a.namedChildren) else none := by
  rw [dynamicModule?_eq, isImportCall_withoutComments h]
  congr 1
  apply bind_field?_withoutComments h
  intro a _
  rw [namedChildren_withoutComments, literal?_map_withoutComments]

theorem dynamicModule?_of_eq_some {module : String} (h : t.tokenComments = true)
    (hmodule : dynamicModule? t = some module) : dynamicModule? t.withoutComments = some module := by
  rw [dynamicModule?_eq] at hmodule
  rw [dynamicModule?_withoutComments h]
  by_cases hcall : isImportCall t = true
  · rw [if_pos hcall] at hmodule
    rw [if_pos hcall]
    obtain ⟨arguments, harguments, hliteral⟩ := Option.bind_eq_some_iff.mp hmodule
    exact Option.bind_eq_some_iff.mpr ⟨arguments, harguments, literal?_content_of_eq_some hliteral⟩
  · rw [if_neg hcall] at hmodule
    cases hmodule

/-- A dynamic import is read alike without the comments unless a comment hides it. -/
theorem dynamicModule?_eq_iff (h : t.tokenComments = true) :
    dynamicModule? t = dynamicModule? t.withoutComments ↔ hidesImport t = false := by
  rw [dynamicModule?_eq, dynamicModule?_withoutComments h, hidesImport]
  cases isImportCall t with
  | false => simp
  | true =>
    cases t.field? "arguments" with
    | none => simp
    | some arguments => simpa using literal?_eq_content_iff arguments.namedChildren

/-- The dynamic imports of a tree are the same without its comments exactly if none is hidden. -/
theorem dynamicImports_eq_iff (root : Tree) (h : root.tokenComments = true) :
    root.withoutComments.preorder.filterMap dynamicImport? = root.preorder.filterMap dynamicImport? ↔
      ∀ t ∈ root.preorder, hidesImport t = false := by
  have hread : root.withoutComments.preorder.filterMap dynamicImport? =
      root.preorder.filterMap fun t => dynamicImport? t.withoutComments := by
    apply filterMap_preorder _ (fun _ _ => rfl) root h
    intro t ht
    simp [dynamicImport?, dynamicModule?, kind_of_comment ht]
  rw [hread, eq_comm, filterMap_eq_iff]
  · apply forall₂_congr
    intro t ht
    have ht := tokenComments_of_mem_preorder root h t ht
    rw [← dynamicModule?_eq_iff ht, dynamicImport?, dynamicImport?, firstLine_withoutComments]
    apply Option.map_inj_right
    intro m m' hm
    exact congrArg ImportInfo.module hm
  · intro t ht i hi
    have ht := tokenComments_of_mem_preorder root h t ht
    obtain ⟨module, hmodule, rfl⟩ := Option.map_eq_some_iff.mp hi
    rw [dynamicImport?, dynamicModule?_of_eq_some ht hmodule, firstLine_withoutComments]
    rfl

end Imports

/-! ### Classes and interfaces -/

/-- The first declarations differ from the second at most in documentation and in the types of classes
and interfaces, and are the second without documentation exactly if `p`. -/
structure Mirrors (xs ys : List Declaration) (p : Prop) : Prop where
  bare : xs.map Declaration.bare = ys.map Declaration.bare
  exact_iff : xs = ys.map Declaration.undocumented ↔ p

namespace Mirrors

variable {xs ys xs' ys' : List Declaration} {p q : Prop}

theorem of_eq (h : xs = ys.map Declaration.undocumented) (hp : p) : Mirrors xs ys p where
  bare := by
    rw [h, List.map_map]
    apply List.map_congr_left
    intro d _
    exact d.bare_undocumented
  exact_iff := iff_of_true h hp

theorem congr (h : Mirrors xs ys p) (hpq : p ↔ q) : Mirrors xs ys q :=
  ⟨h.bare, h.exact_iff.trans hpq⟩

theorem append_eq_iff (h : Mirrors xs ys p) {zs ws : List Declaration} :
    xs ++ zs = ys.map Declaration.undocumented ++ ws ↔ p ∧ zs = ws := by
  have hlength : xs.length = (ys.map Declaration.undocumented).length := by
    simpa using congrArg List.length h.bare
  rw [← h.exact_iff]
  constructor
  · intro heq
    exact List.append_inj heq hlength
  · rintro ⟨hxs, hzs⟩
    rw [hxs, hzs]

theorem append (h : Mirrors xs ys p) (h' : Mirrors xs' ys' q) :
    Mirrors (xs ++ xs') (ys ++ ys') (p ∧ q) where
  bare := by rw [List.map_append, List.map_append, h.bare, h'.bare]
  exact_iff := by
    rw [List.map_append, h.append_eq_iff, h'.exact_iff]

theorem exportedNames_eq (h : Mirrors xs ys p) : exportedNames xs = exportedNames ys := by
  rw [← exportedNames_bare xs, h.bare, exportedNames_bare]

end Mirrors

section Types

variable {t : Tree} {before before' : Option Tree}

theorem implemented_eq (hrole : roleOf t.kind = .classType) :
    implemented t = (typeNodes t).filterMap baseType? := by
  rw [implemented, typeNodes, hrole, List.filterMap_flatMap]

theorem classInfo_withoutComments (h : t.tokenComments = true) (hbefore : NoComment before')
    (before : Option Tree) (exported : Bool) (name : String) :
    classInfo t.withoutComments before' exported name =
      { classInfo t before exported name with
        implements := implemented t.withoutComments
        docstring := none } := by
  have hmethods : (methodsOf t.withoutComments name).map (·.name) = (methodsOf t name).map (·.name) := by
    rw [methodsOf_withoutComments h, List.map_map]
    rfl
  simp only [classInfo, kind_withoutComments, hasChildOfKind_withoutComments t "abstract" (by decide),
    superclass?_withoutComments h, hmethods, properties_withoutComments h, access?_withoutComments,
    firstLine_withoutComments, lastLine_withoutComments, documentation?_of_noComment hbefore]

theorem mirrors_classBlock (h : t.tokenComments = true) (hrole : roleOf t.kind = .classType)
    (hbefore : NoComment before') (exported : Bool) :
    Mirrors (classBlock t.withoutComments before' exported) (classBlock t before exported)
      (listsComment t = false) := by
  have hmethods : ∀ name, Mirrors ((methodsOf t.withoutComments name).map .function)
      ((methodsOf t name).map .function) True := by
    intro name
    apply Mirrors.of_eq _ trivial
    rw [methodsOf_withoutComments h, List.map_map, List.map_map]
    rfl
  rw [classBlock_eq, classBlock_eq, fieldText?_withoutComments h, listsComment]
  cases hname : t.fieldText? "name" with
  | none => exact Mirrors.of_eq rfl rfl
  | some name =>
    have hclass : Mirrors [.classType (classInfo t.withoutComments before' exported name)]
        [.classType (classInfo t before exported name)]
        ((typeNodes t).any (fun c => c.isComment && (baseType? c).isSome) = false) := by
      have hrole' : roleOf t.withoutComments.kind = .classType := by rw [kind_withoutComments, hrole]
      rw [classInfo_withoutComments h hbefore before]
      constructor
      · rfl
      · rw [← typeNames_eq_iff h, ← implemented_eq hrole, ← implemented_eq hrole']
        simp [Declaration.undocumented, classInfo]
    exact (hclass.append (hmethods name)).congr (by simp)

theorem parents_eq (hrole : roleOf t.kind = .interface) :
    (((t.childOfKind? "extends_type_clause").map fun clause =>
      clause.namedChildren.filterMap baseType?).getD []) = (typeNodes t).filterMap baseType? := by
  rw [typeNodes, hrole]
  cases t.childOfKind? "extends_type_clause" <;> rfl

theorem mirrors_interface (h : t.tokenComments = true) (hrole : roleOf t.kind = .interface)
    (hbefore : NoComment before') (exported : Bool) :
    Mirrors ((interface? t.withoutComments before' exported).map .interface).toList
      ((interface? t before exported).map .interface).toList (listsComment t = false) := by
  have hrole' : roleOf t.withoutComments.kind = .interface := by rw [kind_withoutComments, hrole]
  rw [interface?, interface?, fieldText?_withoutComments h, parents_eq hrole, parents_eq hrole']
  dsimp only
  rw [propertySignatures_withoutComments h, methodSignatures_withoutComments h, listsComment]
  cases hname : t.fieldText? "name" with
  | none => exact Mirrors.of_eq rfl rfl
  | some name =>
    constructor
    · simp [Declaration.bare]
    · rw [Option.isSome_some, Bool.true_and, ← typeNames_eq_iff h]
      simp [Declaration.undocumented, documentation?_of_noComment hbefore]

end Types

/-! ### The nodes that are read -/

/-- Whether no node that is read where the nodes `cs` are lists a comment among its types. -/
def Clean (cs : List Tree) (first : Bool) : Prop :=
  ∀ path e t, Reached cs first path e t → listsComment t = false

theorem clean_cons {t : Tree} {cs : List Tree} {first : Bool} :
    Clean (t :: cs) first ↔ Clean [t] first ∧ Clean cs first := by
  constructor
  · intro h
    exact ⟨fun path e n hn => h path e n (hn.mono (by simp)),
      fun path e n hn => h path e n (hn.mono fun _ hs => List.mem_cons_of_mem _ hs)⟩
  · rintro ⟨ht, hcs⟩ path e n hn
    obtain ⟨s, hs, hroot⟩ := hn.exists_root
    obtain rfl | hs := List.mem_cons.mp hs
    · exact ht path e n hroot
    · exact hcs path e n (hroot.mono (by simpa using hs))

theorem clean_nil (first : Bool) : Clean [] first := by
  intro path e n hn
  obtain ⟨s, hs, _⟩ := hn.exists_root
  cases hs

/-- What it takes that no node is misread below a node, by what the node is read as. -/
theorem clean_singleton {t : Tree} {first : Bool} : Clean [t] first ↔ listsComment t = false ∧
    (roleOf t.kind = .exporting → (t.field? "declaration").isSome → Clean t.children true) ∧
    (roleOf t.kind = .space → ∀ body, t.field? "body" = some body → Clean body.children false) ∧
    (roleOf t.kind = .plain → Clean t.children first) := by
  have hself := List.mem_singleton_self t
  constructor
  · intro h
    refine ⟨h _ _ t (.here hself), ?_, ?_, ?_⟩
    · intro hrole hsome path e n hn
      exact h _ e n (.exporting hself (roleOf_eq_exporting_iff.mp hrole) hsome hn)
    · intro hrole body hbody path e n hn
      exact h _ e n (.space hself (roleOf_eq_space_iff.mp hrole) hbody hn)
    · intro hrole path e n hn
      exact h _ e n (.plain hself hrole hn)
  · rintro ⟨ht, hexporting, hspace, hplain⟩ path e n hn
    cases hn with
    | here hn =>
      obtain rfl := List.mem_singleton.mp hn
      exact ht
    | exporting hs hkind hsome hbelow =>
      obtain rfl := List.mem_singleton.mp hs
      exact hexporting (roleOf_eq_exporting_iff.mpr hkind) hsome _ e n hbelow
    | space hs hkind hbody hbelow =>
      obtain rfl := List.mem_singleton.mp hs
      exact hspace (roleOf_eq_space_iff.mpr hkind) _ hbody _ e n hbelow
    | plain hs hrole hbelow =>
      obtain rfl := List.mem_singleton.mp hs
      exact hplain hrole _ e n hbelow

theorem listsComment_of_role {t : Tree} (hclass : roleOf t.kind ≠ .classType)
    (hinterface : roleOf t.kind ≠ .interface) : listsComment t = false := by
  have hnodes : typeNodes t = [] := by
    rw [typeNodes]
    cases hrole : roleOf t.kind <;> simp_all
  rw [listsComment, hnodes, List.any_nil, Bool.and_false]

/-- The roles of the nodes that declare one thing each, and no class or interface, and of those that are
passed over. -/
def leafRoles : List Role := [.function, .typeAlias, .importing, .binding, .closed]

theorem clean_of_leaf {t : Tree} {role : Role} {first : Bool} (hrole : roleOf t.kind = role)
    (hleaf : role ∈ leafRoles) : Clean [t] first := by
  have hlists : listsComment t = false := by
    apply listsComment_of_role
    · rintro h
      simp [← hrole, h, leafRoles] at hleaf
    · rintro h
      simp [← hrole, h, leafRoles] at hleaf
  rw [clean_singleton, hrole]
  refine ⟨hlists, ?_, ?_, ?_⟩ <;>
  · rintro rfl
    simp [leafRoles] at hleaf

/-! ### The walk -/

section Walk

variable {t : Tree}

theorem roleOf_of_comment (ht : t.isComment = true) : roleOf t.kind = .plain := by
  rw [kind_of_comment ht]
  rfl

theorem ofTree_of_comment (h : t.tokenComments = true) (ht : t.isComment = true) (exported : Bool)
    (before documented : Option Tree) : ofTree exported before documented t = [] := by
  rw [ofTree_plain (roleOf_of_comment ht), children_of_comment h ht, ofChildren]

theorem clean_of_comment (h : t.tokenComments = true) (ht : t.isComment = true) (first : Bool) :
    Clean [t] first := by
  have hrole := roleOf_of_comment ht
  rw [clean_singleton, hrole, children_of_comment h ht]
  refine ⟨listsComment_of_role (by simp [hrole]) (by simp [hrole]), ?_⟩
  simp [clean_nil]

/-- The children of a node are read alike without the comments if each of them is. -/
theorem mirrors_ofChildren {exported : Bool} {above above' : Option (Option Tree)}
    (habove : ∀ b ∈ above', NoComment b) : ∀ (cs : List Tree) {before before' : Option Tree},
    (∀ c ∈ cs, c.tokenComments = true) →
    (∀ c ∈ cs, ∀ b b' d d', NoComment b' → NoComment d' →
      Mirrors (ofTree exported b' d' c.withoutComments) (ofTree exported b d c) (Clean [c] exported)) →
    NoComment before' →
      Mirrors (ofChildren exported above' before' ((content cs).map withoutComments))
        (ofChildren exported above before cs) (Clean cs exported)
  | [], _, _, _, _, _ => by
    rw [content, List.filter_nil, List.map_nil, ofChildren, ofChildren]
    exact Mirrors.of_eq rfl (clean_nil exported)
  | c :: cs, before, before', htoken, hread, hbefore => by
    have htokens := fun d hd => htoken d (List.mem_cons_of_mem c hd)
    have hreads := fun d hd => hread d (List.mem_cons_of_mem c hd)
    have hc := htoken c List.mem_cons_self
    cases hcomm : c.isComment with
    | true =>
      -- The comment declares nothing; all that it changes is what stands before the next node.
      rw [content_cons_of_comment hcomm, ofChildren, ofTree_of_comment hc hcomm, List.nil_append]
      apply (mirrors_ofChildren habove cs htokens hreads hbefore).congr
      rw [clean_cons]
      exact (and_iff_right (clean_of_comment hc hcomm exported)).symm
    | false =>
      have hdocumented : NoComment (above'.getD before') := by
        cases above' with
        | none => exact hbefore
        | some b => exact habove b rfl
      have hnext : NoComment (some c.withoutComments) := by
        rintro _ ⟨⟩
        rw [isComment_withoutComments, hcomm]
      have hfirst := hread c List.mem_cons_self before before' (above.getD before) _ hbefore hdocumented
      rw [content_cons hcomm, List.map_cons, ofChildren, ofChildren]
      exact (hfirst.append (mirrors_ofChildren habove cs htokens hreads hnext)).congr clean_cons.symm

/-- What an export statement says is the same without the comments, as it lists names alone. -/
theorem Mirrors.append_export {declaration : Tree} {xs ys : List Declaration} {p : Prop}
    (h : Mirrors xs ys p) (hdeclaration : declaration.tokenComments = true) :
    Mirrors (xs ++ [.export (exportOfDeclaration t.withoutComments declaration.withoutComments xs)])
      (ys ++ [.export (exportOfDeclaration t declaration ys)]) p := by
  have hexport : exportOfDeclaration t.withoutComments declaration.withoutComments xs =
      exportOfDeclaration t declaration ys := by
    rw [exportOfDeclaration, exportOfDeclaration, hasChildOfKind_withoutComments t _ (by decide),
      kind_withoutComments, fieldText?_withoutComments hdeclaration, h.exportedNames_eq,
      firstLine_withoutComments]
  have hlast : Mirrors [.export (exportOfDeclaration t declaration ys)]
      [.export (exportOfDeclaration t declaration ys)] True := Mirrors.of_eq rfl trivial
  rw [hexport]
  exact (h.append hlast).congr (Iff.of_eq (and_true p))

theorem noComment_beforeBody (t : Tree) : NoComment (beforeBody t.withoutComments) := by
  intro b hb
  obtain ⟨position, _, hlast⟩ := Option.bind_eq_some_iff.mp hb
  have hmem : b ∈ t.withoutComments.children := List.mem_of_mem_take (List.mem_of_getLast? hlast)
  rw [children_withoutComments] at hmem
  obtain ⟨c, hc, rfl⟩ := List.mem_map.mp hmem
  rw [isComment_withoutComments, (mem_content.mp hc).2]

theorem noComment_above {kind : String} {before : Option Tree} (h : NoComment before) :
    ∀ b ∈ above kind before, NoComment b := by
  intro b hb
  rw [above] at hb
  split at hb
  · cases hb
    exact h
  · cases hb

/-- A node is read alike without the comments in it unless a node below it lists a comment among its
types. -/
theorem mirrors_ofTree (t : Tree) : t.tokenComments = true →
    ∀ exported before before' documented documented', NoComment before' → NoComment documented' →
      Mirrors (ofTree exported before' documented' t.withoutComments)
        (ofTree exported before documented t) (Clean [t] exported) := by
  induction t using twofold_induction with
  | step t hchildren hbelow =>
    intro h exported before before' documented documented' hbefore hdocumented
    have htokens : ∀ c ∈ t.children, c.tokenComments = true := fun c hc => tokenComments_child h hc
    have hreads : ∀ e, ∀ c ∈ t.children, ∀ b b' d d', NoComment b' → NoComment d' →
        Mirrors (ofTree e b' d' c.withoutComments) (ofTree e b d c) (Clean [c] e) :=
      fun e c hc => hchildren c hc (htokens c hc) e
    rw [ofTree_eq, ofTree_eq, kind_withoutComments]
    -- What declares one thing is read alike, a class and an interface up to their types, and the other
    -- nodes as their children or those of their body are.
    cases hrole : roleOf t.kind with
    | function =>
      apply Mirrors.of_eq _ (clean_of_leaf hrole (by decide))
      rw [function?_withoutComments h hdocumented]
      cases function? t documented exported <;> rfl
    | classType =>
      apply (mirrors_classBlock h hrole hdocumented exported).congr
      simp [clean_singleton, hrole]
    | interface =>
      apply (mirrors_interface h hrole hdocumented exported).congr
      simp [clean_singleton, hrole]
    | typeAlias =>
      apply Mirrors.of_eq _ (clean_of_leaf hrole (by decide))
      rw [alias?_withoutComments h]
      cases alias? t exported <;> rfl
    | importing =>
      apply Mirrors.of_eq _ (clean_of_leaf hrole (by decide))
      rw [import?_withoutComments h]
      cases import? t <;> rfl
    | exporting =>
      dsimp only
      rw [field?_withoutComments h, children_withoutComments]
      cases hdeclaration : t.field? "declaration" with
      | none =>
        apply Mirrors.of_eq
        · rw [exportOfNames?_withoutComments h]
          cases exportOfNames? t <;> rfl
        · simp [clean_singleton, hrole, hdeclaration, listsComment_of_role]
      | some declaration =>
        have hwithin : Mirrors
            (ofChildren true (some before') none ((content t.children).map withoutComments))
            (ofChildren true (some before) none t.children) (Clean t.children true) :=
          mirrors_ofChildren (by simpa using hbefore) t.children htokens (hreads true) noComment_none
        apply (hwithin.append_export (tokenComments_field h hdeclaration)).congr
        simp [clean_singleton, hrole, hdeclaration, listsComment_of_role]
    | binding =>
      apply Mirrors.of_eq _ (clean_of_leaf hrole (by decide))
      dsimp only
      rw [boundFunctions_withoutComments h hdocumented, List.map_map, List.map_map]
      rfl
    | space =>
      dsimp only
      rw [field?_withoutComments h]
      cases hbody : t.field? "body" with
      | none =>
        apply Mirrors.of_eq
        · rfl
        · simp [clean_singleton, hrole, hbody, listsComment_of_role]
      | some body =>
        have htoken := tokenComments_field h hbody
        dsimp only [Option.map_some]
        rw [kind_withoutComments, children_withoutComments]
        apply (mirrors_ofChildren (noComment_above (noComment_beforeBody t)) body.children
          (fun c hc => tokenComments_child htoken hc)
          (fun c hc => hbelow body (mem_of_field? hbody) c hc (tokenComments_child htoken hc) false)
          noComment_none).congr
        simp [clean_singleton, hrole, hbody, listsComment_of_role]
    | closed => exact Mirrors.of_eq rfl (clean_of_leaf hrole (by decide))
    | plain =>
      dsimp only
      rw [children_withoutComments]
      apply (mirrors_ofChildren (fun _ hb => by cases hb) t.children htokens (hreads exported)
        noComment_none).congr
      simp [clean_singleton, hrole, listsComment_of_role]

/-- The declarations of a tree whose comments are tokens are the same without the comments, documentation
apart, exactly if no comment is listed among the types of a class or interface that is read and no comment
hides a dynamic import. -/
theorem comments_unread_iff (root : Tree) (h : root.tokenComments = true) :
    declarations root.withoutComments = (declarations root).map Declaration.undocumented ↔
      (∀ path e t, Reached root.children false path e t → listsComment t = false) ∧
        ∀ t ∈ root.preorder, hidesImport t = false := by
  have hwalk : Mirrors
      (ofChildren false (above root.kind none) none ((content root.children).map withoutComments))
      (ofChildren false (above root.kind none) none root.children) (Clean root.children false) :=
    mirrors_ofChildren (noComment_above noComment_none) root.children
      (fun c hc => tokenComments_child h hc)
      (fun c hc => mirrors_ofTree c (tokenComments_child h hc) false) noComment_none
  rw [declarations, declarations, kind_withoutComments, children_withoutComments, List.map_append,
    hwalk.append_eq_iff, List.map_map, ← dynamicImports_eq_iff root h]
  apply and_congr_right
  intro _
  apply List.map_inj_right
  intro i j hij
  exact Declaration.import.inj hij

end Walk

end Extract

namespace Trial

/-- A comment. -/
def remark : Tree := leaf "comment" "/* c */"

/-- A documented class, with a comment before its name and one before the class it extends. -/
def documented : Tree := branch "program" []
  [leaf "comment" "/** A circle. */",
    branch "class_declaration" [("name", 2), ("body", 4)]
      [token "class", remark, leaf "type_identifier" "Circle",
        branch "class_heritage" []
          [branch "extends_clause" [("value", 2)] [token "extends", remark, leaf "identifier" "Shape"]],
        branch "class_body" [] [token "\x7b", remark, token "\x7d"]]]

/-- A class that implements one interface, with a comment before it. -/
def implementing : Tree := branch "program" []
  [branch "class_declaration" [("name", 1), ("body", 3)]
    [token "class", leaf "type_identifier" "Circle",
      branch "class_heritage" []
        [branch "implements_clause" [] [token "implements", remark, leaf "type_identifier" "Shape"]],
      branch "class_body" [] [token "\x7b", token "\x7d"]]]

/-- An interface that extends another, with a comment before it. -/
def extending : Tree := branch "program" []
  [branch "interface_declaration" [("name", 1), ("body", 3)]
    [token "interface", leaf "type_identifier" "Round",
      branch "extends_type_clause" [("type", 2)]
        [token "extends", remark, leaf "type_identifier" "Shape"],
      branch "interface_body" [] [token "\x7b", token "\x7d"]]]

/-- A dynamic import, with a comment before the module. -/
def importing : Tree := branch "program" []
  [branch "expression_statement" []
    [branch "call_expression" [("function", 0), ("arguments", 1)]
      [leaf "import" "import",
        branch "arguments" [] [token "(", remark, leaf "string" "'./shapes'", token ")"]]]]

theorem clean_documented : Extract.Clean documented.children false := by
  apply Extract.clean_cons.mpr
  refine ⟨Extract.clean_of_comment (by decide +kernel) (by decide +kernel) false, ?_⟩
  apply Extract.clean_singleton.mpr
  refine ⟨by decide +kernel, ?_, ?_, ?_⟩ <;>
  · intro h
    exact absurd h (by decide +kernel)

/-- Comments elsewhere are not read. -/
theorem documented_unread : documented.tokenComments = true ∧
    Extract.declarations documented.withoutComments =
      (Extract.declarations documented).map Declaration.undocumented := by
  have htokens : documented.tokenComments = true := by decide +kernel
  refine ⟨htokens, (Extract.comments_unread_iff documented htokens).mpr ⟨clean_documented, ?_⟩⟩
  decide +kernel

end Trial

/-- A comment is listed as a type that a class implements or an interface extends, and a comment hides a
dynamic import. -/
theorem Extract.exists_comment_read :
    (∃ (root : Tree) (c : ClassInfo), root.tokenComments = true ∧ c.implements = ["Shape"] ∧
      declarations root.withoutComments = [.classType c] ∧
      declarations root = [.classType { c with implements := ["/* c */", "Shape"] }]) ∧
    (∃ (root : Tree) (i : InterfaceInfo), root.tokenComments = true ∧ i.parents = ["Shape"] ∧
      declarations root.withoutComments = [.interface i] ∧
      declarations root = [.interface { i with parents := ["/* c */", "Shape"] }]) ∧
    ∃ (root : Tree) (i : ImportInfo), root.tokenComments = true ∧ i.kinds = [.dynamic] ∧
      declarations root.withoutComments = [.import i] ∧ declarations root = [] := by
  open Trial in
  refine ⟨⟨implementing, ⟨"Circle", false, false, none, ["Shape"], [], [], none, 1, 1, none⟩, ?_⟩,
    ⟨extending, ⟨"Round", false, ["Shape"], [], [], 1, 1, none⟩, ?_⟩,
    importing, ⟨"./shapes", [.dynamic], [], true, 1⟩, ?_⟩
  · decide +kernel
  · decide +kernel
  · decide +kernel

end CodeAtlas
