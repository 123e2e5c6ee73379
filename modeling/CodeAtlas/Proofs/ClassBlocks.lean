/-
# Classes and their methods

A class is declared together with its methods, which come right after it in the order of its list of
names. Whatever else is read, from export statements, namespaces and the statements around them, is put
before or after such a block and never into it. So a list of declarations is made of blocks and of
declarations that stand alone (`Declaration.LinedUp`), every class begins a block and every method is
part of one (`Extract.classes_lined_up`).

Key definitions: `ClassInfo.Owns`, `Declaration.StandsAlone`, `Declaration.LinedUp`.
Key theorems: `Extract.linedUp_ofTree`, `Extract.linedUp_declarations`, `Extract.classes_lined_up`.
-/
import CodeAtlas.Proofs.Extraction

namespace CodeAtlas

/-- The functions are the methods of the class: they have the names that it lists, in their order, say
that they belong to it, and are not exported by themselves. -/
structure ClassInfo.Owns (c : ClassInfo) (methods : List FunctionInfo) : Prop where
  names : methods.map (·.name) = c.methods
  className : ∀ m ∈ methods, m.className = some c.name
  internal : ∀ m ∈ methods, m.isExported = false

namespace Declaration

/-- Neither a class nor a method. -/
def StandsAlone (d : Declaration) : Prop := d.isMethod = false ∧ ∀ c, d ≠ .classType c

/-- Declarations that are made of classes, each with its methods after it, and of others that stand
alone. -/
inductive LinedUp : List Declaration → Prop
  | nil : LinedUp []
  | single {d : Declaration} {rest : List Declaration} :
      d.StandsAlone → LinedUp rest → LinedUp (d :: rest)
  | block {c : ClassInfo} {methods : List FunctionInfo} {rest : List Declaration} :
      c.Owns methods → LinedUp rest → LinedUp (.classType c :: (methods.map .function ++ rest))

namespace LinedUp

variable {l l' : List Declaration}

theorem append (h : LinedUp l) (h' : LinedUp l') : LinedUp (l ++ l') := by
  induction h with
  | nil => exact h'
  | single hd _ ih => exact .single hd ih
  | block howns _ ih =>
    rw [List.cons_append, List.append_assoc]
    exact .block howns ih

theorem flatMap {α : Type} {f : α → List Declaration} : ∀ {as : List α},
    (∀ a ∈ as, LinedUp (f a)) → LinedUp (as.flatMap f)
  | [], _ => .nil
  | a :: as, h => by
    rw [List.flatMap_cons]
    exact (h a List.mem_cons_self).append (flatMap fun b hb => h b (List.mem_cons_of_mem _ hb))

theorem of_standsAlone : ∀ {l : List Declaration}, (∀ d ∈ l, d.StandsAlone) → LinedUp l
  | [], _ => .nil
  | d :: _, h =>
    .single (h d List.mem_cons_self) (of_standsAlone fun e he => h e (List.mem_cons_of_mem _ he))

/-- What stands after a run of functions comes after all of them or is one of them. -/
theorem split_functions {methods : List FunctionInfo} {rest before after : List Declaration}
    {d : Declaration} (h : methods.map .function ++ rest = before ++ d :: after) :
    (∃ between, rest = between ++ d :: after ∧ before = methods.map .function ++ between) ∨
      ∃ ms f ms', methods = ms ++ f :: ms' ∧ d = .function f ∧ before = ms.map .function ∧
        after = ms'.map .function ++ rest := by
  obtain ⟨between, hbefore, hrest⟩ | ⟨after', hmethods, hafter⟩ := List.append_eq_append_iff.mp h
  · exact .inl ⟨between, hrest, hbefore⟩
  · cases after' with
    | nil => exact .inl ⟨[], hafter.symm, by simpa using hmethods.symm⟩
    | cons _ after' =>
      obtain ⟨rfl, rfl⟩ := List.cons.inj hafter
      obtain ⟨ms, tail, rfl, rfl, htail⟩ := List.map_eq_append_iff.mp hmethods
      obtain ⟨f, ms', rfl, rfl, rfl⟩ := List.map_eq_cons_iff.mp htail
      exact .inr ⟨ms, f, ms', rfl, rfl, rfl, rfl⟩

theorem toList {α : Type} {f : α → Declaration} (o : Option α)
    (h : ∀ a, o = some a → (f a).StandsAlone) : LinedUp (o.map f).toList := by
  cases o with
  | none => exact .nil
  | some a => exact .single (h a rfl) .nil

/-- A class is followed by its methods. -/
theorem methods_after (h : LinedUp l) : ∀ {before after : List Declaration} {c : ClassInfo},
    l = before ++ .classType c :: after →
      ∃ methods rest, after = methods.map .function ++ rest ∧ c.Owns methods := by
  induction h with
  | nil =>
    intro before after c he
    simp at he
  | single hd _ ih =>
    intro before after c he
    cases before with
    | nil =>
      obtain ⟨rfl, -⟩ := List.cons.inj he
      exact absurd rfl (hd.2 c)
    | cons _ before => exact ih (List.cons.inj he).2
  | @block c' methods rest howns _ ih =>
    intro before after c he
    cases before with
    | nil =>
      obtain ⟨hc, rfl⟩ := List.cons.inj he
      obtain rfl := Declaration.classType.inj hc
      exact ⟨methods, rest, rfl, howns⟩
    | cons _ before =>
      obtain ⟨between, hrest, -⟩ | ⟨_, _, _, -, hd, -, -⟩ := split_functions (List.cons.inj he).2
      · exact ih hrest
      · cases hd

/-- A method stands among the methods of a class, right after it. -/
theorem class_before (h : LinedUp l) : ∀ {before after : List Declaration} {f : FunctionInfo},
    l = before ++ .function f :: after → f.className.isSome →
      ∃ front c ms ms' rest, before = front ++ .classType c :: ms.map .function ∧
        after = ms'.map .function ++ rest ∧ c.Owns (ms ++ f :: ms') := by
  induction h with
  | nil =>
    intro before after f he
    simp at he
  | @single d rest hd _ ih =>
    intro before after f he hf
    cases before with
    | nil =>
      obtain ⟨rfl, -⟩ := List.cons.inj he
      have hnone : f.className.isSome = false := hd.1
      rw [hnone] at hf
      cases hf
    | cons _ before =>
      obtain ⟨rfl, htail⟩ := List.cons.inj he
      obtain ⟨front, c, ms, ms', rest', rfl, hafter, howns⟩ := ih htail hf
      exact ⟨d :: front, c, ms, ms', rest', rfl, hafter, howns⟩
  | @block c methods rest howns _ ih =>
    intro before after f he hf
    cases before with
    | nil => cases (List.cons.inj he).1
    | cons _ before =>
      obtain ⟨rfl, htail⟩ := List.cons.inj he
      obtain ⟨between, hrest, rfl⟩ | ⟨ms, f', ms', rfl, hd, rfl, rfl⟩ := split_functions htail
      · obtain ⟨front, c', ms, ms', rest', rfl, hafter, howns'⟩ := ih hrest hf
        refine ⟨.classType c :: (methods.map .function ++ front), c', ms, ms', rest', ?_, hafter,
          howns'⟩
        simp
      · obtain rfl := Declaration.function.inj hd
        exact ⟨[], c, ms, ms', rest, rfl, rfl, howns⟩

end LinedUp

end Declaration

namespace Extract

open Declaration

variable {t : Tree} {documented : Option Tree} {exported : Bool}

/-! ### What the nodes that declare something declare -/

theorem className_function? {f : FunctionInfo} (h : function? t documented exported = some f) :
    f.className = none := by
  obtain ⟨name, _, rfl⟩ := Option.map_eq_some_iff.mp h
  rfl

theorem className_boundFunction? {decl : Tree} {f : FunctionInfo}
    (h : boundFunction? decl documented exported t = some f) : f.className = none := by
  obtain ⟨value, name, rfl⟩ := of_boundFunction? h
  rfl

theorem standsAlone_function {f : FunctionInfo} (h : f.className = none) :
    (Declaration.function f).StandsAlone := by
  refine ⟨?_, fun c hc => by cases hc⟩
  rw [Declaration.isMethod, h]
  rfl

theorem owns_methodsOf (t : Tree) (documented : Option Tree) (exported : Bool) (name : String) :
    (classInfo t documented exported name).Owns (methodsOf t name) := by
  have hmethod : ∀ m ∈ methodsOf t name, m.className = some name ∧ m.isExported = false := by
    intro m hm
    obtain ⟨member, _, hmember⟩ := List.mem_filterMap.mp hm
    exact of_method? hmember
  exact ⟨rfl, fun m hm => (hmethod m hm).1, fun m hm => (hmethod m hm).2⟩

theorem linedUp_classBlock (t : Tree) (documented : Option Tree) (exported : Bool) :
    LinedUp (classBlock t documented exported) := by
  rw [classBlock_eq]
  cases t.fieldText? "name" with
  | none => exact .nil
  | some name =>
    have h := LinedUp.block (owns_methodsOf t documented exported name) .nil
    rwa [List.append_nil] at h

/-! ### Walking the tree -/

/-- The children of a node give declarations in line if each of them does. -/
theorem linedUp_ofChildren {cs : List Tree}
    (h : ∀ c ∈ cs, ∀ exported before documented, LinedUp (ofTree exported before documented c))
    (exported : Bool) (above : Option (Option Tree)) (before : Option Tree) :
    LinedUp (ofChildren exported above before cs) := by
  rw [ofChildren_eq]
  exact .flatMap fun m hm => h m.2 (mem_of_mem_withBefore hm) _ _ _

/-- Every node gives declarations in line. The induction is on the tree; a namespace reads the children
of its body, which are two steps below it. -/
theorem linedUp_ofTree (t : Tree) : ∀ exported before documented,
    LinedUp (ofTree exported before documented t) := by
  induction t using Tree.twofold_induction with
  | step t hchildren hbelow =>
    intro exported before documented
    rw [ofTree_eq]
    cases roleOf t.kind with
    | function => exact .toList _ fun f hf => standsAlone_function (className_function? hf)
    | classType => exact linedUp_classBlock t documented exported
    | interface => exact .toList _ fun _ _ => ⟨rfl, fun _ h => by cases h⟩
    | typeAlias => exact .toList _ fun _ _ => ⟨rfl, fun _ h => by cases h⟩
    | importing => exact .toList _ fun _ _ => ⟨rfl, fun _ h => by cases h⟩
    | exporting =>
      cases t.field? "declaration" with
      | none => exact .toList _ fun _ _ => ⟨rfl, fun _ h => by cases h⟩
      | some declaration =>
        have hexport : ∀ info, (Declaration.export info).StandsAlone :=
          fun info => ⟨rfl, fun _ h => by cases h⟩
        exact (linedUp_ofChildren hchildren _ _ _).append (.single (hexport _) .nil)
    | binding =>
      apply LinedUp.of_standsAlone
      intro d hd
      obtain ⟨f, hf, rfl⟩ := List.mem_map.mp hd
      obtain ⟨c, _, hc⟩ := List.mem_filterMap.mp hf
      exact standsAlone_function (className_boundFunction? hc)
    | space =>
      cases hbody : t.field? "body" with
      | none => exact .nil
      | some body => exact linedUp_ofChildren (hbelow body (Tree.mem_of_field? hbody)) _ _ _
    | closed => exact .nil
    | plain => exact linedUp_ofChildren hchildren _ _ _

theorem linedUp_declarations (root : Tree) : LinedUp (declarations root) := by
  refine (linedUp_ofChildren (fun c _ => linedUp_ofTree c) _ _ _).append ?_
  apply LinedUp.of_standsAlone
  intro d hd
  obtain ⟨i, _, rfl⟩ := List.mem_map.mp hd
  exact ⟨rfl, fun _ h => by cases h⟩

/-- In what a tree declares, right after each class come its methods: functions that belong to it, that
have the names it lists in their order, and that are not exported by themselves. Every function that
belongs to a class stands among the methods that come right after that class. -/
theorem classes_lined_up (root : Tree) :
    (∀ before c after, declarations root = before ++ .classType c :: after →
      ∃ methods rest, after = methods.map .function ++ rest ∧ c.Owns methods) ∧
    ∀ before f after, declarations root = before ++ .function f :: after → f.className.isSome →
      ∃ front c ms ms' rest, before = front ++ .classType c :: ms.map .function ∧
        after = ms'.map .function ++ rest ∧ c.Owns (ms ++ f :: ms') := by
  have h := linedUp_declarations root
  exact ⟨fun _ _ _ he => h.methods_after he, fun _ _ _ he hf => h.class_before he hf⟩

end Extract

end CodeAtlas
