/-
# Trees without their comments

A comment may stand between any two children of a node. Taking the comments out of a tree moves the
children after them, so the positions that give children their roles move along
(`Tree.withoutComments`). Comments are tokens of the grammar: they have no children and no role
(`Tree.tokenComments`). Where they are, the child in a role is the same as before, and what is found by
kind, by role or by text is found again; and where comments give nothing, a list of nodes or all nodes of
a tree give the same without them.

Key definitions: `Tree.isComment`, `Tree.content`, `Tree.withoutComments`, `Tree.tokenComments`.
Key theorems: `Tree.field?_withoutComments`, `Tree.childOfKind?_withoutComments`,
`Tree.flatMap_content`, `Tree.filterMap_content`, `Tree.filterMap_preorder`.
-/
import Mathlib.Data.List.Basic
import CodeAtlas.Proofs.Extraction

namespace CodeAtlas

namespace Tree

/-- Whether the node is a comment. -/
def isComment (t : Tree) : Bool := t.kind == "comment"

/-- The nodes that are not comments. -/
def content (cs : List Tree) : List Tree := cs.filter fun t => !t.isComment

/-- The place of the child at a position among the children that are not comments. -/
def placeAmong (cs : List Tree) (position : Nat) : Nat := (content (cs.take position)).length

/-- The roles of the children that are not comments, by their places among these. -/
def keptFields (cs : List Tree) (fields : List (String × Nat)) : List (String × Nat) :=
  (fields.filter fun f => !cs[f.2]?.any isComment).map fun f => (f.1, placeAmong cs f.2)

mutual

/-- The tree without the comments in it. Texts and rows stay as they are. -/
def withoutComments : Tree → Tree
  | node l cs => node { l with fields := keptFields cs l.fields } (withoutCommentsAll cs)

/-- The trees that are not comments, without the comments in them. -/
def withoutCommentsAll : List Tree → List Tree
  | [] => []
  | t :: ts =>
    if t.isComment then withoutCommentsAll ts else withoutComments t :: withoutCommentsAll ts

end

/-- Whether a comment has no children and comments have no role, at a node. -/
def tokenCommentsAt (t : Tree) : Bool :=
  (!t.isComment || t.children.isEmpty) && t.label.fields.all fun f => !t.children[f.2]?.any isComment

/-- Whether the comments of a tree are tokens: they have no children and no role. -/
def tokenComments (t : Tree) : Bool := t.preorder.all tokenCommentsAt

/-! ### Nodes and their children -/

theorem kind_of_comment {t : Tree} (h : t.isComment = true) : t.kind = "comment" := by
  simpa [isComment] using h

theorem content_cons_of_comment {t : Tree} (h : t.isComment = true) (cs : List Tree) :
    content (t :: cs) = content cs := by
  simp [content, h]

theorem content_cons {t : Tree} (h : t.isComment = false) (cs : List Tree) :
    content (t :: cs) = t :: content cs := by
  simp [content, h]

theorem mem_content {t : Tree} {cs : List Tree} : t ∈ content cs ↔ t ∈ cs ∧ t.isComment = false := by
  simp [content]

theorem withoutCommentsAll_eq (cs : List Tree) :
    withoutCommentsAll cs = (content cs).map withoutComments := by
  induction cs with
  | nil => rw [withoutCommentsAll, content, List.filter_nil, List.map_nil]
  | cons t cs ih =>
    rw [withoutCommentsAll, ih]
    by_cases h : t.isComment = true
    · rw [if_pos h, content_cons_of_comment h]
    · rw [if_neg h, content_cons (by simpa using h), List.map_cons]

theorem children_withoutComments (t : Tree) :
    t.withoutComments.children = (content t.children).map withoutComments := by
  obtain ⟨l, cs⟩ := t
  rw [withoutComments]
  exact withoutCommentsAll_eq cs

@[simp]
theorem kind_withoutComments (t : Tree) : t.withoutComments.kind = t.kind := by
  obtain ⟨l, cs⟩ := t
  rw [withoutComments]
  rfl

@[simp]
theorem text_withoutComments (t : Tree) : t.withoutComments.text = t.text := by
  obtain ⟨l, cs⟩ := t
  rw [withoutComments]
  rfl

@[simp]
theorem isNamed_withoutComments (t : Tree) : t.withoutComments.label.isNamed = t.label.isNamed := by
  obtain ⟨l, cs⟩ := t
  rw [withoutComments]
  rfl

@[simp]
theorem firstLine_withoutComments (t : Tree) : t.withoutComments.firstLine = t.firstLine := by
  obtain ⟨l, cs⟩ := t
  rw [withoutComments]
  rfl

@[simp]
theorem lastLine_withoutComments (t : Tree) : t.withoutComments.lastLine = t.lastLine := by
  obtain ⟨l, cs⟩ := t
  rw [withoutComments]
  rfl

@[simp]
theorem isComment_withoutComments (t : Tree) : t.withoutComments.isComment = t.isComment := by
  rw [isComment, kind_withoutComments, isComment]

theorem fields_withoutComments (t : Tree) :
    t.withoutComments.label.fields = keptFields t.children t.label.fields := by
  obtain ⟨l, cs⟩ := t
  rw [withoutComments]
  rfl

theorem preorderAll_eq (cs : List Tree) : preorderAll cs = cs.flatMap preorder := by
  induction cs with
  | nil => rw [preorderAll, List.flatMap_nil]
  | cons t cs ih => rw [preorderAll, ih, List.flatMap_cons]

theorem preorder_eq (t : Tree) : t.preorder = t :: t.children.flatMap preorder := by
  obtain ⟨l, cs⟩ := t
  rw [preorder, preorderAll_eq]
  rfl

section Tokens

variable {t c : Tree}

theorem tokenComments_child (h : t.tokenComments = true) (hc : c ∈ t.children) :
    c.tokenComments = true := by
  rw [tokenComments, preorder_eq, List.all_cons, Bool.and_eq_true, List.all_flatMap,
    List.all_eq_true] at h
  exact h.2 c hc

theorem tokenCommentsAt_of (h : t.tokenComments = true) : t.tokenCommentsAt = true := by
  rw [tokenComments, preorder_eq, List.all_cons, Bool.and_eq_true] at h
  exact h.1

theorem children_of_comment (h : t.tokenComments = true) (ht : t.isComment = true) :
    t.children = [] := by
  have hat := tokenCommentsAt_of h
  simpa [tokenCommentsAt, ht] using (Bool.and_eq_true_iff.mp hat).1

theorem not_comment_of_role (h : t.tokenComments = true) {f : String × Nat}
    (hf : f ∈ t.label.fields) (hc : t.children[f.2]? = some c) : c.isComment = false := by
  have hat := (Bool.and_eq_true_iff.mp (tokenCommentsAt_of h)).2
  have hrole := List.all_eq_true.mp hat f hf
  simpa [hc] using hrole

theorem tokenComments_field {name : String} (h : t.tokenComments = true)
    (hc : t.field? name = some c) : c.tokenComments = true :=
  tokenComments_child h (mem_of_field? hc)

theorem tokenComments_of_mem_preorder (t : Tree) : t.tokenComments = true →
    ∀ n ∈ t.preorder, n.tokenComments = true := by
  induction t using step_induction with
  | step t ih =>
    intro h n hn
    rw [preorder_eq] at hn
    obtain rfl | hn := List.mem_cons.mp hn
    · exact h
    · obtain ⟨c, hc, hn⟩ := List.mem_flatMap.mp hn
      exact ih c hc (tokenComments_child h hc) n hn

end Tokens

/-! ### Finding children -/

theorem getElem?_content : ∀ (cs : List Tree) (position : Nat),
    (∀ c, cs[position]? = some c → c.isComment = false) →
      (content cs)[placeAmong cs position]? = cs[position]?
  | [], _, _ => by simp [content]
  | c :: cs, 0, h => by
    rw [content_cons (h c rfl)]
    simp [placeAmong, content]
  | c :: cs, position + 1, h => by
    have hrest := getElem?_content cs position (by simpa using h)
    unfold placeAmong at hrest ⊢
    rw [List.take_succ_cons]
    by_cases hc : c.isComment = true
    · rw [content_cons_of_comment hc, content_cons_of_comment hc, hrest, List.getElem?_cons_succ]
    · have hc : c.isComment = false := by simpa using hc
      rw [content_cons hc, content_cons hc, List.length_cons, List.getElem?_cons_succ, hrest,
        List.getElem?_cons_succ]

theorem lookup_map_snd (g : Nat → Nat) (name : String) : ∀ fields : List (String × Nat),
    (fields.map fun f => (f.1, g f.2)).lookup name = (fields.lookup name).map g
  | [] => rfl
  | (key, position) :: fields => by
    rw [List.map_cons, List.lookup_cons, List.lookup_cons, lookup_map_snd g name fields]
    cases name == key <;> rfl

section Finding

variable {t : Tree}

/-- The child in a role is the same without the comments. -/
theorem field?_withoutComments (h : t.tokenComments = true) (name : String) :
    t.withoutComments.field? name = (t.field? name).map withoutComments := by
  -- No role is taken out, as no comment has one.
  have hkept : keptFields t.children t.label.fields =
      t.label.fields.map fun f => (f.1, placeAmong t.children f.2) := by
    unfold keptFields
    rw [List.filter_eq_self.mpr]
    intro f hf
    cases hc : t.children[f.2]? with
    | none => rfl
    | some c => simp [not_comment_of_role h hf hc]
  rw [field?, field?, fields_withoutComments, hkept, lookup_map_snd, children_withoutComments]
  cases hlookup : t.label.fields.lookup name with
  | none => rfl
  | some position =>
    have hmem : (name, position) ∈ t.label.fields := by
      obtain ⟨front, rest, hfields, _⟩ := List.lookup_eq_some_iff.mp hlookup
      rw [hfields]
      exact List.mem_append_right _ List.mem_cons_self
    rw [Option.map_some, Option.bind_some, Option.bind_some, List.getElem?_map,
      getElem?_content _ _ fun c hc => not_comment_of_role h hmem hc]

theorem fieldText?_withoutComments (h : t.tokenComments = true) (name : String) :
    t.withoutComments.fieldText? name = t.fieldText? name := by
  rw [fieldText?, fieldText?, field?_withoutComments h, Option.map_map]
  congr 1
  funext c
  exact text_withoutComments c

theorem named_content (cs : List Tree) :
    ((content cs).map withoutComments).filter (·.label.isNamed) =
      (content (cs.filter (·.label.isNamed))).map withoutComments := by
  rw [List.filter_map, content, content, List.filter_filter, List.filter_filter]
  congr 1
  apply List.filter_congr
  intro c _
  rw [Function.comp_apply, isNamed_withoutComments, Bool.and_comm]

theorem namedChildren_withoutComments (t : Tree) :
    t.withoutComments.namedChildren = (content t.namedChildren).map withoutComments := by
  rw [namedChildren, children_withoutComments, named_content, namedChildren]

/-- The nodes of a kind are the same among those that are not comments. -/
theorem ofKind_content (cs : List Tree) {kind : String} (hkind : kind ≠ "comment") :
    ((content cs).map withoutComments).filter (·.kind == kind) =
      (cs.filter (·.kind == kind)).map withoutComments := by
  rw [List.filter_map, content, List.filter_filter]
  congr 1
  apply List.filter_congr
  intro c _
  by_cases hc : c.kind = kind
  · simp [isComment, hc, hkind]
  · simp [hc]

theorem childOfKind?_withoutComments (t : Tree) (kind : String) (hkind : kind ≠ "comment") :
    t.withoutComments.childOfKind? kind = (t.childOfKind? kind).map withoutComments := by
  rw [childOfKind?, childOfKind?, ← List.head?_filter, ← List.head?_filter, children_withoutComments,
    ofKind_content _ hkind, List.head?_map]

theorem hasChildOfKind_withoutComments (t : Tree) (kind : String) (hkind : kind ≠ "comment") :
    t.withoutComments.hasChildOfKind kind = t.hasChildOfKind kind := by
  rw [hasChildOfKind, hasChildOfKind, ← List.isSome_find?, ← List.isSome_find?]
  have hfound := congrArg Option.isSome (childOfKind?_withoutComments t kind hkind)
  rwa [Option.isSome_map] at hfound

end Finding

/-! ### Reading lists of nodes -/

section Reading

variable {α : Type}

/-- Where comments give nothing, a list of nodes gives the same without them. -/
theorem flatMap_content {f g : Tree → List α} {cs : List Tree}
    (hcomment : ∀ c ∈ cs, c.isComment = true → g c = [])
    (hsame : ∀ c ∈ cs, c.isComment = false → f c.withoutComments = g c) :
    ((content cs).map withoutComments).flatMap f = cs.flatMap g := by
  induction cs with
  | nil => rfl
  | cons c cs ih =>
    have hrest := ih (fun d hd => hcomment d (List.mem_cons_of_mem _ hd))
      fun d hd => hsame d (List.mem_cons_of_mem _ hd)
    rw [List.flatMap_cons, ← hrest]
    by_cases hc : c.isComment = true
    · rw [content_cons_of_comment hc, hcomment c List.mem_cons_self hc, List.nil_append]
    · have hc : c.isComment = false := by simpa using hc
      rw [content_cons hc, List.map_cons, List.flatMap_cons, hsame c List.mem_cons_self hc]

theorem filterMap_content {f g : Tree → Option α} {cs : List Tree}
    (hcomment : ∀ c ∈ cs, c.isComment = true → g c = none)
    (hsame : ∀ c ∈ cs, c.isComment = false → f c.withoutComments = g c) :
    ((content cs).map withoutComments).filterMap f = cs.filterMap g := by
  rw [List.filterMap_map, content, List.filterMap_filter]
  apply List.filterMap_congr
  intro c hc
  by_cases hcomm : c.isComment = true
  · simp [hcomm, hcomment c hc hcomm]
  · simp [hcomm, hsame c hc (by simpa using hcomm)]

/-- Where comments give nothing, the nodes of a tree give the same without them. -/
theorem filterMap_preorder {f g : Tree → Option α}
    (hcomment : ∀ n : Tree, n.isComment = true → g n = none)
    (hsame : ∀ n : Tree, n.tokenComments = true → f n.withoutComments = g n) (t : Tree) :
    t.tokenComments = true → t.withoutComments.preorder.filterMap f = t.preorder.filterMap g := by
  induction t using step_induction with
  | step t ih =>
    intro h
    have hrest : (t.withoutComments.children.flatMap preorder).filterMap f =
        (t.children.flatMap preorder).filterMap g := by
      rw [List.filterMap_flatMap, List.filterMap_flatMap, children_withoutComments]
      apply flatMap_content
      · intro c hc hcomm
        rw [preorder_eq, children_of_comment (tokenComments_child h hc) hcomm, List.flatMap_nil,
          List.filterMap_cons_none (hcomment c hcomm), List.filterMap_nil]
      · intro c hc _
        exact ih c hc (tokenComments_child h hc)
    rw [preorder_eq, preorder_eq t, List.filterMap_cons, List.filterMap_cons, hsame t h, hrest]

end Reading

end Tree

end CodeAtlas
