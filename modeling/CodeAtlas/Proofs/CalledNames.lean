/-
# The names called in a tree

A node of a tree has a place: the positions of the children on the way to it. Each node before its
children is the ascending order of the places (`Tree.pairwise_placed`, `Tree.mem_placed`), so the names
called below a node are listed by the first places of their calls (`Extract.listsFirst_calls`).

A cursor is on a node and knows the way back to the node it was made for, beyond which it does not go. A
walk by cursor that notes each node, goes through the children and comes back, and then goes on beside the
node, meets the nodes in the same order and ends where it began (`Cursor.walk_of_iff`).

Key definitions: `Tree.at?`, `Extract.CallAt`, `Cursor`, `Cursor.Walk`.
Key theorems: `Tree.mem_placed`, `Tree.pairwise_placed`, `Extract.listsFirst_calls`,
`Cursor.walk_of_iff`, `Extract.calls_exact`.
-/
import CodeAtlas.Proofs.Extraction
import CodeAtlas.Proofs.Occurrences
import Mathlib.Data.List.Lex

namespace CodeAtlas

/-! ### Places in a tree -/

namespace Tree

/-- The node at a place. -/
def at? : Tree → List Nat → Option Tree
  | t, [] => some t
  | t, n :: place => t.children[n]?.bind fun c => c.at? place

theorem at?_append : ∀ (t : Tree) (place rest : List Nat),
    t.at? (place ++ rest) = (t.at? place).bind fun u => u.at? rest
  | _, [], _ => rfl
  | t, n :: place, rest => by
    rw [List.cons_append, at?, at?, Option.bind_assoc]
    congr 1
    funext c
    exact at?_append c place rest

/-- The order of places: a node is before what is below it, and that before what is beside it. -/
def Before : List Nat → List Nat → Prop := List.Lex (· < ·)

instance : Std.Asymm Before := inferInstanceAs (Std.Asymm (List.Lex (· < ·)))

mutual

/-- All nodes with their places, each before its children. -/
def placed : Tree → List (List Nat × Tree)
  | node l cs => ([], node l cs) :: placedAll 0 cs

/-- All nodes of several trees with their places, the first tree at position `n`. -/
def placedAll (n : Nat) : List Tree → List (List Nat × Tree)
  | [] => []
  | t :: ts => (placed t).map (fun e => (n :: e.1, e.2)) ++ placedAll (n + 1) ts

end

mutual

theorem map_snd_placed : ∀ t : Tree, (placed t).map Prod.snd = t.preorder
  | node l cs => by rw [placed, preorder, List.map_cons, map_snd_placedAll 0 cs]

theorem map_snd_placedAll : ∀ (n : Nat) (ts : List Tree),
    (placedAll n ts).map Prod.snd = preorderAll ts
  | _, [] => rfl
  | n, t :: ts => by
    rw [placedAll, preorderAll, List.map_append, List.map_map, map_snd_placedAll (n + 1) ts,
      ← map_snd_placed t]
    rfl

end

mutual

theorem mem_placed : ∀ (t : Tree) {place : List Nat} {u : Tree},
    (place, u) ∈ placed t ↔ t.at? place = some u
  | node l cs, [], u => by
    rw [placed, List.mem_cons, mem_placedAll 0 cs]
    simp [at?, eq_comm]
  | node l cs, k :: place, u => by
    rw [placed, List.mem_cons, mem_placedAll 0 cs]
    simp [at?, children]

theorem mem_placedAll : ∀ (n : Nat) (ts : List Tree) {place : List Nat} {u : Tree},
    (place, u) ∈ placedAll n ts ↔
      ∃ k rest, place = (n + k) :: rest ∧ (ts[k]?.bind fun c => c.at? rest) = some u
  | n, [], place, u => by simp [placedAll]
  | n, t :: ts, place, u => by
    rw [placedAll, List.mem_append, mem_placedAll (n + 1) ts]
    constructor
    · rintro (h | ⟨k, rest, rfl, h⟩)
      · obtain ⟨e, he, heq⟩ := List.mem_map.mp h
        obtain ⟨rfl, rfl⟩ := Prod.mk.inj heq
        exact ⟨0, e.1, rfl, (mem_placed t).mp he⟩
      · exact ⟨k + 1, rest, by rw [Nat.add_assoc, Nat.add_comm 1 k], h⟩
    · rintro ⟨k, rest, rfl, h⟩
      cases k with
      | zero => exact .inl (List.mem_map.mpr ⟨(rest, u), (mem_placed t).mpr h, rfl⟩)
      | succ k => exact .inr ⟨k, rest, by rw [Nat.add_assoc, Nat.add_comm 1 k], h⟩

end

mutual

theorem pairwise_placed : ∀ t : Tree, (placed t).Pairwise fun e e' => Before e.1 e'.1
  | node l cs => by
    rw [placed]
    refine List.pairwise_cons.mpr ⟨?_, pairwise_placedAll 0 cs⟩
    rintro ⟨place, u⟩ h
    obtain ⟨k, rest, rfl, _⟩ := (mem_placedAll 0 cs).mp h
    exact .nil

theorem pairwise_placedAll : ∀ (n : Nat) (ts : List Tree),
    (placedAll n ts).Pairwise fun e e' => Before e.1 e'.1
  | _, [] => .nil
  | n, t :: ts => by
    rw [placedAll, List.pairwise_append, List.pairwise_map]
    refine ⟨(pairwise_placed t).imp .cons,
      pairwise_placedAll (n + 1) ts, ?_⟩
    -- the places of a tree are all before those of the trees after it
    rintro e he ⟨place, u⟩ h
    obtain ⟨e, _, rfl⟩ := List.mem_map.mp he
    obtain ⟨k, rest, rfl, _⟩ := (mem_placedAll (n + 1) ts).mp h
    exact .rel (by omega)

end

end Tree

/-! ### Calls by their places -/

namespace Extract

/-- The name that a call is made by: the called function is an identifier, or a member of some value. -/
inductive Names (call : Tree) : String → Prop
  | function {f : Tree} (called : call.field? "function" = some f) (kind : f.kind = "identifier") :
    Names call f.text
  | member {f property : Tree} (called : call.field? "function" = some f)
    (kind : f.kind = "member_expression") (named : f.field? "property" = some property) :
    Names call property.text

theorem callee?_eq_some_iff {call : Tree} {name : String} :
    callee? call = some name ↔ Names call name := by
  rw [callee?, Option.bind_eq_some_iff]
  constructor
  · rintro ⟨f, hf, h⟩
    split at h
    case isTrue hkind => exact Option.some.inj h ▸ .function hf (by simpa using hkind)
    case isFalse =>
      split at h
      case isTrue hkind =>
        obtain ⟨property, hp, rfl⟩ := Option.map_eq_some_iff.mp h
        exact .member hf (by simpa using hkind) hp
      case isFalse => cases h
  · rintro (⟨hf, hkind⟩ | ⟨hf, hkind, hp⟩)
    · exact ⟨_, hf, by simp [hkind]⟩
    · exact ⟨_, hf, by simp [hkind, Tree.fieldText?, hp]⟩

/-- At a place of the tree is a call that is made by the name. -/
def CallAt (root : Tree) (place : List Nat) (name : String) : Prop :=
  ∃ call, root.at? place = some call ∧ call.kind = "call_expression" ∧ Names call name

theorem called?_eq_some_iff {t : Tree} {name : String} :
    called? t = some name ↔ t.kind = "call_expression" ∧ Names t name := by
  rw [called?, Option.ite_none_right_eq_some, beq_iff_eq, callee?_eq_some_iff]

/-- The names called in a tree are listed by the first places of their calls. -/
theorem listsFirst_calls (t : Tree) : ListsFirst Tree.Before (CallAt t) (calls t) := by
  rw [calls, ← Tree.map_snd_placed t]
  refine (listsFirst_firstOccurrences called? (Tree.pairwise_placed t)).congr fun place name => ?_
  simp only [Tree.mem_placed, called?_eq_some_iff]
  rfl

/-- The names called in a part of a tree are those of the calls whose place is in that part. -/
theorem listsFirst_calls_of_at {root t : Tree} {place : List Nat} (h : root.at? place = some t) :
    ListsFirst Tree.Before (fun p name => place <+: p ∧ CallAt root p name) (calls t) := by
  refine (listsFirst_calls t).rename (fun _ _ h => h.append_left _ place) fun p name => ?_
  constructor
  · rintro ⟨⟨rest, rfl⟩, call, hcall, hname⟩
    rw [Tree.at?_append, h] at hcall
    exact ⟨rest, rfl, call, hcall, hname⟩
  · rintro ⟨rest, rfl, call, hcall, hname⟩
    refine ⟨List.prefix_append .., call, ?_, hname⟩
    rw [Tree.at?_append, h]
    exact hcall

end Extract

/-! ### Walks by cursor -/

/-- The parent of a node, and the nodes beside it, the nearest one before it first. -/
structure Frame where
  label : Tree.Label
  before : List Tree
  after : List Tree

/-- A node, and what is around it up to the node that the cursor was made for. -/
structure Cursor where
  focus : Tree
  around : List Frame

namespace Cursor

/-- The cursor made for a node. -/
def of (t : Tree) : Cursor := ⟨t, []⟩

/-- To the first child. -/
def firstChild? : Cursor → Option Cursor
  | ⟨.node l (t :: ts), around⟩ => some ⟨t, ⟨l, [], ts⟩ :: around⟩
  | ⟨.node _ [], _⟩ => none

/-- To the next node beside it. -/
def nextSibling? : Cursor → Option Cursor
  | ⟨t, ⟨l, before, u :: after⟩ :: around⟩ => some ⟨u, ⟨l, t :: before, after⟩ :: around⟩
  | _ => none

/-- To the parent. -/
def parent? : Cursor → Option Cursor
  | ⟨t, ⟨l, before, after⟩ :: around⟩ => some ⟨.node l (before.reverse ++ t :: after), around⟩
  | ⟨_, []⟩ => none

/-- The names with the one that a node calls. -/
def note (names : List String) (t : Tree) : List String :=
  (Extract.called? t).elim names (Text.addNew names)

mutual

/-- Notes a node, goes through its children and on beside it; what is noted grows from `names`. -/
inductive Walk : Cursor → List String → Cursor → List String → Prop
  | last {c c' : Cursor} {names names' : List String} (below : Below c (note names c.focus) c' names')
    (stop : c'.nextSibling? = none) : Walk c names c' names'
  | next {c c' d e : Cursor} {names names' names'' : List String}
    (below : Below c (note names c.focus) c' names') (step : c'.nextSibling? = some d)
    (rest : Walk d names' e names'') : Walk c names e names''

/-- Goes through the children of a node, if there are any, and back to the parent of the last one. -/
inductive Below : Cursor → List String → Cursor → List String → Prop
  | leaf {c : Cursor} {names : List String} (stop : c.firstChild? = none) : Below c names c names
  | children {c c' d e : Cursor} {names names' : List String} (down : c.firstChild? = some d)
    (rest : Walk d names e names') (up : e.parent? = some c') : Below c names c' names'

end

/-- The cursor on the last of the nodes beside a node. -/
def lastBeside (l : Tree.Label) (around : List Frame) : List Tree → Tree → List Tree → Cursor
  | before, t, [] => ⟨t, ⟨l, before, []⟩ :: around⟩
  | before, t, u :: after => lastBeside l around (t :: before) u after

theorem parent?_lastBeside (l : Tree.Label) (around : List Frame) :
    ∀ (after before : List Tree) (t : Tree), (lastBeside l around before t after).parent? =
      some ⟨.node l (before.reverse ++ t :: after), around⟩
  | [], _, _ => rfl
  | u :: after, before, t => by
    rw [lastBeside, parent?_lastBeside l around after (t :: before) u, List.reverse_cons,
      List.append_assoc, List.singleton_append]

/-- A node is noted before its children, and these before the nodes beside it. -/
theorem foldl_preorderAll (t : Tree) (ts : List Tree) (names : List String) :
    (Tree.preorderAll (t :: ts)).foldl note names = (Tree.preorderAll ts).foldl note
      ((Tree.preorderAll t.children).foldl note (note names t)) := by
  obtain ⟨l, cs⟩ := t
  rw [Tree.preorderAll, Tree.preorder, List.cons_append, List.foldl_cons, List.foldl_append]
  rfl

/-- Going through the children of the node ends at the node, with the names called below it. -/
def Returns (t : Tree) : Prop :=
  ∀ {around : List Frame} {names names' : List String} {e : Cursor},
    Below ⟨t, around⟩ names e names' ↔
      e = ⟨t, around⟩ ∧ names' = (Tree.preorderAll t.children).foldl note names

/-- Going on beside a node ends at the last node there. -/
theorem walk_iff {l : Tree.Label} {around : List Frame} {e : Cursor} {names' : List String} :
    ∀ {after before : List Tree} {t : Tree} {names : List String}, (∀ u ∈ t :: after, Returns u) →
      (Walk ⟨t, ⟨l, before, after⟩ :: around⟩ names e names' ↔
        e = lastBeside l around before t after ∧
          names' = (Tree.preorderAll (t :: after)).foldl note names)
  | [], before, t, names, h => by
    have ht : Returns t := h t List.mem_cons_self
    rw [foldl_preorderAll]
    constructor
    · rintro (⟨below, _⟩ | ⟨below, step, _⟩)
      · exact ht.mp below
      · obtain ⟨rfl, rfl⟩ := ht.mp below
        cases step
    · rintro ⟨rfl, rfl⟩
      exact .last (ht.mpr ⟨rfl, rfl⟩) rfl
  | u :: after, before, t, names, h => by
    have ht : Returns t := h t List.mem_cons_self
    have hrest : ∀ v ∈ u :: after, Returns v := fun v hv => h v (List.mem_cons_of_mem _ hv)
    rw [foldl_preorderAll]
    constructor
    · rintro (⟨below, stop⟩ | ⟨below, step, rest⟩)
      · obtain ⟨rfl, rfl⟩ := ht.mp below
        cases stop
      · obtain ⟨rfl, rfl⟩ := ht.mp below
        cases step
        exact (walk_iff hrest).mp rest
    · rintro ⟨rfl, rfl⟩
      exact .next (ht.mpr ⟨rfl, rfl⟩) rfl ((walk_iff hrest).mpr ⟨rfl, rfl⟩)

theorem returns (t : Tree) : Returns t := by
  induction t using Tree.step_induction with
  | step t ih =>
    intro around names names' e
    obtain ⟨l, cs⟩ := t
    cases cs with
    | nil =>
      constructor
      · rintro (_ | ⟨down, _, _⟩)
        · exact ⟨rfl, rfl⟩
        · cases down
      · rintro ⟨rfl, rfl⟩
        exact .leaf rfl
    | cons t ts =>
      constructor
      · rintro (stop | ⟨down, rest, up⟩)
        · cases stop
        · cases down
          obtain ⟨rfl, rfl⟩ := (walk_iff ih).mp rest
          rw [parent?_lastBeside] at up
          exact ⟨(Option.some.inj up).symm, rfl⟩
      · rintro ⟨rfl, rfl⟩
        exact .children rfl ((walk_iff ih).mpr ⟨rfl, rfl⟩) (parent?_lastBeside ..)

/-- A walk from the node that the cursor was made for goes through that node and what is below it, and
ends where it began. -/
theorem walk_of_iff {t : Tree} {names names' : List String} {e : Cursor} :
    Walk (of t) names e names' ↔ e = of t ∧ names' = t.preorder.foldl note names := by
  have hpreorder : t.preorder = t :: Tree.preorderAll t.children := by
    obtain ⟨l, cs⟩ := t
    rw [Tree.preorder, Tree.children]
  rw [hpreorder, List.foldl_cons]
  constructor
  · rintro (⟨below, _⟩ | ⟨below, step, _⟩)
    · exact (returns t).mp below
    · obtain ⟨rfl, rfl⟩ := (returns t).mp below
      cases step
  · rintro ⟨rfl, rfl⟩
    exact .last ((returns t).mpr ⟨rfl, rfl⟩) rfl

theorem foldl_note (t : Tree) : t.preorder.foldl note [] = Extract.calls t := by
  rw [Extract.calls, Text.firstOccurrences, List.foldl_filterMap]
  congr 1
  funext names u
  rw [note]
  cases Extract.called? u <;> rfl

end Cursor

/-- The names called in a part of a tree are those of the calls whose place is in that part, each once,
by the first of these places; and a walk by cursor from that part gathers them and comes back. -/
theorem Extract.calls_exact {root t : Tree} {place : List Nat} (h : root.at? place = some t) :
    (∀ names, ListsFirst Tree.Before (fun p name => place <+: p ∧ CallAt root p name) names ↔
        names = calls t) ∧
      ∀ e names, Cursor.Walk (.of t) [] e names ↔ e = .of t ∧ names = calls t := by
  constructor
  · intro names
    constructor
    · exact fun hnames => hnames.eq (listsFirst_calls_of_at h)
    · rintro rfl
      exact listsFirst_calls_of_at h
  · intro e names
    rw [Cursor.walk_of_iff, Cursor.foldl_note]

namespace Trial

/-- A call of a function with the arguments given. -/
def call (function : Tree) (arguments : List Tree) : Tree :=
  branch "call_expression" [("function", 0), ("arguments", 1)]
    [function, branch "arguments" [] arguments]

/-- A member of a value. -/
def member (object : Tree) (property : String) : Tree :=
  branch "member_expression" [("object", 0), ("property", 1)]
    [object, leaf "property_identifier" property]

/-- The call `f(x.g(), f(), import(h), x.k()())`. -/
def nested : Tree :=
  call (leaf "identifier" "f")
    [call (member (leaf "identifier" "x") "g") [], call (leaf "identifier" "f") [],
     call (leaf "import" "import") [leaf "identifier" "h"],
     call (call (member (leaf "identifier" "x") "k") []) []]

/-- A program that calls before and after it as well. -/
def program : Tree :=
  branch "program" [] [call (leaf "identifier" "k") [], nested, call (leaf "identifier" "after") []]

theorem calls_nested : program.at? [1] = some nested ∧
    ListsFirst Tree.Before (fun p name => [1] <+: p ∧ Extract.CallAt program p name) ["f", "g", "k"] ∧
    Cursor.Walk (.of nested) [] (.of nested) ["f", "g", "k"] := by
  have hat : program.at? [1] = some nested := rfl
  have hcalls : ["f", "g", "k"] = Extract.calls nested := by decide +kernel
  obtain ⟨hlists, hwalk⟩ := Extract.calls_exact hat
  exact ⟨hat, (hlists _).mpr hcalls, (hwalk _ _).mpr ⟨rfl, hcalls⟩⟩

end Trial

end CodeAtlas
