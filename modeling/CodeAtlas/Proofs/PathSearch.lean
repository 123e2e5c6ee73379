/-
# Shortest paths

A path is searched layer by layer. The walks of a layer go on by all relationships of the nodes they end
at, to nodes that no walk has reached, and these make the next layer. So the nodes that layer `k` ends at
are those that some chain of `k` relationships leads to and no shorter one (`Store.Layer`), the search
finds a node in the layer of its distance, and it fails only where no chain is short enough
(`Store.shortestPath_exact`).

The marks are what makes this subtle: a node is marked as reached when the first walk to it is made, not
when that walk goes on, and one pass over a layer marks nodes that it then passes by again. What the
marks and walks are after a pass is said once, for any list of moves (`Store.mem_marks_pass`,
`Store.of_mem_walks_pass`, `Store.marked_or_walk`).

The same path is found with one queue in place of the layers (`Store.searchQueue`). Each walk that is put
into the queue marks a node, so that the queue runs empty, and it holds what is left of a layer before
what is there of the next (`Store.searchQueue_layer`).

Key definitions: `Relationship.Links`, `Store.Chain`, `Store.Nearer`, `Store.Layer`, `Store.Answers`,
`Store.searchQueue`.
Key theorems: `Store.Layer.next`, `Store.answers_searchFrom`, `Store.searchQueue_eq_searchFrom`,
`Store.shortestPath_exact`.
-/
import CodeAtlas.Proofs.SortedMap
import CodeAtlas.Store.Search

namespace CodeAtlas

/-- The relationship has the two nodes as its ends, in whatever direction. -/
def Relationship.Links (r : Relationship) (a b : String) : Prop :=
  r.source = a ∧ r.target = b ∨ r.target = a ∧ r.source = b

namespace Store

variable {rs : List Relationship} {start goal : String}

/-- A chain of relationships of a graph from a node on, and the node it leads to. Each relationship has
the node that the chain led to before as an end, and its other end is where the chain leads then. -/
inductive Chain (rs : List Relationship) (start : String) : List Relationship → String → Prop
  | nil : Chain rs start [] start
  | snoc {path : List Relationship} {a b : String} {r : Relationship} :
      Chain rs start path a → r ∈ rs → r.Links a b → Chain rs start (path ++ [r]) b

/-- A node that a chain of fewer than `n` relationships leads to. -/
def Nearer (rs : List Relationship) (start : String) (n : Nat) (a : String) : Prop :=
  ∃ path, Chain rs start path a ∧ path.length < n

theorem Nearer.mono {m n : Nat} {a : String} (h : Nearer rs start m a) (hmn : m ≤ n) :
    Nearer rs start n a := by
  obtain ⟨path, hpath, hlength⟩ := h
  exact ⟨path, hpath, by omega⟩

theorem not_nearer_zero (a : String) : ¬ Nearer rs start 0 a := by
  rintro ⟨path, _, hlength⟩
  omega

theorem nearer_one_iff {a : String} : Nearer rs start 1 a ↔ a = start := by
  constructor
  · rintro ⟨path, hpath, hlength⟩
    cases hpath with
    | nil => rfl
    | snoc _ _ _ => simp at hlength
  · rintro rfl
    exact ⟨[], .nil, by simp⟩

/-- A chain of several relationships comes through a node that a chain of one less leads to. -/
theorem nearer_succ_iff {n : Nat} {b : String} : Nearer rs start (n + 2) b ↔
    Nearer rs start (n + 1) b ∨ ∃ a, Nearer rs start (n + 1) a ∧ ∃ r ∈ rs, r.Links a b := by
  constructor
  · rintro ⟨path, hpath, hlength⟩
    cases hpath with
    | nil => exact .inl ⟨[], .nil, by simp⟩
    | @snoc path a _ r hchain hr hlinks =>
      have hshorter : path.length < n + 1 := by simpa using hlength
      exact .inr ⟨a, ⟨path, hchain, hshorter⟩, r, hr, hlinks⟩
  · rintro (hb | ⟨a, ⟨path, hchain, hlength⟩, r, hr, hlinks⟩)
    · exact hb.mono (by omega)
    · refine ⟨path ++ [r], hchain.snoc hr hlinks, ?_⟩
      rw [List.length_append, List.length_singleton]
      omega

/-! ### One pass over a layer -/

theorem links_otherEnd {a : String} {r : Relationship} (h : r.source = a ∨ r.target = a) :
    r.Links a (otherEnd a r) := by
  unfold otherEnd
  by_cases hs : r.source = a
  · simp [Relationship.Links, hs]
  · have ht : r.target = a := h.resolve_left hs
    simp [Relationship.Links, hs, ht]

theorem otherEnd_of_links {a b : String} {r : Relationship} (h : r.Links a b) :
    (r.source = a ∨ r.target = a) ∧ otherEnd a r = b := by
  unfold otherEnd
  obtain ⟨hs, rfl⟩ | ⟨ht, rfl⟩ := h
  · simp [hs]
  · by_cases hs : r.source = a
    · simp [hs, ht]
    · simp [hs, ht]

/-- A walk, and a relationship by which it may go on. -/
abbrev Move := Walk × Relationship

/-- The walk that a move makes. -/
def Move.walk (m : Move) : Walk := (otherEnd m.1.1 m.2, m.1.2 ++ [m.2])

/-- The moves of the walks of a layer, in the order in which they are tried. -/
def moves (rs : List Relationship) (walks : List Walk) : List Move :=
  walks.flatMap fun walk =>
    (rs.filter fun r => r.source == walk.1 || r.target == walk.1).map fun r => (walk, r)

/-- Makes a move, unless it leads to a node that is marked. -/
def move (state : List String × List Walk) (m : Move) : List String × List Walk :=
  if state.1.contains (Move.walk m).1 then state
  else ((Move.walk m).1 :: state.1, state.2 ++ [Move.walk m])

theorem foldl_extend (rs : List Relationship) (walks : List Walk) (state : List String × List Walk) :
    walks.foldl (extend rs) state = (moves rs walks).foldl move state := by
  rw [moves, List.foldl_flatMap]
  congr 1
  funext state walk
  rw [List.foldl_map]
  rfl

theorem mem_moves {walks : List Walk} {m : Move} : m ∈ moves rs walks ↔
    m.1 ∈ walks ∧ m.2 ∈ rs ∧ (m.2.source = m.1.1 ∨ m.2.target = m.1.1) := by
  obtain ⟨walk, r⟩ := m
  simp only [moves, List.mem_flatMap, List.mem_map, List.mem_filter, Bool.or_eq_true, beq_iff_eq,
    Prod.mk.injEq]
  constructor
  · rintro ⟨_, hwalk, _, ⟨hr, hend⟩, rfl, rfl⟩
    exact ⟨hwalk, hr, hend⟩
  · rintro ⟨hwalk, hr, hend⟩
    exact ⟨walk, hwalk, r, ⟨hr, hend⟩, rfl, rfl⟩

/-- What is marked after a pass is what was marked before and what a move leads to. -/
theorem mem_marks_pass {a : String} : ∀ (ms : List Move) (state : List String × List Walk),
    a ∈ (ms.foldl move state).1 ↔ a ∈ state.1 ∨ ∃ m ∈ ms, (Move.walk m).1 = a
  | [], state => by simp
  | m :: ms, state => by
    rw [List.foldl_cons, mem_marks_pass ms, move]
    by_cases hmarked : state.1.contains (Move.walk m).1 = true
    · have hmem : (Move.walk m).1 ∈ state.1 := by simpa using hmarked
      rw [if_pos hmarked]
      constructor
      · rintro (ha | ⟨m', hm', rfl⟩)
        · exact .inl ha
        · exact .inr ⟨m', List.mem_cons_of_mem _ hm', rfl⟩
      · rintro (ha | ⟨m', hm', rfl⟩)
        · exact .inl ha
        · obtain rfl | hm' := List.mem_cons.mp hm'
          · exact .inl hmem
          · exact .inr ⟨m', hm', rfl⟩
    · rw [if_neg hmarked]
      simp [eq_comm, or_assoc, or_left_comm]

/-- A walk of a pass was there before, or a move makes it. -/
theorem of_mem_walks_pass {walk : Walk} : ∀ (ms : List Move) (state : List String × List Walk),
    walk ∈ (ms.foldl move state).2 → walk ∈ state.2 ∨ ∃ m ∈ ms, walk = Move.walk m
  | [], _, h => .inl h
  | m :: ms, state, h => by
    rw [List.foldl_cons] at h
    obtain hmoved | ⟨m', hm', he⟩ := of_mem_walks_pass ms _ h
    · unfold move at hmoved
      split at hmoved
      · exact .inl hmoved
      · obtain hold | rfl : walk ∈ state.2 ∨ walk = Move.walk m := by simpa using hmoved
        · exact .inl hold
        · exact .inr ⟨m, List.mem_cons_self, rfl⟩
    · exact .inr ⟨m', List.mem_cons_of_mem _ hm', he⟩

theorem walks_subset_pass : ∀ (ms : List Move) (state : List String × List Walk),
    state.2 ⊆ (ms.foldl move state).2
  | [], _ => List.Subset.refl _
  | m :: ms, state => by
    rw [List.foldl_cons]
    refine List.Subset.trans ?_ (walks_subset_pass ms _)
    unfold move
    split
    · exact List.Subset.refl _
    · exact List.subset_append_left _ _

/-- Whatever a pass marks anew, a walk of it ends at. -/
theorem marked_or_walk {a : String} : ∀ (ms : List Move) (state : List String × List Walk),
    a ∈ (ms.foldl move state).1 → a ∈ state.1 ∨ ∃ walk ∈ (ms.foldl move state).2, walk.1 = a
  | [], _, h => .inl h
  | m :: ms, state, h => by
    rw [List.foldl_cons] at h ⊢
    obtain hmarked | hwalk := marked_or_walk ms _ h
    · have hkept := walks_subset_pass ms (move state m)
      unfold move at hmarked hkept
      split at hmarked
      · exact .inl hmarked
      · rename_i hfree
        rw [if_neg hfree] at hkept
        obtain rfl | hold := List.mem_cons.mp hmarked
        · refine .inr ⟨Move.walk m, ?_, rfl⟩
          rw [move, if_neg hfree]
          exact hkept (by simp)
        · exact .inl hold
    · exact .inr hwalk

/-! ### Layers -/

/-- The state before layer `k` is searched: the marked nodes are those that a chain of at most `k`
relationships leads to, the walks are chains of `k` relationships, and a node that no shorter chain
leads to is the end of one of them. -/
structure Layer (rs : List Relationship) (start : String) (k : Nat) (marks : List String)
    (walks : List Walk) : Prop where
  mem_marks : ∀ a, a ∈ marks ↔ Nearer rs start (k + 1) a
  chain : ∀ walk ∈ walks, Chain rs start walk.2 walk.1 ∧ walk.2.length = k
  complete : ∀ a, Nearer rs start (k + 1) a → Nearer rs start k a ∨ ∃ walk ∈ walks, walk.1 = a

theorem layer_zero (rs : List Relationship) (start : String) :
    Layer rs start 0 [start] [(start, [])] where
  mem_marks a := by rw [nearer_one_iff, List.mem_singleton]
  chain walk hwalk := by
    obtain rfl := List.mem_singleton.mp hwalk
    exact ⟨.nil, rfl⟩
  complete a ha := by
    obtain rfl := nearer_one_iff.mp ha
    exact .inr ⟨_, List.mem_singleton_self _, rfl⟩

namespace Layer

variable {k : Nat} {marks : List String} {walks : List Walk}

/-- A walk that a move makes is a chain of one relationship more. -/
theorem chain_move (h : Layer rs start k marks walks) {m : Move} (hm : m ∈ moves rs walks) :
    Chain rs start (Move.walk m).2 (Move.walk m).1 ∧ (Move.walk m).2.length = k + 1 := by
  obtain ⟨hwalk, hr, hend⟩ := mem_moves.mp hm
  obtain ⟨hchain, hlength⟩ := h.chain m.1 hwalk
  refine ⟨hchain.snoc hr (links_otherEnd hend), ?_⟩
  rw [Move.walk, List.length_append, hlength, List.length_singleton]

/-- What a relationship links to a node in reach is in reach already, or a move leads there. -/
theorem marked_or_move (h : Layer rs start k marks walks) {a b : String} {r : Relationship}
    (ha : Nearer rs start (k + 1) a) (hr : r ∈ rs) (hlinks : r.Links a b) :
    Nearer rs start (k + 1) b ∨ ∃ m ∈ moves rs walks, (Move.walk m).1 = b := by
  obtain ⟨path, hpath, hlength⟩ | ⟨walk, hwalk, rfl⟩ := h.complete a ha
  · refine .inl ⟨path ++ [r], hpath.snoc hr hlinks, ?_⟩
    rw [List.length_append, List.length_singleton]
    omega
  · obtain ⟨hend, hother⟩ := otherEnd_of_links hlinks
    exact .inr ⟨(walk, r), mem_moves.mpr ⟨hwalk, hr, hend⟩, hother⟩

/-- A pass over a layer makes the next one. -/
theorem next (h : Layer rs start k marks walks) :
    Layer rs start (k + 1) (walks.foldl (extend rs) (marks, [])).1
      (walks.foldl (extend rs) (marks, [])).2 := by
  rw [foldl_extend]
  have hmarks : ∀ b, b ∈ ((moves rs walks).foldl move (marks, [])).1 ↔ Nearer rs start (k + 2) b := by
    intro b
    rw [mem_marks_pass, h.mem_marks, nearer_succ_iff]
    constructor
    · rintro (hb | ⟨m, hm, rfl⟩)
      · exact .inl hb
      · obtain ⟨hchain, hlength⟩ := h.chain_move hm
        exact nearer_succ_iff.mp ⟨_, hchain, by omega⟩
    · rintro (hb | ⟨a, ha, r, hr, hlinks⟩)
      · exact .inl hb
      · exact h.marked_or_move ha hr hlinks
  refine ⟨hmarks, ?_, ?_⟩
  · intro walk hwalk
    obtain hold | ⟨m, hm, rfl⟩ := of_mem_walks_pass _ _ hwalk
    · cases hold
    · exact h.chain_move hm
  · intro b hb
    obtain hmarked | hwalk := marked_or_walk _ _ ((hmarks b).mpr hb)
    · exact .inl ((h.mem_marks b).mp hmarked)
    · exact .inr hwalk

/-- A walk of the layer that ends at the goal is a shortest chain, if no earlier layer has one. -/
theorem shortest_of_find? (h : Layer rs start k marks walks) (hfar : ¬ Nearer rs start k goal)
    {walk : Walk} (hfound : walks.find? (·.1 == goal) = some walk) :
    Chain rs start walk.2 goal ∧ walk.2.length = k ∧
      ∀ other, Chain rs start other goal → walk.2.length ≤ other.length := by
  obtain ⟨hchain, hlength⟩ := h.chain walk (List.mem_of_find?_eq_some hfound)
  have hgoal : walk.1 = goal := by simpa using List.find?_some hfound
  refine ⟨hgoal ▸ hchain, hlength, fun other hother => ?_⟩
  apply Nat.le_of_not_lt
  intro hshorter
  exact hfar ⟨other, hother, by omega⟩

/-- Where no walk of the layer ends at the goal, the goal is further away. -/
theorem not_nearer_of_find? (h : Layer rs start k marks walks) (hfar : ¬ Nearer rs start k goal)
    (hnone : walks.find? (·.1 == goal) = none) : ¬ Nearer rs start (k + 1) goal := by
  intro hnear
  obtain hnear | ⟨walk, hwalk, hgoal⟩ := h.complete goal hnear
  · exact hfar hnear
  · have hne := List.find?_eq_none.mp hnone walk hwalk
    simp [hgoal] at hne

end Layer

/-! ### The search -/

/-- The right answers to the search for a chain of fewer than `n` relationships: a shortest chain, where
there is one as short as that, and none otherwise. -/
structure Answers (rs : List Relationship) (start goal : String) (n : Nat)
    (answer : Option (List Relationship)) : Prop where
  isSome_iff : answer.isSome ↔ Nearer rs start n goal
  shortest : ∀ path, answer = some path → Chain rs start path goal ∧
    ∀ other, Chain rs start other goal → path.length ≤ other.length

theorem answers_of_find? {k n : Nat} {marks : List String} {walks : List Walk} {walk : Walk}
    (h : Layer rs start k marks walks) (hfar : ¬ Nearer rs start k goal) (hn : k < n)
    (hfound : walks.find? (·.1 == goal) = some walk) : Answers rs start goal n (some walk.2) := by
  obtain ⟨hchain, hlength, hleast⟩ := h.shortest_of_find? hfar hfound
  have hnear : Nearer rs start n goal := ⟨walk.2, hchain, by omega⟩
  refine ⟨by simp [hnear], ?_⟩
  rintro _ ⟨⟩
  exact ⟨hchain, hleast⟩

theorem answers_none {n : Nat} (h : ¬ Nearer rs start n goal) : Answers rs start goal n none :=
  ⟨by simp [h], by rintro _ ⟨⟩⟩

/-- From layer `k` on, where no earlier layer reached the goal, the search gives a right answer. The
induction is on the layers that are left. -/
theorem answers_searchFrom : ∀ (hops : Nat) {k : Nat} {marks : List String} {walks : List Walk},
    Layer rs start k marks walks → ¬ Nearer rs start k goal →
      Answers rs start goal (k + hops + 1) (searchFrom rs goal hops marks walks) := by
  intro hops
  induction hops with
  | zero =>
    intro k marks walks h hfar
    unfold searchFrom
    cases hfind : walks.find? (·.1 == goal) with
    | some walk => exact answers_of_find? h hfar (by omega) hfind
    | none => exact answers_none (h.not_nearer_of_find? hfar hfind)
  | succ hops ih =>
    intro k marks walks h hfar
    unfold searchFrom
    cases hfind : walks.find? (·.1 == goal) with
    | some walk => exact answers_of_find? h hfar (by omega) hfind
    | none =>
      have hlater := ih h.next (h.not_nearer_of_find? hfar hfind)
      rwa [show k + 1 + hops + 1 = k + (hops + 1) + 1 by omega] at hlater

theorem answers_shortestPath? (rs : SortedMap String Relationship) (start goal : String) :
    Answers rs.values start goal 7 (shortestPath? rs start goal) :=
  answers_searchFrom maxPathHops (layer_zero rs.values start) (not_nearer_zero goal)

/-! ### One queue

The walks need not be kept layer by layer. With one queue, of which the first walk is taken out and
behind which the walks that go on from it are put, the walks of a layer are still taken out before those
of the next. -/

/-- The nodes that relationships have as their ends. -/
def endNodes (rs : List Relationship) : List String := rs.flatMap fun r => [r.source, r.target]

/-- The number of ends that are not marked. -/
def unmarked (rs : List Relationship) (marks : List String) : Nat :=
  ((endNodes rs).filter fun a => !marks.contains a).length

theorem otherEnd_mem_endNodes {a : String} {r : Relationship} (hr : r ∈ rs) :
    otherEnd a r ∈ endNodes rs := by
  refine List.mem_flatMap.mpr ⟨r, hr, ?_⟩
  unfold otherEnd
  split <;> simp

theorem unmarked_cons_lt {a : String} {marks : List String} (ha : a ∈ endNodes rs)
    (hfree : marks.contains a = false) : unmarked rs (a :: marks) < unmarked rs marks := by
  have hfilter : (endNodes rs).filter (fun b => !(a :: marks).contains b) =
      ((endNodes rs).filter fun b => !marks.contains b).filter fun b => !(b == a) := by
    rw [List.filter_filter]
    refine List.filter_congr fun b _ => ?_
    rw [List.contains_cons, Bool.not_or]
  rw [unmarked, hfilter]
  refine List.length_filter_lt_length_iff_exists.mpr ⟨a, ?_, by simp⟩
  exact List.mem_filter.mpr ⟨ha, by rw [hfree]; rfl⟩

/-- Each walk that is put behind marks a node. -/
theorem unmarked_add_length_pass : ∀ (ms : List Move) (state : List String × List Walk),
    (∀ m ∈ ms, m.2 ∈ rs) →
      unmarked rs (ms.foldl move state).1 + (ms.foldl move state).2.length ≤
        unmarked rs state.1 + state.2.length
  | [], _, _ => Nat.le_refl _
  | m :: ms, state, h => by
    rw [List.foldl_cons]
    refine Nat.le_trans
      (unmarked_add_length_pass ms _ fun m' hm' => h m' (List.mem_cons_of_mem _ hm')) ?_
    unfold move
    split
    · exact Nat.le_refl _
    · rename_i hfree
      have hend : (Move.walk m).1 ∈ endNodes rs := otherEnd_mem_endNodes (h m List.mem_cons_self)
      have hless := unmarked_cons_lt hend (by simpa using hfree)
      change unmarked rs ((Move.walk m).1 :: state.1) + (state.2 ++ [Move.walk m]).length ≤ _
      rw [List.length_append, List.length_singleton]
      omega

theorem extend_eq_pass (rs : List Relationship) (state : List String × List Walk) (walk : Walk) :
    extend rs state walk = (moves rs [walk]).foldl move state :=
  foldl_extend rs [walk] state

theorem unmarked_add_length_extend (rs : List Relationship) (marks : List String)
    (queue : List Walk) (walk : Walk) :
    unmarked rs (extend rs (marks, queue) walk).1 + (extend rs (marks, queue) walk).2.length ≤
      unmarked rs marks + queue.length := by
  rw [extend_eq_pass]
  exact unmarked_add_length_pass _ _ fun m hm => (mem_moves.mp hm).2.1

/-- The path of the first walk of the queue that ends at the goal. A walk that does not end there goes
on, unless it is as long as a path may be. -/
def searchQueue (rs : List Relationship) (goal : String) :
    List String → List Walk → Option (List Relationship)
  | _, [] => none
  | marks, walk :: queue =>
    if walk.1 == goal then some walk.2
    else if maxPathHops ≤ walk.2.length then searchQueue rs goal marks queue
    else searchQueue rs goal (extend rs (marks, queue) walk).1 (extend rs (marks, queue) walk).2
termination_by marks queue => unmarked rs marks + queue.length
decreasing_by
  · rw [List.length_cons]
    omega
  · have := unmarked_add_length_extend rs marks queue walk
    rw [List.length_cons]
    omega

theorem pass_append (walks : List Walk) : ∀ (ms : List Move) (marks : List String)
    (next : List Walk), ms.foldl move (marks, walks ++ next) =
      ((ms.foldl move (marks, next)).1, walks ++ (ms.foldl move (marks, next)).2)
  | [], _, _ => rfl
  | m :: ms, marks, next => by
    rw [List.foldl_cons, List.foldl_cons, move, move]
    split
    · exact pass_append walks ms marks next
    · rw [List.append_assoc]
      exact pass_append walks ms _ _

theorem extend_append (rs : List Relationship) (walks : List Walk) (marks : List String)
    (next : List Walk) (walk : Walk) : extend rs (marks, walks ++ next) walk =
      ((extend rs (marks, next) walk).1, walks ++ (extend rs (marks, next) walk).2) := by
  rw [extend_eq_pass, extend_eq_pass]
  exact pass_append walks _ marks next

/-- The walks that can go no further are looked at one after the other. -/
theorem searchQueue_last (marks : List String) : ∀ {walks : List Walk},
    (∀ walk ∈ walks, walk.2.length = maxPathHops) →
      searchQueue rs goal marks walks = (walks.find? (·.1 == goal)).map (·.2)
  | [], _ => by rw [searchQueue]; rfl
  | walk :: walks, h => by
    rw [searchQueue, List.find?_cons]
    have hlong : maxPathHops ≤ walk.2.length := Nat.le_of_eq (h walk List.mem_cons_self).symm
    by_cases hgoal : (walk.1 == goal) = true
    · rw [if_pos hgoal, hgoal]
      rfl
    · rw [if_neg hgoal, if_pos hlong, Bool.eq_false_iff.mpr hgoal]
      exact searchQueue_last marks fun w hw => h w (List.mem_cons_of_mem _ hw)

/-- The walks of a layer are taken out before those of the next one, which start out as `next`. -/
theorem searchQueue_layer {k : Nat} (hk : k < maxPathHops) : ∀ {walks : List Walk}
    (marks : List String) (next : List Walk), (∀ walk ∈ walks, walk.2.length = k) →
      searchQueue rs goal marks (walks ++ next) =
        match walks.find? (·.1 == goal) with
        | some walk => some walk.2
        | none => searchQueue rs goal (walks.foldl (extend rs) (marks, next)).1
            (walks.foldl (extend rs) (marks, next)).2
  | [], _, _, _ => rfl
  | walk :: walks, marks, next, h => by
    rw [List.cons_append, searchQueue, List.find?_cons]
    have hshort : ¬ maxPathHops ≤ walk.2.length := by
      rw [h walk List.mem_cons_self]
      omega
    by_cases hgoal : (walk.1 == goal) = true
    · rw [if_pos hgoal, hgoal]
    · rw [if_neg hgoal, if_neg hshort, Bool.eq_false_iff.mpr hgoal, extend_append, List.foldl_cons]
      exact searchQueue_layer hk _ _ fun w hw => h w (List.mem_cons_of_mem _ hw)

theorem length_of_mem_foldl_extend {k : Nat} {walks : List Walk} {marks : List String}
    (h : ∀ walk ∈ walks, walk.2.length = k) :
    ∀ walk ∈ (walks.foldl (extend rs) (marks, [])).2, walk.2.length = k + 1 := by
  intro walk hwalk
  rw [foldl_extend] at hwalk
  obtain hold | ⟨m, hm, rfl⟩ := of_mem_walks_pass _ _ hwalk
  · cases hold
  · rw [Move.walk, List.length_append, h m.1 (mem_moves.mp hm).1, List.length_singleton]

/-- From a layer on, the queue and the layers find the same. The induction is on the layers that are
left. -/
theorem searchQueue_eq_searchFrom : ∀ (hops : Nat) {k : Nat} {marks : List String} {walks : List Walk},
    k + hops = maxPathHops → (∀ walk ∈ walks, walk.2.length = k) →
      searchQueue rs goal marks walks = searchFrom rs goal hops marks walks := by
  intro hops
  induction hops with
  | zero =>
    intro k marks walks hk h
    rw [searchQueue_last marks fun walk hwalk => (h walk hwalk).trans hk]
    unfold searchFrom
    cases walks.find? (·.1 == goal) <;> rfl
  | succ hops ih =>
    intro k marks walks hk h
    rw [← List.append_nil walks, searchQueue_layer (by omega : k < maxPathHops) marks [] h,
      List.append_nil]
    unfold searchFrom
    cases walks.find? (·.1 == goal) with
    | some walk => rfl
    | none => exact ih (by omega) (length_of_mem_foldl_extend h)

/-- The search with one queue finds the path that the search by layers finds. -/
theorem searchQueue_eq_shortestPath? (rs : SortedMap String Relationship) (start goal : String) :
    searchQueue rs.values goal [start] [(start, [])] = shortestPath? rs start goal :=
  searchQueue_eq_searchFrom maxPathHops (Nat.zero_add _) (by simp)

/-- A path between two nodes is found exactly if a chain of at most six relationships of the graph leads
from one to the other. What is found is such a chain, and no chain between the two is shorter; and it is
what a search with one queue finds. -/
theorem shortestPath_exact (rs : SortedMap String Relationship) (start goal : String) :
    ((shortestPath? rs start goal).isSome ↔
        ∃ path, Chain rs.values start path goal ∧ path.length ≤ 6) ∧
      (∀ path, shortestPath? rs start goal = some path →
        Chain rs.values start path goal ∧
          ∀ other, Chain rs.values start other goal → path.length ≤ other.length) ∧
      searchQueue rs.values goal [start] [(start, [])] = shortestPath? rs start goal := by
  have h := answers_shortestPath? rs start goal
  refine ⟨h.isSome_iff.trans ?_, h.shortest, searchQueue_eq_shortestPath? rs start goal⟩
  simp only [Nearer, Nat.lt_succ_iff]

end Store

end CodeAtlas
