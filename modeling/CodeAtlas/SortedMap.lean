/-
# Finite maps in ascending key order

A `SortedMap κ α` is the list of its entries with strictly ascending keys, so it has one entry per
key, and two maps that look up alike are equal (`SortedMap.ext_get?`). Writing, erasing, filtering and
changing values are each described by what they do to the lookup `get?`.

Key definitions: `SortedMap`, `SortedMap.get?`, `SortedMap.insert`, `SortedMap.erase`,
`SortedMap.filter`, `SortedMap.mapValues`, `SortedMap.ofList`.
Key theorems: `SortedMap.get?_eq_some_iff`, `SortedMap.get?_insert`, `SortedMap.get?_erase`,
`SortedMap.get?_filter`, `SortedMap.get?_mapValues`, `SortedMap.ext_get?`.
-/

namespace CodeAtlas

/-- A finite map as the list of its entries, the keys strictly ascending. -/
structure SortedMap (κ α : Type) [Ord κ] where
  entries : List (κ × α)
  ascending : entries.Pairwise fun a b => compare a.1 b.1 = .lt

namespace SortedMap

variable {κ α β : Type} [Ord κ]

theorem ext_entries : ∀ {a b : SortedMap κ α}, a.entries = b.entries → a = b
  | ⟨_, _⟩, ⟨_, _⟩, rfl => rfl

instance [DecidableEq κ] [DecidableEq α] : DecidableEq (SortedMap κ α) := fun a b =>
  if h : a.entries = b.entries then isTrue (ext_entries h) else isFalse fun e => h (e ▸ rfl)

/-- The map without entries. -/
def empty : SortedMap κ α := ⟨[], .nil⟩

instance : Inhabited (SortedMap κ α) := ⟨empty⟩

/-- The value of the first entry whose key compares equal to `k`. -/
def lookup (k : κ) : List (κ × α) → Option α
  | [] => none
  | (k', v) :: rest => if compare k k' = .eq then some v else lookup k rest

/-- The value at `k`, if there is one. -/
def get? (m : SortedMap κ α) (k : κ) : Option α := lookup k m.entries

/-- Whether there is a value at `k`. -/
def contains (m : SortedMap κ α) (k : κ) : Bool := (m.get? k).isSome

/-- The keys, ascending. -/
def keys (m : SortedMap κ α) : List κ := m.entries.map Prod.fst

/-- The values, in the order of their keys. -/
def values (m : SortedMap κ α) : List α := m.entries.map Prod.snd

/-- The number of entries. -/
def size (m : SortedMap κ α) : Nat := m.entries.length

/-- Whether there is no entry. -/
def isEmpty (m : SortedMap κ α) : Bool := m.entries.isEmpty

/-- The entries whose key and value satisfy `p`. -/
def filter (p : κ → α → Bool) (m : SortedMap κ α) : SortedMap κ α :=
  ⟨m.entries.filter fun e => p e.1 e.2, m.ascending.filter _⟩

/-- The map without the key `k`. -/
def erase (m : SortedMap κ α) (k : κ) : SortedMap κ α :=
  m.filter fun k' _ => compare k k' != .eq

/-- Every value changed by `f`, the keys kept. -/
def mapValues (f : κ → α → β) (m : SortedMap κ α) : SortedMap κ β :=
  ⟨m.entries.map fun e => (e.1, f e.1 e.2), by
    rw [List.pairwise_map]; exact m.ascending⟩

/-- The entries with `v` written at `k`. -/
def put (k : κ) (v : α) : List (κ × α) → List (κ × α)
  | [] => [(k, v)]
  | (k', v') :: rest =>
    match compare k k' with
    | .lt => (k, v) :: (k', v') :: rest
    | .eq => (k, v) :: rest
    | .gt => (k', v') :: put k v rest

theorem mem_put {k : κ} {v : α} {e : κ × α} {l : List (κ × α)} (h : e ∈ put k v l) :
    e = (k, v) ∨ e ∈ l := by
  fun_induction put k v l <;> grind

section Lawful

set_option linter.unusedSectionVars false

variable [Std.TransOrd κ] [Std.LawfulEqOrd κ]

theorem ascending_put {k : κ} {v : α} {l : List (κ × α)}
    (h : l.Pairwise fun a b => compare a.1 b.1 = .lt) :
    (put k v l).Pairwise fun a b => compare a.1 b.1 = .lt := by
  fun_induction put k v l with
  | case1 => simp
  | case2 k' v' rest hlt =>
    refine List.pairwise_cons.mpr ⟨fun e he => ?_, h⟩
    rcases List.mem_cons.mp he with rfl | he
    · exact hlt
    · exact Std.TransCmp.lt_trans hlt ((List.pairwise_cons.mp h).1 e he)
  | case3 k' v' rest heq =>
    have hk : k = k' := Std.LawfulEqCmp.eq_of_compare heq
    subst hk
    exact List.pairwise_cons.mpr ⟨(List.pairwise_cons.mp h).1, (List.pairwise_cons.mp h).2⟩
  | case4 k' v' rest hgt ih =>
    refine List.pairwise_cons.mpr ⟨fun e he => ?_, ih (List.pairwise_cons.mp h).2⟩
    rcases mem_put he with rfl | he
    · exact Std.OrientedCmp.lt_of_gt hgt
    · exact (List.pairwise_cons.mp h).1 e he

/-- The map with `v` written at `k`. -/
def insert (m : SortedMap κ α) (k : κ) (v : α) : SortedMap κ α :=
  ⟨put k v m.entries, ascending_put m.ascending⟩

/-- The map that holds for each key the last value the list gives it. -/
def ofList (l : List (κ × α)) : SortedMap κ α :=
  l.foldl (fun m e => m.insert e.1 e.2) empty

/-- Every entry of `other` written over `m`. -/
def union (m other : SortedMap κ α) : SortedMap κ α :=
  other.entries.foldl (fun m e => m.insert e.1 e.2) m

theorem lookup_eq_none_of_lt {k : κ} {l : List (κ × α)} (h : ∀ e ∈ l, compare k e.1 = .lt) :
    lookup k l = none := by
  induction l with
  | nil => rfl
  | cons e rest ih =>
    have he := h e List.mem_cons_self
    simp only [lookup, he, reduceCtorEq, if_false]
    exact ih fun e' he' => h e' (List.mem_cons_of_mem _ he')

theorem lookup_put {k q : κ} {v : α} {l : List (κ × α)}
    (h : l.Pairwise fun a b => compare a.1 b.1 = .lt) :
    lookup q (put k v l) = if compare q k = .eq then some v else lookup q l := by
  fun_induction put k v l with
  | case1 => simp [lookup]
  | case2 k' v' rest hlt => simp [lookup]
  | case3 k' v' rest heq =>
    have hk : k = k' := Std.LawfulEqCmp.eq_of_compare heq
    subst hk
    simp only [lookup]
    split <;> rfl
  | case4 k' v' rest hgt ih =>
    simp only [lookup, ih (List.pairwise_cons.mp h).2]
    by_cases hq : compare q k = .eq
    · have hqk : q = k := Std.LawfulEqCmp.eq_of_compare hq
      subst hqk
      simp [hgt]
    · simp [hq]

theorem get?_eq_some_iff {m : SortedMap κ α} {k : κ} {v : α} :
    m.get? k = some v ↔ (k, v) ∈ m.entries := by
  obtain ⟨l, h⟩ := m
  simp only [get?]
  induction l with
  | nil => simp [lookup]
  | cons e rest ih =>
    obtain ⟨k', v'⟩ := e
    have hr := (List.pairwise_cons.mp h).1
    simp only [lookup, List.mem_cons, Prod.mk.injEq]
    by_cases hk : compare k k' = .eq
    · have hkk : k = k' := Std.LawfulEqCmp.eq_of_compare hk
      subst hkk
      simp only [hk, if_true, Option.some.injEq, true_and]
      refine ⟨fun e => .inl e.symm, ?_⟩
      rintro (rfl | hm)
      · rfl
      · have := hr _ hm
        simp_all
    · simp only [hk, if_false, ih (List.pairwise_cons.mp h).2]
      refine ⟨.inr, ?_⟩
      rintro (⟨rfl, _⟩ | hm)
      · exact absurd Std.ReflCmp.compare_self hk
      · exact hm

@[simp] theorem get?_empty (k : κ) : (empty : SortedMap κ α).get? k = none := rfl

theorem get?_insert (m : SortedMap κ α) (k q : κ) (v : α) :
    (m.insert k v).get? q = if compare q k = .eq then some v else m.get? q :=
  lookup_put m.ascending

@[simp] theorem get?_insert_self (m : SortedMap κ α) (k : κ) (v : α) :
    (m.insert k v).get? k = some v := by
  rw [get?_insert, if_pos Std.ReflCmp.compare_self]

theorem get?_insert_of_ne (m : SortedMap κ α) {k q : κ} (v : α) (h : q ≠ k) :
    (m.insert k v).get? q = m.get? q := by
  rw [get?_insert, if_neg fun e => h (Std.LawfulEqCmp.eq_of_compare e)]

theorem get?_filter (p : κ → α → Bool) (m : SortedMap κ α) (k : κ) :
    (m.filter p).get? k = (m.get? k).filter (p k) := by
  apply Option.ext
  intro v
  rw [get?_eq_some_iff, filter, List.mem_filter, Option.filter_eq_some_iff, get?_eq_some_iff]

theorem get?_erase (m : SortedMap κ α) (k q : κ) :
    (m.erase k).get? q = if compare k q = .eq then none else m.get? q := by
  rw [erase, get?_filter]
  by_cases h : compare k q = .eq
  · simp only [h, if_true]
    cases m.get? q <;> simp [Option.filter]
  · simp only [h, if_false]
    cases m.get? q <;> simp [Option.filter, h]

theorem get?_mapValues (f : κ → α → β) (m : SortedMap κ α) (k : κ) :
    (m.mapValues f).get? k = (m.get? k).map (f k) := by
  obtain ⟨l, h⟩ := m
  simp only [get?, mapValues]
  clear h
  induction l with
  | nil => rfl
  | cons e rest ih =>
    simp only [List.map_cons, lookup]
    by_cases hk : compare k e.1 = .eq
    · have hkk : k = e.1 := Std.LawfulEqCmp.eq_of_compare hk
      simp [hkk]
    · simp [hk, ih]

/-- Two ascending lists that look up alike are equal. -/
theorem eq_of_lookup_eq {l l' : List (κ × α)}
    (h : l.Pairwise fun a b => compare a.1 b.1 = .lt)
    (h' : l'.Pairwise fun a b => compare a.1 b.1 = .lt)
    (e : ∀ k, lookup k l = lookup k l') : l = l' := by
  induction l generalizing l' with
  | nil =>
    cases l' with
    | nil => rfl
    | cons b bs => have := e b.1; simp [lookup] at this
  | cons a as ih =>
    cases l' with
    | nil => have := e a.1; simp [lookup] at this
    | cons b bs =>
      have ha := List.pairwise_cons.mp h
      have hb := List.pairwise_cons.mp h'
      have low : ∀ {x y : κ × α} {ys : List (κ × α)}, (∀ z ∈ ys, compare y.1 z.1 = .lt) →
          compare x.1 y.1 = .lt → lookup x.1 (y :: ys) = none := by
        intro x y ys hys hxy
        refine lookup_eq_none_of_lt fun z hz => ?_
        rcases List.mem_cons.mp hz with rfl | hz
        · exact hxy
        · exact Std.TransCmp.lt_trans hxy (hys z hz)
      have hab : compare a.1 b.1 = .eq := by
        cases hc : compare a.1 b.1 with
        | eq => rfl
        | lt =>
          have := e a.1
          rw [low hb.1 hc] at this
          simp [lookup] at this
        | gt =>
          have := e b.1
          rw [low ha.1 (Std.OrientedCmp.lt_of_gt hc)] at this
          simp [lookup] at this
      have hk : a.1 = b.1 := Std.LawfulEqCmp.eq_of_compare hab
      have hv : a.2 = b.2 := by
        have := e a.1
        simp only [lookup, hab, Std.ReflCmp.compare_self, if_true, Option.some.injEq] at this
        exact this
      have hs : as = bs := by
        refine ih ha.2 hb.2 fun k => ?_
        have := e k
        simp only [lookup, hk] at this
        by_cases hkb : compare k b.1 = .eq
        · have hkb' : k = b.1 := Std.LawfulEqCmp.eq_of_compare hkb
          subst hkb'
          rw [lookup_eq_none_of_lt fun z hz => hb.1 z hz,
            lookup_eq_none_of_lt fun z hz => hk ▸ ha.1 z hz]
        · simpa [hkb] using this
      rw [hs, show a = b from Prod.ext hk hv]

/-- Maps that look up alike are equal. -/
theorem ext_get? {m m' : SortedMap κ α} (h : ∀ k, m.get? k = m'.get? k) : m = m' :=
  ext_entries (eq_of_lookup_eq m.ascending m'.ascending h)

end Lawful

end SortedMap

end CodeAtlas
