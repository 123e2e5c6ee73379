/-
# Lookups in maps built entry by entry

What `get?` finds in a map made by writing a list of entries in turn, in a union, and in the lists
of keys and values. The last entry written for a key counts (`SortedMap.get?_writes`), so writing the
entries of a map into the empty map gives the map back (`SortedMap.ofList_entries`). Where entries are
written under new keys, each new key has the value of the one it stands for (`SortedMap.get?_renamed`).
In the ascending keys a key is found by halving (`SortedMap.halving_iff`).

Key definitions: `SortedMap.writes`, `SortedMap.renamed`, `SortedMap.halving`.
Key theorems: `SortedMap.get?_writes`, `SortedMap.get?_union`, `SortedMap.ofList_entries`,
`SortedMap.mem_values`, `SortedMap.mem_keys`, `SortedMap.nodup_keys`, `SortedMap.get?_renamed`.
-/
import CodeAtlas.SortedMap

namespace CodeAtlas.SortedMap

set_option linter.unusedSectionVars false

variable {κ α β : Type} [Ord κ] [Std.TransOrd κ] [Std.LawfulEqOrd κ]

theorem compare_eq_iff {a b : κ} : compare a b = .eq ↔ a = b :=
  ⟨Std.LawfulEqCmp.eq_of_compare, fun h => h ▸ Std.ReflCmp.compare_self⟩

theorem get?_insert_eq [DecidableEq κ] (m : SortedMap κ α) (k q : κ) (v : α) :
    (m.insert k v).get? q = if q = k then some v else m.get? q := by
  rw [get?_insert]
  by_cases h : q = k
  · rw [if_pos h, if_pos (compare_eq_iff.mpr h)]
  · rw [if_neg h, if_neg fun e => h (compare_eq_iff.mp e)]

theorem get?_erase_eq [DecidableEq κ] (m : SortedMap κ α) (k q : κ) :
    (m.erase k).get? q = if k = q then none else m.get? q := by
  rw [get?_erase]
  by_cases h : k = q
  · rw [if_pos h, if_pos (compare_eq_iff.mpr h)]
  · rw [if_neg h, if_neg fun e => h (compare_eq_iff.mp e)]

/-! ### Keys and values -/

theorem contains_iff {m : SortedMap κ α} {k : κ} :
    m.contains k = true ↔ ∃ v, m.get? k = some v := Option.isSome_iff_exists

theorem contains_eq_false_iff {m : SortedMap κ α} {k : κ} :
    m.contains k = false ↔ m.get? k = none := Option.isSome_eq_false_iff.trans Option.isNone_iff_eq_none

theorem contains_of_get? {m : SortedMap κ α} {k : κ} {v : α} (h : m.get? k = some v) :
    m.contains k = true := contains_iff.mpr ⟨v, h⟩

theorem contains_insert [DecidableEq κ] {m : SortedMap κ α} {k q : κ} {v : α} :
    (m.insert k v).contains q = true ↔ q = k ∨ m.contains q = true := by
  rw [contains_iff, contains_iff, get?_insert_eq]
  by_cases h : q = k
  · simp [h]
  · simp [h]

theorem mem_values {m : SortedMap κ α} {v : α} : v ∈ m.values ↔ ∃ k, m.get? k = some v := by
  simp only [values, List.mem_map, get?_eq_some_iff]
  exact ⟨fun ⟨e, he, h⟩ => ⟨e.1, h ▸ he⟩, fun ⟨k, h⟩ => ⟨(k, v), h, rfl⟩⟩

theorem mem_keys {m : SortedMap κ α} {k : κ} : k ∈ m.keys ↔ m.contains k = true := by
  simp only [keys, List.mem_map, contains_iff, get?_eq_some_iff]
  exact ⟨fun ⟨e, he, h⟩ => ⟨e.2, h ▸ he⟩, fun ⟨v, h⟩ => ⟨(k, v), h, rfl⟩⟩

theorem isEmpty_iff {m : SortedMap κ α} : m.isEmpty = true ↔ ∀ k, m.get? k = none := by
  rw [isEmpty, List.isEmpty_iff]
  constructor
  · intro h k
    simp [get?, h, lookup]
  · intro h
    cases hm : m.entries with
    | nil => rfl
    | cons e rest =>
      have := get?_eq_some_iff.mpr (hm ▸ List.mem_cons_self : (e.1, e.2) ∈ m.entries)
      rw [h] at this
      cases this

theorem mem_keys_filter {p : κ → α → Bool} {m : SortedMap κ α} {k : κ} :
    k ∈ (m.filter p).keys ↔ ∃ v, m.get? k = some v ∧ p k v = true := by
  simp only [mem_keys, contains_iff, get?_filter, Option.filter_eq_some_iff]

theorem filter_eq_self {p : κ → α → Bool} {m : SortedMap κ α}
    (h : ∀ {k v}, m.get? k = some v → p k v = true) : m.filter p = m := by
  refine ext_get? fun k => ?_
  rw [get?_filter]
  cases hk : m.get? k with
  | none => rfl
  | some v => rw [Option.filter_some, if_pos (h hk)]

theorem filter_eq_empty {p : κ → α → Bool} {m : SortedMap κ α}
    (h : ∀ {k v}, m.get? k = some v → p k v = false) : m.filter p = empty := by
  refine ext_get? fun k => ?_
  rw [get?_filter, get?_empty]
  cases hk : m.get? k with
  | none => rfl
  | some v => rw [Option.filter_some, h hk, if_neg Bool.false_ne_true]

theorem nodup_keys (m : SortedMap κ α) : m.keys.Nodup := by
  rw [keys, List.Nodup, List.pairwise_map]
  refine m.ascending.imp fun {a b} h e => ?_
  have : compare b.1 b.1 = .eq := Std.ReflCmp.compare_self
  rw [e, this] at h
  cases h

/-- Where the values tell their keys, they stand in the order of what they tell. -/
theorem map_values {m : SortedMap κ α} {key : α → κ} (h : ∀ {k v}, m.get? k = some v → key v = k) :
    m.values.map key = m.keys := by
  rw [values, keys, List.map_map]
  exact List.map_congr_left fun e he => h (get?_eq_some_iff.mpr he)

theorem values_filter (p : α → Bool) (m : SortedMap κ α) :
    (m.filter fun _ v => p v).values = m.values.filter p := by
  rw [values, values, filter, List.filter_map]
  rfl

/-! ### Maps written entry by entry -/

/-- The elements of `l` written into a map in turn, each at its key. -/
def writes (key : β → κ) (value : β → α) (m : SortedMap κ α) (l : List β) : SortedMap κ α :=
  l.foldl (fun m b => m.insert (key b) (value b)) m

/-- The last element written at a key counts; a key that nothing is written at is as before. -/
theorem get?_writes [DecidableEq κ] (key : β → κ) (value : β → α) (q : κ) :
    ∀ (l : List β) (m : SortedMap κ α), (writes key value m l).get? q =
      ((l.reverse.find? fun b => key b = q).map value).or (m.get? q)
  | [], m => by simp [writes]
  | b :: l, m => by
    have ih := get?_writes key value q l (m.insert (key b) (value b))
    rw [show writes key value m (b :: l) = writes key value (m.insert (key b) (value b)) l from rfl, ih,
      get?_insert_eq, List.reverse_cons, List.find?_append]
    cases l.reverse.find? fun b => key b = q with
    | some c => simp
    | none =>
      by_cases h : q = key b
      · simp [h]
      · simp [h, Ne.symm h]

theorem get?_writes_of_not_mem [DecidableEq κ] {key : β → κ} {value : β → α} {q : κ} {l : List β}
    {m : SortedMap κ α} (h : ∀ b ∈ l, key b ≠ q) : (writes key value m l).get? q = m.get? q := by
  rw [get?_writes, List.find?_eq_none.mpr]
  · rfl
  · intro b hb
    simpa using h b (List.mem_reverse.mp hb)

/-- Where all elements written at a key have the same value, that value is found there. -/
theorem get?_writes_of_mem [DecidableEq κ] {key : β → κ} {value : β → α} {q : κ} {l : List β}
    {m : SortedMap κ α} {b : β} (hb : b ∈ l) (hq : key b = q)
    (h : ∀ c ∈ l, key c = q → value c = value b) : (writes key value m l).get? q = some (value b) := by
  rw [get?_writes]
  cases hf : l.reverse.find? fun b => key b = q with
  | none => exact absurd hq (by simpa using List.find?_eq_none.mp hf b (List.mem_reverse.mpr hb))
  | some c =>
    have hc := List.mem_reverse.mp (List.mem_of_find?_eq_some hf)
    have hk : key c = q := by simpa using List.find?_some hf
    simp [h c hc hk]

/-- What is found at a key that was written at was written there. -/
theorem exists_of_get?_writes [DecidableEq κ] {key : β → κ} {value : β → α} {q : κ} {l : List β}
    {m : SortedMap κ α} {v : α} (hq : ∃ b ∈ l, key b = q) (h : (writes key value m l).get? q = some v) :
    ∃ b ∈ l, key b = q ∧ value b = v := by
  rw [get?_writes] at h
  cases hf : l.reverse.find? fun b => key b = q with
  | none =>
    obtain ⟨b, hb, hk⟩ := hq
    exact absurd hk (by simpa using List.find?_eq_none.mp hf b (List.mem_reverse.mpr hb))
  | some b =>
    rw [hf] at h
    exact ⟨b, List.mem_reverse.mp (List.mem_of_find?_eq_some hf), by simpa using List.find?_some hf,
      Option.some.inj h⟩

theorem ofList_eq_writes (l : List (κ × α)) : ofList l = writes Prod.fst Prod.snd empty l := rfl

theorem union_eq_writes (m other : SortedMap κ α) :
    m.union other = writes Prod.fst Prod.snd m other.entries := rfl

theorem get?_of_mem_entries {m : SortedMap κ α} {e : κ × α} (h : e ∈ m.entries) :
    m.get? e.1 = some e.2 := get?_eq_some_iff.mpr h

theorem get?_union [DecidableEq κ] (m other : SortedMap κ α) (k : κ) :
    (m.union other).get? k = (other.get? k).or (m.get? k) := by
  rw [union_eq_writes]
  cases h : other.get? k with
  | none =>
    refine get?_writes_of_not_mem fun e he hk => ?_
    have := get?_of_mem_entries he
    rw [hk, h] at this
    cases this
  | some v =>
    have he := get?_eq_some_iff.mp h
    refine get?_writes_of_mem (b := (k, v)) he rfl fun c hc hk => ?_
    have := get?_of_mem_entries hc
    rw [hk, h] at this
    exact (Option.some.inj this).symm

theorem contains_union [DecidableEq κ] {m other : SortedMap κ α} {k : κ} :
    (m.union other).contains k = true ↔ other.contains k = true ∨ m.contains k = true := by
  rw [contains_iff, contains_iff, contains_iff, get?_union]
  cases other.get? k with
  | none => simp
  | some v => simp

/-- A map is what its entries write into the empty map. -/
theorem ofList_entries [DecidableEq κ] (m : SortedMap κ α) : ofList m.entries = m := by
  refine ext_get? fun k => ?_
  rw [ofList_eq_writes, ← union_eq_writes, get?_union, get?_empty, Option.or_none]

theorem mem_of_get?_ofList [DecidableEq κ] {l : List (κ × α)} {k : κ} {v : α}
    (h : (ofList l).get? k = some v) : (k, v) ∈ l := by
  rw [ofList_eq_writes, get?_writes, get?_empty, Option.or_none, Option.map_eq_some_iff] at h
  obtain ⟨e, he, rfl⟩ := h
  have hk : e.1 = k := by simpa using List.find?_some he
  exact hk ▸ List.mem_reverse.mp (List.mem_of_find?_eq_some he)

/-! ### Maps of lists -/

theorem get?_ofList [DecidableEq κ] (l : List (κ × α)) (k : κ) :
    (ofList l).get? k = (l.reverse.find? fun e => e.1 = k).map Prod.snd := by
  rw [ofList_eq_writes, get?_writes, get?_empty, Option.or_none]

theorem ofList_concat (l : List (κ × α)) (e : κ × α) :
    ofList (l ++ [e]) = (ofList l).insert e.1 e.2 := by
  rw [ofList, List.foldl_append]
  rfl

theorem get?_ofList_append [DecidableEq κ] (l l' : List (κ × α)) (k : κ) :
    (ofList (l ++ l')).get? k = ((ofList l').get? k).or ((ofList l).get? k) := by
  rw [get?_ofList, get?_ofList, get?_ofList, List.reverse_append, List.find?_append, Option.map_or]

section Renamed

variable [DecidableEq κ] {g : κ → Option κ} {k a : κ}

/-- The entries under new keys, those that get none left out. -/
def renamed (g : κ → Option κ) (l : List (κ × α)) : List (κ × α) :=
  l.filterMap fun e => (g e.1).map fun b => (b, e.2)

omit [DecidableEq κ] in
theorem ofList_renamed_concat (g : κ → Option κ) (l : List (κ × α)) (e : κ × α) :
    ofList (renamed g (l ++ [e])) =
      ((g e.1).map fun b => (ofList (renamed g l)).insert b e.2).getD (ofList (renamed g l)) := by
  rw [renamed, List.filterMap_append, List.filterMap_cons, List.filterMap_nil]
  cases g e.1 with
  | none => exact congrArg ofList (List.append_nil _)
  | some b => exact ofList_concat _ _

/-- A new key has the value of the one key that it stands for. -/
theorem get?_renamed (hg : ∀ b, g b = some k ↔ b = a) (l : List (κ × α)) :
    (ofList (renamed g l)).get? k = (ofList l).get? a := by
  have hfind : (fun e : κ × α => ((g e.1).map fun b => (b, e.2)).any fun e => e.1 = k) =
      fun e => decide (e.1 = a) := by
    funext e
    have he := hg e.1
    cases hge : g e.1 with
    | none => simpa [hge] using he
    | some b => simpa [hge] using he
  rw [get?_ofList, get?_ofList, renamed, ← List.filterMap_reverse, List.find?_filterMap, hfind]
  cases hfound : l.reverse.find? fun e => e.1 = a with
  | none => rfl
  | some e =>
    have he : e.1 = a := by simpa using List.find?_some hfound
    simp [(hg e.1).mpr he]

theorem get?_renamed_of_ne (hg : ∀ b, g b ≠ some k) (l : List (κ × α)) :
    (ofList (renamed g l)).get? k = none := by
  rw [get?_ofList, List.find?_eq_none.mpr]
  · rfl
  · intro e he
    obtain ⟨e', _, he'⟩ := List.mem_filterMap.mp (List.mem_reverse.mp he)
    obtain ⟨b, hb, rfl⟩ := Option.map_eq_some_iff.mp he'
    rw [decide_eq_true_eq]
    rintro rfl
    exact hg e'.1 hb

end Renamed

/-! ### Halving -/

/-- Whether the key is in an ascending list: the middle is looked at, and then only the side on which
the key would be. -/
def halving (k : κ) (l : List κ) : Bool :=
  match _hl : l.drop (l.length / 2) with
  | [] => false
  | middle :: above =>
    match compare k middle with
    | .lt => halving k (l.take (l.length / 2))
    | .eq => true
    | .gt => halving k above
termination_by l.length
decreasing_by
  all_goals
    have hlength := congrArg List.length _hl
    rw [List.length_drop, List.length_cons] at hlength
  · rw [List.length_take]
    omega
  · omega

theorem halving_iff {k : κ} {l : List κ} (h : l.Pairwise fun a b => compare a b = .lt) :
    halving k l = true ↔ k ∈ l := by
  fun_induction halving k l with
  | case1 l hl =>
    have hshort := List.drop_eq_nil_iff.mp hl
    have hempty : l = [] := List.length_eq_zero_iff.mp (by omega)
    simp [hempty]
  | case2 l middle above hl hlt ih =>
    have hsplit : l.take (l.length / 2) ++ middle :: above = l := hl ▸ List.take_append_drop _ l
    have hmem : k ∈ l ↔ k ∈ l.take (l.length / 2) ∨ k = middle ∨ k ∈ above := by
      rw [← List.mem_cons, ← List.mem_append, hsplit]
    rw [← hsplit, List.pairwise_append, List.pairwise_cons] at h
    -- what stands above the middle comes after the key
    have hne : k ≠ middle := fun e => by simp [compare_eq_iff.mpr e] at hlt
    have hnot : k ∉ above := fun hk => by
      have hgt := Std.OrientedCmp.gt_of_lt (h.2.1.1 k hk)
      simp [hlt] at hgt
    rw [ih h.1, hmem]
    simp only [hne, hnot, or_false]
  | case3 l middle above hl heq =>
    have hmiddle : middle ∈ l := List.mem_of_mem_drop (hl ▸ List.mem_cons_self)
    simp [compare_eq_iff.mp heq, hmiddle]
  | case4 l middle above hl hgt ih =>
    have hsplit : l.take (l.length / 2) ++ middle :: above = l := hl ▸ List.take_append_drop _ l
    have hmem : k ∈ l ↔ k ∈ l.take (l.length / 2) ∨ k = middle ∨ k ∈ above := by
      rw [← List.mem_cons, ← List.mem_append, hsplit]
    rw [← hsplit, List.pairwise_append, List.pairwise_cons] at h
    have hne : k ≠ middle := fun e => by simp [compare_eq_iff.mpr e] at hgt
    have hnot : k ∉ l.take (l.length / 2) := fun hk => by
      simp [h.2.2 k hk middle List.mem_cons_self] at hgt
    rw [ih h.2.1.2, hmem]
    simp only [hne, hnot, false_or]

theorem ascending_keys (m : SortedMap κ α) : m.keys.Pairwise fun a b => compare a b = .lt :=
  List.pairwise_map.mpr m.ascending

end CodeAtlas.SortedMap
