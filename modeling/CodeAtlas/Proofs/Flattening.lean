/-
# What a record stores of nested properties

A record stores the leaves of properties and of further data: the values that are neither null nor an
object, each under the names that lead to it, joined by underscores. Different names can join to one key,
as `a`, `b` and `a_b` do, and then the last leaf is stored. Which one is the last is said without the
steps of the traversal: a leaf of the further data comes after every property, and of two leaves of one
part the one whose first different name is greater (`Record.Place.Precedes`). That is the order of the
traversal wherever the names of each object ascend (`Json.Ascending`), and in every value that is read from
a document they do (`Document.ascending_of_json?`).

So a record is described by its leaves alone (`Record.flattens_flatten`). A record of a record is the record
itself, since what is stored has no leaves below it.

Key definitions: `Json.Leads`, `Json.IsLeaf`, `Json.IsScalar`, `Json.Ascending`, `Record.Place`,
`Record.LeafAt`, `Record.LastAt`, `Record.Flattens`.
Key theorems: `Json.mem_ends`, `Json.ascending_ends`, `Record.flatten_eq_writes`,
`Record.get?_flatten_iff`, `Record.flatten_eq_self_iff`, `Record.flattens_flatten`.
-/
import CodeAtlas.Json.Document
import CodeAtlas.Proofs.SortedMap
import CodeAtlas.Store.Record
import Mathlib.Data.String.Basic

namespace CodeAtlas

namespace Json

/-- The names lead from a value, through its objects, to another. -/
inductive Leads : Json → List String → Json → Prop
  | nil (v : Json) : Leads v [] v
  | cons {fields : List (String × Json)} {name : String} {child v : Json} {path : List String} :
      (name, child) ∈ fields → Leads child path v → Leads (.object fields) (name :: path) v

/-- Something is stored for the value itself: it is neither null nor an object. -/
def IsLeaf : Json → Prop
  | .null | .object _ => False
  | .bool _ | .number _ | .string _ | .array _ => True

/-- The value is a text, a number or a truth value. -/
def IsScalar : Json → Prop
  | .bool _ | .number _ | .string _ => True
  | .null | .array _ | .object _ => False

/-- The names of every object that names lead to ascend. -/
def Ascending (v : Json) : Prop :=
  ∀ path fields, v.Leads path (.object fields) → fields.Pairwise fun a b => a.1 < b.1

theorem leads_object_iff {fields : List (String × Json)} {path : List String} {v : Json} :
    (Json.object fields).Leads path v ↔
      path = [] ∧ v = .object fields ∨
        ∃ name child rest, path = name :: rest ∧ (name, child) ∈ fields ∧ child.Leads rest v := by
  constructor
  · intro h
    cases h with
    | nil => exact .inl ⟨rfl, rfl⟩
    | cons hmem hrest => exact .inr ⟨_, _, _, rfl, hmem, hrest⟩
  · rintro (⟨rfl, rfl⟩ | ⟨name, child, rest, rfl, hmem, hrest⟩)
    · exact .nil _
    · exact .cons hmem hrest

/-- From a value that is no object, names lead nowhere else. -/
theorem leads_iff_of_ne_object {v w : Json} {path : List String} (h : ∀ fields, v ≠ .object fields) :
    v.Leads path w ↔ path = [] ∧ w = v := by
  constructor
  · intro hl
    cases hl with
    | nil => exact ⟨rfl, rfl⟩
    | cons => exact absurd rfl (h _)
  · rintro ⟨rfl, rfl⟩
    exact .nil _

theorem ascending_object_iff {fields : List (String × Json)} : (Json.object fields).Ascending ↔
    fields.Pairwise (fun a b => a.1 < b.1) ∧ ∀ f ∈ fields, f.2.Ascending := by
  constructor
  · intro h
    exact ⟨h [] fields (.nil _), fun f hf path fields' hl => h (f.1 :: path) fields' (.cons hf hl)⟩
  · rintro ⟨hfields, hbelow⟩ path fields' hl
    obtain ⟨_, he⟩ | ⟨name, child, rest, _, hmem, hrest⟩ := leads_object_iff.mp hl
    · cases he
      exact hfields
    · exact hbelow (name, child) hmem rest fields' hrest

theorem ascending_of_ne_object {v : Json} (h : ∀ fields, v ≠ .object fields) : v.Ascending := by
  intro path fields hl
  obtain ⟨_, he⟩ := (leads_iff_of_ne_object h).mp hl
  exact absurd he.symm (h fields)

/-! ### The leaves in order -/

mutual

/-- The leaves of a value, each with the names that lead to it, in the order of the traversal. -/
def ends : Json → List (List String × Json)
  | .null => []
  | .object fields => fieldEnds fields
  | .array items => [([], .array items)]
  | .bool b => [([], .bool b)]
  | .number n => [([], .number n)]
  | .string s => [([], .string s)]

/-- The leaves below the fields of an object. -/
def fieldEnds : List (String × Json) → List (List String × Json)
  | [] => []
  | (name, value) :: rest => (ends value).map (fun e => (name :: e.1, e.2)) ++ fieldEnds rest

end

mutual

/-- The leaves that are listed are those that names lead to. -/
theorem mem_ends : ∀ {v leaf : Json} {path : List String},
    (path, leaf) ∈ ends v ↔ v.Leads path leaf ∧ leaf.IsLeaf
  | .null, leaf, path => by
    rw [leads_iff_of_ne_object (by simp), ends]
    simp +contextual [IsLeaf]
  | .object fields, leaf, path => by
    rw [ends, mem_fieldEnds, leads_object_iff]
    constructor
    · rintro ⟨h, hleaf⟩
      exact ⟨.inr h, hleaf⟩
    · rintro ⟨⟨_, rfl⟩ | h, hleaf⟩
      · exact hleaf.elim
      · exact ⟨h, hleaf⟩
  | .array items, leaf, path | .bool b, leaf, path | .number n, leaf, path
  | .string s, leaf, path => by
    rw [leads_iff_of_ne_object (by simp), ends]
    simp +contextual [IsLeaf]

theorem mem_fieldEnds : ∀ {fields : List (String × Json)} {leaf : Json} {path : List String},
    (path, leaf) ∈ fieldEnds fields ↔
      (∃ name child rest, path = name :: rest ∧ (name, child) ∈ fields ∧ child.Leads rest leaf) ∧
        leaf.IsLeaf
  | [], leaf, path => by simp [fieldEnds]
  | (name, value) :: fields, leaf, path => by
    rw [fieldEnds, List.mem_append, mem_fieldEnds, List.mem_map]
    constructor
    · rintro (⟨⟨rest, leaf'⟩, he, heq⟩ | ⟨⟨name', child, rest, rfl, hmem, hl⟩, hleaf⟩)
      · cases heq
        obtain ⟨hl, hleaf⟩ := mem_ends.mp he
        exact ⟨⟨name, value, rest, rfl, List.mem_cons_self, hl⟩, hleaf⟩
      · exact ⟨⟨name', child, rest, rfl, List.mem_cons_of_mem _ hmem, hl⟩, hleaf⟩
    · rintro ⟨⟨name', child, rest, rfl, hmem, hl⟩, hleaf⟩
      obtain heq | hmem := List.mem_cons.mp hmem
      · cases heq
        exact .inl ⟨(rest, leaf), mem_ends.mpr ⟨hl, hleaf⟩, rfl⟩
      · exact .inr ⟨⟨name', child, rest, rfl, hmem, hl⟩, hleaf⟩

end

mutual

/-- Where names ascend, the leaves are listed in the order of the names that lead to them. -/
theorem ascending_ends : ∀ {v : Json}, v.Ascending → (ends v).Pairwise fun a b => a.1 < b.1
  | .null, _ => by simp [ends]
  | .object fields, h => by
    obtain ⟨hfields, hbelow⟩ := ascending_object_iff.mp h
    rw [ends]
    exact ascending_fieldEnds hfields hbelow
  | .array _, _ | .bool _, _ | .number _, _ | .string _, _ => by simp [ends]

theorem ascending_fieldEnds : ∀ {fields : List (String × Json)},
    fields.Pairwise (fun a b => a.1 < b.1) → (∀ f ∈ fields, f.2.Ascending) →
      (fieldEnds fields).Pairwise fun a b => a.1 < b.1
  | [], _, _ => by simp [fieldEnds]
  | (name, value) :: fields, hfields, hbelow => by
    obtain ⟨hfirst, hrest⟩ := List.pairwise_cons.mp hfields
    have hvalue := ascending_ends (hbelow (name, value) List.mem_cons_self)
    have hlater := ascending_fieldEnds hrest fun f hf => hbelow f (List.mem_cons_of_mem _ hf)
    rw [fieldEnds, List.pairwise_append, List.pairwise_map]
    refine ⟨hvalue.imp fun hlt => List.cons_lt_cons_iff.mpr (.inr ⟨rfl, hlt⟩), hlater, ?_⟩
    -- leaves of different fields are told apart by their first names
    intro a ha b hb
    obtain ⟨e, _, rfl⟩ := List.mem_map.mp ha
    obtain ⟨path, leaf⟩ := b
    obtain ⟨⟨name', child, rest, rfl, hmem, _⟩, _⟩ := mem_fieldEnds.mp hb
    exact List.cons_lt_cons_iff.mpr (.inl (hfirst (name', child) hmem))

end

end Json

/-! ### Values that are read -/

/-- The names of a map ascend, so its object does if its values do. -/
theorem Json.ascending_ofProperties {p : Properties} (h : ∀ f ∈ p.entries, f.2.Ascending) :
    (Json.ofProperties p).Ascending :=
  ascending_object_iff.mpr ⟨p.ascending.imp compare_lt_iff_lt.mp, h⟩

theorem Json.ascending_ofList {fields : List (String × Json)} (h : ∀ f ∈ fields, f.2.Ascending) :
    (Json.ofProperties (.ofList fields)).Ascending :=
  ascending_ofProperties fun f hf =>
    h f (SortedMap.mem_of_get?_ofList (SortedMap.get?_of_mem_entries hf))

namespace Document

mutual

/-- The names ascend in every value that is read from a document. -/
theorem ascending_of_json? : ∀ {d : Document} {depth : Nat} {v : Json},
    json? depth d = some v → v.Ascending
  | .null, _, _, h | .bool _, _, _, h => by
    cases h
    exact Json.ascending_of_ne_object (by simp)
  | .number _, _, _, h | .text _, _, _, h => by
    obtain ⟨_, _, rfl⟩ := Option.map_eq_some_iff.mp h
    exact Json.ascending_of_ne_object (by simp)
  | .list items, depth, _, h => by
    rw [json?] at h
    split at h
    · cases h
    · obtain ⟨_, _, rfl⟩ := Option.map_eq_some_iff.mp h
      exact Json.ascending_of_ne_object (by simp)
  | .record fields, depth, _, h => by
    rw [json?] at h
    split at h
    · cases h
    · obtain ⟨fs, hfs, rfl⟩ := Option.map_eq_some_iff.mp h
      exact Json.ascending_ofList (ascending_of_jsonFields? hfs)

theorem ascending_of_jsonFields? : ∀ {ds : List (Option String × Document)} {depth : Nat}
    {fs : List (String × Json)}, jsonFields? depth ds = some fs → ∀ f ∈ fs, f.2.Ascending
  | [], _, fs, h => by
    cases h
    simp
  | (none, d) :: ds, depth, fs, h => by
    cases h
  | (some key, d) :: ds, depth, fs, h => by
    unfold jsonFields? at h
    split at h
    · rename_i hv hvs
      cases h
      intro f hf
      obtain rfl | hf := List.mem_cons.mp hf
      · exact ascending_of_json? hv
      · exact ascending_of_jsonFields? hvs f hf
    · cases h

end

theorem ascending_of_properties? {d : Document} {depth : Nat} {p : Properties}
    (h : properties? depth d = some p) : (Json.ofProperties p).Ascending := by
  cases d with
  | record fields =>
    rw [properties?] at h
    split at h
    · cases h
    · obtain ⟨fs, hfs, rfl⟩ := Option.map_eq_some_iff.mp h
      exact Json.ascending_ofList (ascending_of_jsonFields? hfs)
  | null | bool | number | text | list => cases h

end Document

namespace Record

/-! ### Places and keys -/

/-- Where a leaf stands: among the properties or in the further data, and which names lead to it. -/
structure Place where
  further : Bool
  path : List String

namespace Place

/-- The key that a leaf is stored under. -/
def key (p : Place) : String :=
  Text.join "_" (if p.further then metadataTag :: p.path else p.path)

/-- The properties come before the further data, and in each the names are compared in turn. -/
def Precedes (a b : Place) : Prop :=
  a.further = false ∧ b.further = true ∨ a.further = b.further ∧ a.path < b.path

theorem Precedes.asymm {a b : Place} (h : a.Precedes b) : ¬ b.Precedes a := by
  obtain ⟨ha, hb⟩ | ⟨he, hlt⟩ := h
  · rintro (⟨hb', _⟩ | ⟨he, _⟩)
    · simp [hb] at hb'
    · simp [ha, hb] at he
  · rintro (⟨hb', ha'⟩ | ⟨_, hlt'⟩)
    · simp [ha', hb'] at he
    · exact List.lt_asymm hlt hlt'

end Place

/-- What is stored for a leaf: a list as its text, and any other leaf as it is. -/
def stored : Json → Json
  | .array items => .string (Json.array items).compact
  | v => v

section Leaves

variable (properties metadata : Properties)

/-- A leaf of properties or of further data stands at the place. -/
def LeafAt (place : Place) (leaf : Json) : Prop :=
  (Json.ofProperties (if place.further then metadata else properties)).Leads place.path leaf ∧
    leaf.IsLeaf

/-- The last leaf of a key: any other leaf of that key stands before it. -/
structure LastAt (key : String) (place : Place) (leaf : Json) : Prop where
  leafAt : LeafAt properties metadata place leaf
  key_eq : place.key = key
  last : ∀ place' leaf', LeafAt properties metadata place' leaf' → place'.key = key →
    place' = place ∨ place'.Precedes place

/-- All leaves with their places, in the order in which they are written. -/
def placed : List (Place × Json) :=
  (Json.ends (.ofProperties properties)).map (fun e => (⟨false, e.1⟩, e.2)) ++
    (Json.ends (.ofProperties metadata)).map fun e => (⟨true, e.1⟩, e.2)

end Leaves

variable {properties metadata : Properties}

theorem mem_placed {e : Place × Json} :
    e ∈ placed properties metadata ↔ LeafAt properties metadata e.1 e.2 := by
  obtain ⟨⟨further, path⟩, leaf⟩ := e
  unfold placed LeafAt
  cases further with
  | false => simp [Json.mem_ends]
  | true => simp [Json.mem_ends]

theorem pairwise_placed (hp : (Json.ofProperties properties).Ascending)
    (hm : (Json.ofProperties metadata).Ascending) :
    (placed properties metadata).Pairwise fun a b => a.1.Precedes b.1 := by
  unfold placed
  rw [List.pairwise_append, List.pairwise_map, List.pairwise_map]
  refine ⟨(Json.ascending_ends hp).imp fun h => .inr ⟨rfl, h⟩,
    (Json.ascending_ends hm).imp fun h => .inr ⟨rfl, h⟩, ?_⟩
  intro a ha b hb
  obtain ⟨_, _, rfl⟩ := List.mem_map.mp ha
  obtain ⟨_, _, rfl⟩ := List.mem_map.mp hb
  exact .inl ⟨rfl, rfl⟩

/-! ### What is written -/

mutual

theorem leaves_eq_map_ends : ∀ (key : String) (v : Json),
    leaves key v = (Json.ends v).map fun e => (Text.join "_" (key :: e.1), stored e.2)
  | _, .null | _, .array _ | _, .bool _ | _, .number _ | _, .string _ => by rfl
  | key, .object fields => by rw [leaves, Json.ends, fieldLeaves_eq_map_ends]

theorem fieldLeaves_eq_map_ends : ∀ (key : String) (fields : List (String × Json)),
    fieldLeaves key fields =
      (Json.fieldEnds fields).map fun e => (Text.join "_" (key :: e.1), stored e.2)
  | _, [] => rfl
  | key, (child, value) :: rest => by
    rw [fieldLeaves, Json.fieldEnds, List.map_append, List.map_map, leaves_eq_map_ends,
      fieldLeaves_eq_map_ends]
    rfl

end

theorem flatMap_leaves_eq_map_ends : ∀ fields : List (String × Json),
    (fields.flatMap fun e => leaves e.1 e.2) =
      (Json.fieldEnds fields).map fun e => (Text.join "_" e.1, stored e.2)
  | [] => rfl
  | (name, value) :: rest => by
    rw [List.flatMap_cons, flatMap_leaves_eq_map_ends rest, leaves_eq_map_ends, Json.fieldEnds,
      List.map_append, List.map_map]
    rfl

theorem flatMap_leaves_childKey (key : String) : ∀ fields : List (String × Json),
    (fields.flatMap fun e => leaves (childKey key e.1) e.2) = fieldLeaves key fields
  | [] => rfl
  | (name, value) :: rest => by
    rw [List.flatMap_cons, flatMap_leaves_childKey key rest, fieldLeaves]

/-- A record is written leaf by leaf, each at its key. -/
theorem flatten_eq_writes (properties metadata : Properties) : flatten properties metadata =
    SortedMap.writes (fun e => e.1.key) (fun e => stored e.2) .empty (placed properties metadata) := by
  have hleaves : propertyLeaves properties ++ metadataLeaves metadata =
      (placed properties metadata).map fun e => (e.1.key, stored e.2) := by
    rw [propertyLeaves, metadataLeaves, flatMap_leaves_eq_map_ends, flatMap_leaves_childKey,
      fieldLeaves_eq_map_ends, placed, List.map_append, List.map_map, List.map_map]
    rfl
  rw [flatten, hleaves, SortedMap.ofList, List.foldl_map]
  rfl

theorem get?_flatten (key : String) : (flatten properties metadata).get? key =
    ((placed properties metadata).reverse.find? fun e => e.1.key = key).map fun e => stored e.2 := by
  rw [flatten_eq_writes, SortedMap.get?_writes, SortedMap.get?_empty, Option.or_none]

/-- In a list in order, what is found from the end comes after everything else that is looked for. -/
theorem eq_or_of_find?_reverse {α : Type} {R : α → α → Prop} {l : List α} (h : l.Pairwise R)
    {p : α → Bool} {a b : α} (hfound : l.reverse.find? p = some a) (hb : b ∈ l) (hpb : p b = true) :
    b = a ∨ R b a := by
  obtain ⟨_, later, earlier, hl, hlater⟩ := List.find?_eq_some_iff_append.mp hfound
  rw [List.reverse_eq_append_iff, List.reverse_cons, List.append_assoc, List.singleton_append] at hl
  rw [hl, List.pairwise_append] at h
  rw [hl, List.mem_append, List.mem_cons, List.mem_reverse, List.mem_reverse] at hb
  obtain hb | rfl | hb := hb
  · exact .inr (h.2.2 b (List.mem_reverse.mpr hb) a List.mem_cons_self)
  · exact .inl rfl
  · have hnot := hlater b hb
    simp [hpb] at hnot

/-- Of the leaves of a key, the one found is the one that all others stand before. -/
theorem find?_placed_iff (hp : (Json.ofProperties properties).Ascending)
    (hm : (Json.ofProperties metadata).Ascending) {key : String} {place : Place} {leaf : Json} :
    ((placed properties metadata).reverse.find? fun e => e.1.key = key) = some (place, leaf) ↔
      LastAt properties metadata key place leaf := by
  have horder := pairwise_placed hp hm
  constructor
  · intro hfound
    have hmem := List.mem_reverse.mp (List.mem_of_find?_eq_some hfound)
    have hkey : place.key = key := by simpa using List.find?_some hfound
    refine ⟨mem_placed.mp hmem, hkey, fun place' leaf' hleaf' hkey' => ?_⟩
    exact (eq_or_of_find?_reverse (b := (place', leaf')) horder hfound (mem_placed.mpr hleaf')
      (by simpa using hkey')).imp_left (congrArg Prod.fst)
  · rintro ⟨hleaf, hkey, hlast⟩
    have hlisted : (place, leaf) ∈ placed properties metadata := mem_placed.mpr hleaf
    cases hfind : (placed properties metadata).reverse.find? fun e => e.1.key = key with
    | none =>
      have hnot := List.find?_eq_none.mp hfind (place, leaf) (List.mem_reverse.mpr hlisted)
      simp [hkey] at hnot
    | some e =>
      have hmem := List.mem_reverse.mp (List.mem_of_find?_eq_some hfind)
      have hkey' : e.1.key = key := by simpa using List.find?_some hfind
      obtain heq | hbefore := eq_or_of_find?_reverse horder hfind hlisted (by simpa using hkey)
      · rw [heq]
      · -- what is found would stand behind the leaf that nothing stands behind
        obtain heq | hbehind := hlast e.1 e.2 (mem_placed.mp hmem) hkey'
        · rw [heq] at hbefore
          exact absurd hbefore hbefore.asymm
        · exact absurd hbefore hbehind.asymm

/-- What is stored at a key is what is stored for the last leaf of that key. -/
theorem get?_flatten_iff (hp : (Json.ofProperties properties).Ascending)
    (hm : (Json.ofProperties metadata).Ascending) {key : String} {v : Json} :
    (flatten properties metadata).get? key = some v ↔
      ∃ place leaf, LastAt properties metadata key place leaf ∧ stored leaf = v := by
  rw [get?_flatten, Option.map_eq_some_iff]
  constructor
  · rintro ⟨⟨place, leaf⟩, hfound, rfl⟩
    exact ⟨place, leaf, (find?_placed_iff hp hm).mp hfound, rfl⟩
  · rintro ⟨place, leaf, hlast, rfl⟩
    exact ⟨(place, leaf), (find?_placed_iff hp hm).mpr hlast, rfl⟩

/-- Something is stored at the keys of the leaves and at no others. -/
theorem mem_keys_flatten_iff {key : String} : key ∈ (flatten properties metadata).keys ↔
    ∃ place leaf, LeafAt properties metadata place leaf ∧ place.key = key := by
  rw [SortedMap.mem_keys, SortedMap.contains, get?_flatten, Option.isSome_map, List.find?_isSome]
  constructor
  · rintro ⟨e, he, hkey⟩
    exact ⟨e.1, e.2, mem_placed.mp (List.mem_reverse.mp he), by simpa using hkey⟩
  · rintro ⟨place, leaf, hleaf, hkey⟩
    exact ⟨(place, leaf), List.mem_reverse.mpr (mem_placed.mpr hleaf), by simpa using hkey⟩

theorem isScalar_stored {leaf : Json} (h : leaf.IsLeaf) : (stored leaf).IsScalar := by
  cases leaf with
  | bool | number | string | array => trivial
  | null | object => exact h.elim

theorem isScalar_of_get?_flatten {key : String} {v : Json}
    (h : (flatten properties metadata).get? key = some v) : v.IsScalar := by
  rw [get?_flatten, Option.map_eq_some_iff] at h
  obtain ⟨e, hfound, rfl⟩ := h
  have hmem := List.mem_reverse.mp (List.mem_of_find?_eq_some hfound)
  exact isScalar_stored (mem_placed.mp hmem).2

/-! ### Records of records -/

/-- Every value of the map is a text, a number or a truth value. -/
def AllScalar (p : Properties) : Prop := ∀ {key v}, p.get? key = some v → v.IsScalar

theorem leaves_of_isScalar (key : String) {v : Json} (h : v.IsScalar) : leaves key v = [(key, v)] := by
  cases v with
  | bool | number | string => rfl
  | null | array | object => exact h.elim

/-- Properties are their own record exactly if they are not nested and hold no null and no list. -/
theorem flatten_eq_self_iff {p : Properties} : flatten p .empty = p ↔ AllScalar p := by
  constructor
  · intro h key v hv
    rw [← h] at hv
    exact isScalar_of_get?_flatten hv
  · intro h
    have hleaves : propertyLeaves p = p.entries := by
      have heach : ∀ e ∈ p.entries, leaves e.1 e.2 = [e] := fun e he =>
        leaves_of_isScalar e.1 (h (SortedMap.get?_of_mem_entries he))
      rw [propertyLeaves, List.flatMap_congr heach, List.flatMap_singleton' p.entries]
    rw [flatten, hleaves]
    exact (congrArg SortedMap.ofList (List.append_nil _)).trans (SortedMap.ofList_entries p)

/-- What a record stores of properties and further data: only texts, numbers and truth values, at the keys
of all leaves and at no others, and at each key the last leaf. Taken as properties, it is its own record. -/
structure Flattens (properties metadata record : Properties) : Prop where
  scalar : ∀ {key v}, record.get? key = some v → v.IsScalar
  mem_keys : ∀ key, key ∈ record.keys ↔
    ∃ place leaf, LeafAt properties metadata place leaf ∧ place.key = key
  last : (Json.ofProperties properties).Ascending → (Json.ofProperties metadata).Ascending →
    ∀ key v, record.get? key = some v ↔
      ∃ place leaf, LastAt properties metadata key place leaf ∧ stored leaf = v
  again : flatten record .empty = record

/-- Flattening stores what a record stores, whatever the properties and the further data are. -/
theorem flattens_flatten (properties metadata : Properties) :
    Flattens properties metadata (flatten properties metadata) where
  scalar := isScalar_of_get?_flatten
  mem_keys _ := mem_keys_flatten_iff
  last hp hm _ _ := get?_flatten_iff hp hm
  again := flatten_eq_self_iff.mpr isScalar_of_get?_flatten

end Record

namespace Trial

/-- Properties two of which have the key `a_b`, and of which others are null, a list and an empty object. -/
def meeting : Properties :=
  .ofList
    [("a", .object [("b", .nat 1), ("c", .array [.bool true, .null])]), ("a_b", .nat 2), ("n", .null),
     ("metadata", .object [("a", .string "p")]), ("o", .object [])]

/-- Further data under the empty name, and under one that meets a property. -/
def meetingFurther : Properties := .ofList [("", .bool false), ("a", .string "m")]

/-- At `a_b` the property of that name is last, since `a` comes before it; at `metadata_a` the further data
are; and the list at `a_c` is stored as its text. -/
theorem flattens_meeting : (Json.ofProperties meeting).Ascending ∧
    (Json.ofProperties meetingFurther).Ascending ∧
    (∃ place leaf, Record.LastAt meeting meetingFurther "a_b" place leaf ∧
      Record.stored leaf = .nat 2) ∧
    (∃ place leaf, Record.LastAt meeting meetingFurther "metadata_a" place leaf ∧
      Record.stored leaf = .string "m") ∧
    ∃ place leaf, Record.LastAt meeting meetingFurther "a_c" place leaf ∧
      Record.stored leaf = .string "[true,null]" := by
  have hread : Document.properties? 4 (.ofJson (.ofProperties meeting)) = some meeting := by decide
  have hfurther : Document.properties? 4 (.ofJson (.ofProperties meetingFurther)) =
      some meetingFurther := by decide
  have hp := Document.ascending_of_properties? hread
  have hm := Document.ascending_of_properties? hfurther
  have hlast := (Record.flattens_flatten meeting meetingFurther).last hp hm
  exact ⟨hp, hm, (hlast _ _).mp (by decide), (hlast _ _).mp (by decide),
    (hlast _ _).mp (by decide)⟩

end Trial

end CodeAtlas
