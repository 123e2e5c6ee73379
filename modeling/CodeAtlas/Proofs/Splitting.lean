/-
# Records split back into properties and further data

A row stores properties and further data side by side, the further data under keys that begin with
`metadata_`, and writes an envelope of its own over both: the id, the kind and the name of a node, or the
ids of a relationship and of its ends. Splitting leaves the envelope out and tells the two apart by their
keys alone. It can only be mistaken about properties: the tag in front of a key is taken off again, so
that further data come back whatever their keys are, empty ones included, and they never are of an envelope.

So properties and further data come back as they were stored exactly if no key that is stored for the
properties is of the envelope or begins with the tag, and they come back unchanged exactly if moreover
there was nothing to flatten in them (`Record.rows_split_back`).

Key definitions: `Record.Enveloped`, `Record.Clear`, `Record.SplitsBack`.
Key theorems: `Record.get?_flatten_tagged`, `Record.get?_flatten_untagged`, `Record.split_eq_renamed`,
`Record.Enveloped.split_eq_iff`, `Record.Enveloped.split_eq_self_iff`, `Record.rows_split_back`.
-/
import CodeAtlas.Proofs.Flattening
import Mathlib.Data.List.Induction

namespace CodeAtlas

namespace Text

theorem dropStart?_eq_some_iff {start s rest : String} :
    dropStart? start s = some rest ↔ s = start ++ rest := by
  unfold dropStart? beginsWith
  constructor
  · intro h
    split at h
    · rename_i hstart
      obtain ⟨cs, hcs⟩ := List.isPrefixOf_iff_prefix.mp hstart
      rw [Option.some.injEq, ← hcs, List.drop_left] at h
      rw [← String.toList_inj, String.toList_append, ← h, String.toList_ofList, hcs]
    · cases h
  · rintro rfl
    rw [String.toList_append, if_pos (List.isPrefixOf_iff_prefix.mpr (List.prefix_append _ _)),
      List.drop_left, String.ofList_toList]

theorem dropStart?_eq_none_iff {start s : String} :
    dropStart? start s = none ↔ beginsWith start s = false := by
  simp [dropStart?]

theorem beginsWith_append (start rest : String) : beginsWith start (start ++ rest) = true := by
  by_contra hnot
  have hnone := dropStart?_eq_none_iff.mpr (Bool.eq_false_of_not_eq_true hnot)
  rw [dropStart?_eq_some_iff.mpr rfl] at hnone
  cases hnone

end Text

namespace Record

/-! ### The two parts of a record -/

/-- What is added in front of the first name stands in front of the key. -/
theorem join_append (front : String) : ∀ (path : List String) (name : String),
    Text.join "_" ((front ++ name) :: path) = front ++ Text.join "_" (name :: path)
  | [], _ => rfl
  | child :: path, name => by
    have hchild : childKey (front ++ name) child = front ++ childKey name child := by
      simp only [childKey, String.append_assoc]
    show Text.join "_" (childKey (front ++ name) child :: path) =
      front ++ Text.join "_" (childKey name child :: path)
    rw [hchild, join_append]

theorem leaves_append (front key : String) (v : Json) :
    leaves (front ++ key) v = (leaves key v).map fun e => (front ++ e.1, e.2) := by
  rw [leaves_eq_map_ends, leaves_eq_map_ends, List.map_map]
  exact List.map_congr_left fun e _ => by rw [join_append]; rfl

/-- The leaves of further data are those of properties, the tag in front of their keys. -/
theorem metadataLeaves_eq_renamed (m : Properties) : metadataLeaves m =
    SortedMap.renamed (fun key => some ("metadata_" ++ key)) (propertyLeaves m) := by
  have hleaves : metadataLeaves m = (propertyLeaves m).map fun e => ("metadata_" ++ e.1, e.2) := by
    rw [metadataLeaves, propertyLeaves, List.map_flatMap]
    exact congrArg (m.entries.flatMap ·) (funext fun e => leaves_append "metadata_" e.1 e.2)
  rw [hleaves, ← List.filterMap_eq_map]
  rfl

variable {properties metadata : Properties}

theorem flatten_eq_ofList (p : Properties) : flatten p .empty = .ofList (propertyLeaves p) :=
  congrArg SortedMap.ofList (List.append_nil _)

/-- Under a key with the tag in front a record has what the further data give, or else a property. -/
theorem get?_flatten_tagged (key : String) :
    (flatten properties metadata).get? ("metadata_" ++ key) =
      ((flatten metadata .empty).get? key).or ((flatten properties .empty).get? ("metadata_" ++ key)) := by
  have hname : ∀ b, some ("metadata_" ++ b) = some ("metadata_" ++ key) ↔ b = key := by simp
  rw [flatten, SortedMap.get?_ofList_append, metadataLeaves_eq_renamed, SortedMap.get?_renamed hname,
    ← flatten_eq_ofList, ← flatten_eq_ofList]

/-- Under any other key it has a property. -/
theorem get?_flatten_untagged {key : String} (h : Text.beginsWith "metadata_" key = false) :
    (flatten properties metadata).get? key = (flatten properties .empty).get? key := by
  have hname : ∀ b, some ("metadata_" ++ b) ≠ some key := by
    rintro b ⟨⟩
    rw [Text.beginsWith_append] at h
    cases h
  rw [flatten, SortedMap.get?_ofList_append, metadataLeaves_eq_renamed,
    SortedMap.get?_renamed_of_ne hname, Option.none_or, ← flatten_eq_ofList]

/-! ### Splitting -/

/-- The name of the property that an attribute is. -/
def property? (envelope : List String) (key : String) : Option String :=
  if envelope.contains key || Text.beginsWith "metadata_" key then none else some key

/-- The name of the entry of further data that an attribute is. -/
def further? (envelope : List String) (key : String) : Option String :=
  if envelope.contains key then none else Text.dropStart? "metadata_" key

theorem property?_eq_some_iff {envelope : List String} {b key : String} :
    property? envelope b = some key ↔
      b = key ∧ key ∉ envelope ∧ Text.beginsWith "metadata_" key = false := by
  unfold property?
  constructor
  · intro h
    split at h
    · cases h
    · rename_i hother
      cases h
      rw [Bool.or_eq_true, List.contains_iff_mem, not_or, Bool.not_eq_true] at hother
      exact ⟨rfl, hother⟩
  · rintro ⟨rfl, henv, htag⟩
    simp [henv, htag]

theorem further?_eq_some_iff {envelope : List String} {b key : String} :
    further? envelope b = some key ↔ b = "metadata_" ++ key ∧ "metadata_" ++ key ∉ envelope := by
  unfold further?
  constructor
  · intro h
    split at h
    · cases h
    · rename_i hother
      obtain rfl := Text.dropStart?_eq_some_iff.mp h
      exact ⟨rfl, mt List.contains_iff_mem.mpr hother⟩
  · rintro ⟨rfl, henv⟩
    simp [henv, Text.dropStart?_eq_some_iff]

/-- Attributes are split into those that are properties and those that are further data. -/
theorem split_eq_renamed (envelope : List String) (stored : List (String × Json)) :
    split envelope stored = (.ofList (SortedMap.renamed (property? envelope) stored),
      .ofList (SortedMap.renamed (further? envelope) stored)) := by
  induction stored using List.reverseRecOn with
  | nil => rfl
  | append_singleton l e ih =>
    obtain ⟨key, v⟩ := e
    rw [split, List.foldl_append, ← split, ih, SortedMap.ofList_renamed_concat,
      SortedMap.ofList_renamed_concat, property?, further?]
    simp only [List.foldl_cons, List.foldl_nil]
    cases envelope.contains key with
    | true => rfl
    | false =>
      cases hdrop : Text.dropStart? "metadata_" key with
      | some rest =>
        have hkey : Text.beginsWith "metadata_" key = true := by
          rw [Text.dropStart?_eq_some_iff.mp hdrop, Text.beginsWith_append]
        rw [hkey]
        rfl
      | none =>
        rw [Text.dropStart?_eq_none_iff.mp hdrop]
        rfl

/-! ### Attributes around a record -/

/-- Attributes that outside an envelope are those of a record. -/
structure Enveloped (envelope : List String) (record attributes : Properties) : Prop where
  outside : ∀ {key}, key ∉ envelope → attributes.get? key = record.get? key
  untagged : ∀ key ∈ envelope, Text.beginsWith "metadata_" key = false

/-- What is stored of the properties cannot be taken for something else: no key is of the envelope, and
none begins with the tag of further data. -/
def Clear (envelope : List String) (properties : Properties) : Prop :=
  ∀ key ∈ (flatten properties .empty).keys,
    key ∉ envelope ∧ Text.beginsWith "metadata_" key = false

namespace Enveloped

variable {envelope : List String} {attributes : Properties}

theorem tagged_not_mem {record : Properties} (h : Enveloped envelope record attributes) (key : String) :
    "metadata_" ++ key ∉ envelope := by
  intro hkey
  have htag := h.untagged _ hkey
  rw [Text.beginsWith_append] at htag
  cases htag

/-- Split off are the properties that can be told. -/
theorem get?_properties (h : Enveloped envelope (flatten properties metadata) attributes)
    (key : String) : (split envelope attributes.entries).1.get? key =
      if key ∉ envelope ∧ Text.beginsWith "metadata_" key = false then
        (flatten properties .empty).get? key
      else none := by
  rw [split_eq_renamed]
  split
  · rename_i hkey
    have hname : ∀ b, property? envelope b = some key ↔ b = key := fun b =>
      property?_eq_some_iff.trans (and_iff_left hkey)
    rw [SortedMap.get?_renamed hname, SortedMap.ofList_entries, h.outside hkey.1,
      get?_flatten_untagged hkey.2]
  · rename_i hkey
    exact SortedMap.get?_renamed_of_ne (fun b hb => hkey (property?_eq_some_iff.mp hb).2) _

/-- Split off are the further data, and the properties that are taken for further data. -/
theorem get?_metadata (h : Enveloped envelope (flatten properties metadata) attributes)
    (key : String) : (split envelope attributes.entries).2.get? key =
      ((flatten metadata .empty).get? key).or
        ((flatten properties .empty).get? ("metadata_" ++ key)) := by
  have hname : ∀ b, further? envelope b = some key ↔ b = "metadata_" ++ key := fun b =>
    further?_eq_some_iff.trans (and_iff_left (h.tagged_not_mem key))
  rw [split_eq_renamed, SortedMap.get?_renamed hname, SortedMap.ofList_entries,
    h.outside (h.tagged_not_mem key), get?_flatten_tagged]

/-- The properties that are split off are all that were stored exactly if none can be mistaken. -/
theorem properties_eq_iff (h : Enveloped envelope (flatten properties metadata) attributes) :
    (split envelope attributes.entries).1 = flatten properties .empty ↔ Clear envelope properties := by
  constructor
  · intro heq key hkey
    obtain ⟨v, hv⟩ := SortedMap.contains_iff.mp (SortedMap.mem_keys.mp hkey)
    by_contra hnot
    rw [← heq, h.get?_properties, if_neg hnot] at hv
    cases hv
  · intro hclear
    refine SortedMap.ext_get? fun key => ?_
    rw [h.get?_properties]
    split
    · rfl
    · rename_i hnot
      cases hv : (flatten properties .empty).get? key with
      | none => rfl
      | some v => exact absurd (hclear key (SortedMap.mem_keys.mpr (SortedMap.contains_of_get? hv))) hnot

theorem metadata_eq (h : Enveloped envelope (flatten properties metadata) attributes)
    (hclear : Clear envelope properties) :
    (split envelope attributes.entries).2 = flatten metadata .empty := by
  refine SortedMap.ext_get? fun key => ?_
  rw [h.get?_metadata]
  cases hv : (flatten properties .empty).get? ("metadata_" ++ key) with
  | none => rw [Option.or_none]
  | some v =>
    have htag := (hclear _ (SortedMap.mem_keys.mpr (SortedMap.contains_of_get? hv))).2
    rw [Text.beginsWith_append] at htag
    cases htag

theorem split_eq_iff (h : Enveloped envelope (flatten properties metadata) attributes) :
    split envelope attributes.entries = (flatten properties .empty, flatten metadata .empty) ↔
      Clear envelope properties := by
  constructor
  · intro heq
    exact h.properties_eq_iff.mp (congrArg Prod.fst heq)
  · intro hclear
    exact Prod.ext (h.properties_eq_iff.mpr hclear) (h.metadata_eq hclear)

/-- Whatever is split off is a text, a number or a truth value. -/
theorem allScalar (h : Enveloped envelope (flatten properties metadata) attributes) :
    AllScalar (split envelope attributes.entries).1 ∧
      AllScalar (split envelope attributes.entries).2 := by
  constructor
  · intro key v hv
    rw [h.get?_properties] at hv
    split at hv
    · exact isScalar_of_get?_flatten hv
    · cases hv
  · intro key v hv
    rw [h.get?_metadata, Option.or_eq_some_iff] at hv
    obtain hv | ⟨_, hv⟩ := hv
    · exact isScalar_of_get?_flatten hv
    · exact isScalar_of_get?_flatten hv

theorem split_eq_self_iff (h : Enveloped envelope (flatten properties metadata) attributes) :
    split envelope attributes.entries = (properties, metadata) ↔
      Clear envelope properties ∧ AllScalar properties ∧ AllScalar metadata := by
  constructor
  · intro heq
    obtain ⟨hp, hm⟩ := h.allScalar
    rw [heq] at hp hm
    have hflat := flatten_eq_self_iff.mpr hp
    exact ⟨h.properties_eq_iff.mp (by rw [heq, hflat]), hp, hm⟩
  · rintro ⟨hclear, hp, hm⟩
    rw [h.split_eq_iff.mpr hclear, flatten_eq_self_iff.mpr hp, flatten_eq_self_iff.mpr hm]

end Enveloped

theorem enveloped_nodeAttributes (n : Node) :
    Enveloped nodeEnvelope (flatten n.properties n.metadata) (nodeAttributes n) where
  outside := by
    intro key hkey
    simp only [nodeEnvelope, List.mem_cons, List.not_mem_nil, or_false, not_or] at hkey
    obtain ⟨hid, htype, hname⟩ := hkey
    rw [nodeAttributes, SortedMap.get?_insert_of_ne _ _ hname, SortedMap.get?_insert_of_ne _ _ htype,
      SortedMap.get?_insert_of_ne _ _ hid]
  untagged := by decide

theorem enveloped_relationshipAttributes (r : Relationship) :
    Enveloped relationshipEnvelope (flatten r.properties r.metadata) (relationshipAttributes r) where
  outside := by
    intro key hkey
    simp only [relationshipEnvelope, List.mem_cons, List.not_mem_nil, or_false, not_or] at hkey
    obtain ⟨hid, hsource, htarget, _⟩ := hkey
    rw [relationshipAttributes, SortedMap.get?_insert_of_ne _ _ htarget,
      SortedMap.get?_insert_of_ne _ _ hsource, SortedMap.get?_insert_of_ne _ _ hid]
  untagged := by decide

/-- How the attributes of a row split: properties and further data come back as they were stored exactly
if no property that is stored can be mistaken, and they come back unchanged exactly if moreover all their
values are texts, numbers and truth values. -/
def SplitsBack (envelope : List String) (row properties metadata : Properties) : Prop :=
  ∃ stored, row.get? "props" = some (.object stored) ∧
    (split envelope stored = (flatten properties .empty, flatten metadata .empty) ↔
      Clear envelope properties) ∧
    (split envelope stored = (properties, metadata) ↔
      Clear envelope properties ∧ AllScalar properties ∧ AllScalar metadata)

/-- The rows of all nodes and of all relationships split back. -/
theorem rows_split_back :
    (∀ n : Node, SplitsBack nodeEnvelope (ofNode n) n.properties n.metadata) ∧
      ∀ r : Relationship, SplitsBack relationshipEnvelope (ofRelationship r) r.properties r.metadata := by
  constructor
  · intro n
    have h := enveloped_nodeAttributes n
    exact ⟨_, SortedMap.get?_insert_self _ _ _, h.split_eq_iff, h.split_eq_self_iff⟩
  · intro r
    have h := enveloped_relationshipAttributes r
    exact ⟨_, SortedMap.get?_insert_self _ _ _, h.split_eq_iff, h.split_eq_self_iff⟩

end Record

end CodeAtlas
