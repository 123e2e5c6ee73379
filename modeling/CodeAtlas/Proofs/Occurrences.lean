/-
# Lists by first occurrence

A name may occur at several places. A list that has each name once, by the first of its places
(`ListsFirst`), is known from what occurs where (`ListsFirst.eq`). Taking the places in ascending order
and leaving out what was met before gives that list (`listsFirst_firstOccurrences`), and it stays that
list when the places are renamed in their order (`ListsFirst.rename`).

Key definitions: `ListsFirst`.
Key theorems: `ListsFirst.eq`, `ListsFirst.rename`, `listsFirst_firstOccurrences`.
-/
import CodeAtlas.Text.Blank
import Mathlib.Data.List.Induction

namespace CodeAtlas

/-- The list has what occurs at some place, each once, in the order of the first places. -/
structure ListsFirst {ι α : Type} (before : ι → ι → Prop) (occurs : ι → α → Prop) (l : List α) :
    Prop where
  nodup : l.Nodup
  mem_iff : ∀ a, a ∈ l ↔ ∃ i, occurs i a
  order : l.Pairwise fun a b => ∃ i, occurs i a ∧ ∀ j, occurs j b → before i j

namespace ListsFirst

variable {ι κ α : Type} {before : ι → ι → Prop} {occurs : ι → α → Prop} {l l' : List α}

/-- No two lists have the same elements by the same first places. -/
theorem eq [Std.Asymm before] (h : ListsFirst before occurs l) (h' : ListsFirst before occurs l') :
    l = l' := by
  have hperm : l.Perm l' := by
    rw [List.perm_ext_iff_of_nodup h.nodup h'.nodup]
    exact fun a => (h.mem_iff a).trans (h'.mem_iff a).symm
  refine hperm.eq_of_pairwise ?_ h.order h'.order
  rintro a b _ _ ⟨i, hi, hfirst⟩ ⟨j, hj, hlater⟩
  exact absurd (hlater i hi) (Std.Asymm.asymm i j (hfirst j hj))

theorem congr {occurs' : ι → α → Prop} (h : ListsFirst before occurs l)
    (ho : ∀ i a, occurs i a ↔ occurs' i a) : ListsFirst before occurs' l := by
  rwa [show occurs' = occurs from funext₂ fun i a => propext (ho i a).symm]

/-- Other names for the places, in the same order, change nothing. -/
theorem rename {before' : κ → κ → Prop} {f : ι → κ} (h : ListsFirst before occurs l)
    (hf : ∀ i j, before i j → before' (f i) (f j)) {occurs' : κ → α → Prop}
    (ho : ∀ k a, occurs' k a ↔ ∃ i, k = f i ∧ occurs i a) : ListsFirst before' occurs' l where
  nodup := h.nodup
  mem_iff a := by
    rw [h.mem_iff]
    constructor
    · rintro ⟨i, hi⟩
      exact ⟨f i, (ho _ a).mpr ⟨i, rfl, hi⟩⟩
    · rintro ⟨k, hk⟩
      obtain ⟨i, _, hi⟩ := (ho k a).mp hk
      exact ⟨i, hi⟩
  order := by
    refine h.order.imp ?_
    rintro a b ⟨i, hi, hfirst⟩
    refine ⟨f i, (ho _ a).mpr ⟨i, rfl, hi⟩, fun k hk => ?_⟩
    obtain ⟨j, rfl, hj⟩ := (ho k b).mp hk
    exact hf i j (hfirst j hj)

end ListsFirst

section Places

variable {ι α β : Type} [DecidableEq α] {before : ι → ι → Prop}

/-- One place more, after all others. -/
theorem ListsFirst.concat {occurs : ι → α → Prop} {l : List α} {last : ι} {a : α}
    (h : ListsFirst before occurs l) (hlast : ∀ i b, occurs i b → before i last) :
    ListsFirst before (fun i b => occurs i b ∨ i = last ∧ b = a) (Text.addNew l a) := by
  -- what stood before an element at its first place still does, the new place being the last
  have horder : l.Pairwise fun b b' => ∃ i, (occurs i b ∨ i = last ∧ b = a) ∧
      ∀ j, (occurs j b' ∨ j = last ∧ b' = a) → before i j := by
    refine h.order.imp ?_
    rintro b b' ⟨i, hi, hfirst⟩
    refine ⟨i, .inl hi, ?_⟩
    rintro j (hj | ⟨rfl, _⟩)
    · exact hfirst j hj
    · exact hlast i b hi
  unfold Text.addNew
  split
  case isTrue ha =>
    refine ⟨h.nodup, fun b => ?_, horder⟩
    rw [h.mem_iff]
    constructor
    · rintro ⟨i, hi⟩
      exact ⟨i, .inl hi⟩
    · rintro ⟨i, hi | ⟨_, rfl⟩⟩
      · exact ⟨i, hi⟩
      · exact (h.mem_iff b).mp ha
  case isFalse ha =>
    refine ⟨?_, fun b => ?_, ?_⟩
    · rw [List.nodup_append]
      refine ⟨h.nodup, List.pairwise_singleton .., fun b hb c hc hbc => ?_⟩
      rw [List.mem_singleton.mp hc] at hbc
      exact ha (hbc ▸ hb)
    · rw [List.mem_append, List.mem_singleton, h.mem_iff]
      constructor
      · rintro (⟨i, hi⟩ | rfl)
        · exact ⟨i, .inl hi⟩
        · exact ⟨last, .inr ⟨rfl, rfl⟩⟩
      · rintro ⟨i, hi | ⟨_, rfl⟩⟩
        · exact .inl ⟨i, hi⟩
        · exact .inr rfl
    · rw [List.pairwise_append]
      refine ⟨horder, List.pairwise_singleton .., fun b hb c hc => ?_⟩
      obtain rfl := List.mem_singleton.mp hc
      obtain ⟨i, hi⟩ := (h.mem_iff b).mp hb
      refine ⟨i, .inl hi, ?_⟩
      rintro j (hj | ⟨rfl, _⟩)
      · exact absurd ((h.mem_iff c).mpr ⟨j, hj⟩) ha
      · exact hlast i b hi

/-- Where the places ascend, the first occurrences are listed by their first places. -/
theorem listsFirst_firstOccurrences (f : β → Option α) {places : List (ι × β)}
    (h : places.Pairwise fun e e' => before e.1 e'.1) :
    ListsFirst before (fun i a => ∃ b, (i, b) ∈ places ∧ f b = some a)
      (Text.firstOccurrences ((places.map Prod.snd).filterMap f)) := by
  induction places using List.reverseRecOn with
  | nil => exact ⟨.nil, by simp [Text.firstOccurrences], .nil⟩
  | append_singleton places e ih =>
    obtain ⟨hplaces, _, hlast⟩ := List.pairwise_append.mp h
    have hsplit : ∀ i a, (∃ b, (i, b) ∈ places ++ [e] ∧ f b = some a) ↔
        (∃ b, (i, b) ∈ places ∧ f b = some a) ∨ i = e.1 ∧ f e.2 = some a := by
      intro i a
      simp only [List.mem_append, List.mem_singleton]
      grind
    rw [List.map_append, List.map_singleton, List.filterMap_append]
    cases he : f e.2 with
    | none =>
      rw [List.filterMap_cons_none he, List.filterMap_nil, List.append_nil]
      refine (ih hplaces).congr fun i a => ?_
      rw [hsplit, he]
      simp
    | some a =>
      rw [List.filterMap_cons_some he, List.filterMap_nil, Text.firstOccurrences, List.foldl_append]
      have hbefore : ∀ i b, (∃ c, (i, c) ∈ places ∧ f c = some b) → before i e.1 := by
        rintro i b ⟨c, hc, _⟩
        exact hlast _ hc e List.mem_cons_self
      refine ((ih hplaces).concat hbefore).congr fun i b => ?_
      rw [hsplit, he, Option.some_inj, eq_comm (a := b)]

end Places

end CodeAtlas
