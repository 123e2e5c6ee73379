/-
# How the text of a question is read

A text is cut from the left: where a quote has the same quote after it, with at least one character between
them, there is a quoted span, and anywhere else a character on its own (`Entity.Cut`). With a blank for each
span, what is left is read into the longest tokens from the left (`Entity.Lexed`). There is one way to cut a
text and one way to read it, which are the ones of `Entity.pieces` and `Entity.tokensFrom`
(`Entity.cut_iff`, `Entity.lexed_iff`).

No token goes on across a span, since a blank is no part of one. So the tokens, as the spans, stand in the
text itself, in the order in which they are read (`Entity.InTurn`).

Key definitions: `Entity.Cut`, `Entity.Lexed`, `Entity.InTurn`, `Entity.Reads`.
Key theorems: `Entity.cut_iff`, `Entity.lexed_iff`, `Entity.reads_iff`, `Entity.InTurn.of_outside`,
`Entity.Reads.spans_inTurn`, `Entity.Reads.tokens_inTurn`.
-/
import Mathlib.Data.List.DropRight
import Mathlib.Data.String.Basic
import CodeAtlas.Query.Entity

namespace CodeAtlas

/-! ### Characters at either end -/

namespace Text

variable {p : Char → Bool} {cs : List Char}

theorem dropEndWhile_eq (p : Char → Bool) (cs : List Char) : dropEndWhile p cs = cs.rdropWhile p := rfl

theorem stripWhile_infix (p : Char → Bool) (cs : List Char) : stripWhile p cs <:+: cs :=
  (List.rdropWhile_prefix p _).isInfix.trans (List.dropWhile_suffix p).isInfix

theorem stripWhile_eq_nil_iff : stripWhile p cs = [] ↔ ∀ c ∈ cs, p c = true := by
  rw [stripWhile, dropEndWhile_eq, List.rdropWhile_eq_nil_iff]
  constructor
  · intro h c hc
    rw [← List.takeWhile_append_dropWhile (p := p) (l := cs), List.mem_append] at hc
    rcases hc with hc | hc
    · exact List.mem_takeWhile_imp hc
    · exact h c hc
  · intro h c hc
    exact h c ((List.dropWhile_sublist p).mem hc)

theorem stripWhile_eq_self (h : ∀ c ∈ cs, p c = false) : stripWhile p cs = cs := by
  have hstart : cs.dropWhile p = cs := by
    cases cs with
    | nil => rfl
    | cons c cs => rw [List.dropWhile_cons, h c List.mem_cons_self, if_neg Bool.false_ne_true]
  rw [stripWhile, hstart, dropEndWhile_eq, List.rdropWhile_eq_self_iff]
  intro hne
  rw [h _ (List.getLast_mem hne)]
  exact Bool.false_ne_true

theorem head?_stripWhile : ∀ c ∈ (stripWhile p cs).head?, p c = false := by
  intro c hc
  obtain ⟨rest, hrest⟩ := List.rdropWhile_prefix p (cs.dropWhile p)
  have hnot := List.head?_dropWhile_not p cs
  cases hs : stripWhile p cs with
  | nil => simp [hs] at hc
  | cons d ds =>
    have hfirst : (cs.dropWhile p).head? = some d := by
      rw [← hrest, show (cs.dropWhile p).rdropWhile p = d :: ds from hs]
      rfl
    rw [hfirst] at hnot
    rw [hs] at hc
    cases hc
    exact hnot

theorem getLast?_stripWhile : ∀ c ∈ (stripWhile p cs).getLast?, p c = false := by
  intro c hc
  have hne : stripWhile p cs ≠ [] := by
    intro hnil
    simp [hnil] at hc
  have hlast := List.rdropWhile_last_not p (cs.dropWhile p) hne
  rw [List.getLast?_eq_some_getLast hne] at hc
  cases hc
  exact Bool.eq_false_iff.mpr hlast

end Text

namespace Entity

/-! ### Spans and characters -/

/-- The text is cut into these pieces: a quoted span where one begins, and else a character. -/
inductive Cut : List Char → List Piece → Prop where
  | nil : Cut [] []
  | quoted {q : Char} {inner rest : List Char} {ps : List Piece} (hq : Text.isQuote q = true)
      (hne : inner ≠ []) (hnot : q ∉ inner) (h : Cut rest ps) :
      Cut (q :: (inner ++ q :: rest)) (.quoted inner :: ps)
  | plain {c : Char} {cs : List Char} {ps : List Piece}
      (hno : Text.isQuote c = true → ∀ inner rest, inner ≠ [] → c ∉ inner → cs ≠ inner ++ c :: rest)
      (h : Cut cs ps) : Cut (c :: cs) (.plain c :: ps)

theorem inner?_eq_some_iff {q : Char} {cs inner : List Char} : inner? q cs = some inner ↔
    inner ≠ [] ∧ q ∉ inner ∧ ∃ rest, cs = inner ++ q :: rest := by
  have hsplit := List.takeWhile_append_dropWhile (p := (· != q)) (l := cs)
  constructor
  · intro h
    simp only [inner?, Option.ite_none_left_eq_some, Bool.or_eq_true, List.isEmpty_iff, beq_iff_eq,
      not_or] at h
    obtain ⟨⟨hne, hlen⟩, heq⟩ := h
    have hrest := List.head?_dropWhile_not (· != q) cs
    rw [← Option.some.inj heq]
    refine ⟨hne, fun hq => by simpa using List.mem_takeWhile_imp hq, ?_⟩
    cases hdrop : cs.dropWhile (· != q) with
    | nil =>
      rw [hdrop, List.append_nil] at hsplit
      exact absurd (congrArg List.length hsplit) hlen
    | cons d rest =>
      rw [hdrop] at hrest
      have hd : d = q := by simpa using hrest
      rw [hdrop, hd] at hsplit
      exact ⟨rest, hsplit.symm⟩
  · rintro ⟨hne, hnot, rest, rfl⟩
    have htake : (inner ++ q :: rest).takeWhile (· != q) = inner := by
      have hall : ∀ c ∈ inner, (c != q) = true := by
        intro c hc
        simpa using ne_of_mem_of_not_mem hc hnot
      rw [List.takeWhile_append_of_pos hall]
      simp
    simp [inner?, htake, hne]

theorem piecesFrom_eq : ∀ (n : Nat) (cs : List Char), piecesFrom n cs = pieces (cs.drop n)
  | 0, _ => by rw [List.drop_zero, pieces]
  | n + 1, [] => by simp [piecesFrom, pieces]
  | n + 1, c :: cs => by rw [piecesFrom, piecesFrom_eq n cs, List.drop_succ_cons]

theorem pieces_quoted {q : Char} {inner rest : List Char} (hq : Text.isQuote q = true)
    (hne : inner ≠ []) (hnot : q ∉ inner) :
    pieces (q :: (inner ++ q :: rest)) = .quoted inner :: pieces rest := by
  have hinner : inner? q (inner ++ q :: rest) = some inner :=
    inner?_eq_some_iff.mpr ⟨hne, hnot, rest, rfl⟩
  have hdrop : (inner ++ q :: rest).drop (inner.length + 1) = rest := by simp
  rw [pieces, piecesFrom, hq, if_pos rfl, hinner]
  simp only
  rw [piecesFrom_eq, hdrop]

theorem pieces_plain {c : Char} {cs : List Char}
    (hno : Text.isQuote c = true → ∀ inner rest, inner ≠ [] → c ∉ inner → cs ≠ inner ++ c :: rest) :
    pieces (c :: cs) = .plain c :: pieces cs := by
  have hnone : (if Text.isQuote c then inner? c cs else none) = none := by
    by_cases hq : Text.isQuote c = true
    · rw [if_pos hq, Option.eq_none_iff_forall_ne_some]
      intro inner hinner
      obtain ⟨hne, hnot, rest, hcs⟩ := inner?_eq_some_iff.mp hinner
      exact hno hq inner rest hne hnot hcs
    · rw [if_neg hq]
  rw [pieces, piecesFrom, hnone]
  rfl

/-- There is one way to cut a text. -/
theorem cut_iff {cs : List Char} {ps : List Piece} : Cut cs ps ↔ ps = pieces cs := by
  constructor
  · intro h
    induction h with
    | nil => rfl
    | quoted hq hne hnot _ ih => rw [pieces_quoted hq hne hnot, ih]
    | plain hno _ ih => rw [pieces_plain hno, ih]
  · rintro rfl
    -- a span is passed over as a whole, so the induction is on the length
    induction hn : cs.length using Nat.strong_induction_on generalizing cs with
    | _ n ih =>
      cases cs with
      | nil => exact .nil
      | cons c cs =>
        by_cases hopens : Text.isQuote c = true ∧ ∃ inner rest, inner ≠ [] ∧ c ∉ inner ∧
          cs = inner ++ c :: rest
        · obtain ⟨hq, inner, rest, hne, hnot, rfl⟩ := hopens
          rw [pieces_quoted hq hne hnot]
          exact .quoted hq hne hnot (ih rest.length (by simp at hn; omega) rfl)
        · have hno : Text.isQuote c = true →
              ∀ inner rest, inner ≠ [] → c ∉ inner → cs ≠ inner ++ c :: rest :=
            fun hq inner rest hne hnot hcs => hopens ⟨hq, inner, rest, hne, hnot, hcs⟩
          rw [pieces_plain hno]
          exact .plain hno (ih cs.length (by simp at hn; omega) rfl)

/-! ### Tokens -/

/-- The characters are read into these tokens: each is begun at the first character that may begin one, and
goes on as long as it may. -/
inductive Lexed : List Char → List (List Char) → Prop where
  | nil : Lexed [] []
  | skip {c : Char} {cs : List Char} {ts : List (List Char)} (hc : isStart c = false)
      (h : Lexed cs ts) : Lexed (c :: cs) ts
  | token {c : Char} {t rest : List Char} {ts : List (List Char)} (hc : isStart c = true)
      (ht : ∀ x ∈ t, isPart x = true) (hend : ∀ x ∈ rest.head?, isPart x = false) (h : Lexed rest ts) :
      Lexed (c :: (t ++ rest)) ((c :: t) :: ts)

/-- A token that was begun takes all that may go on with it. -/
theorem tokensFrom_some : ∀ (t cs : List Char), tokensFrom (some t) cs =
    (t.reverse ++ cs.takeWhile isPart) :: tokensFrom none (cs.dropWhile isPart)
  | t, [] => by simp [tokensFrom]
  | t, c :: cs => by
    by_cases hc : isPart c = true
    · rw [tokensFrom, if_pos hc, tokensFrom_some (c :: t) cs]
      simp [hc]
    · rw [tokensFrom, if_neg hc]
      simp [hc, tokensFrom]

theorem tokensFrom_skip {c : Char} (hc : isStart c = false) (cs : List Char) :
    tokensFrom none (c :: cs) = tokensFrom none cs := by
  simp [tokensFrom, hc]

theorem tokensFrom_token {c : Char} {t rest : List Char} (hc : isStart c = true)
    (ht : ∀ x ∈ t, isPart x = true) (hend : ∀ x ∈ rest.head?, isPart x = false) :
    tokensFrom none (c :: (t ++ rest)) = (c :: t) :: tokensFrom none rest := by
  have hstop : rest.takeWhile isPart = [] ∧ rest.dropWhile isPart = rest := by
    cases rest with
    | nil => simp
    | cons x rest => simp [hend x rfl]
  rw [tokensFrom, if_pos hc, tokensFrom_some, List.takeWhile_append_of_pos ht,
    List.dropWhile_append_of_pos ht, hstop.1, hstop.2]
  simp

/-- There is one way to read characters into tokens. -/
theorem lexed_iff {cs : List Char} {ts : List (List Char)} : Lexed cs ts ↔ ts = tokensFrom none cs := by
  constructor
  · intro h
    induction h with
    | nil => rfl
    | skip hc _ ih => rw [tokensFrom_skip hc, ih]
    | token hc ht hend _ ih => rw [tokensFrom_token hc ht hend, ih]
  · rintro rfl
    induction hn : cs.length using Nat.strong_induction_on generalizing cs with
    | _ n ih =>
      cases cs with
      | nil => exact .nil
      | cons c cs =>
        cases hc : isStart c with
        | false =>
          rw [tokensFrom_skip hc]
          exact .skip hc (ih cs.length (by simp at hn; omega) rfl)
        | true =>
          have ht : ∀ x ∈ cs.takeWhile isPart, isPart x = true := fun x => List.mem_takeWhile_imp
          have hend : ∀ x ∈ (cs.dropWhile isPart).head?, isPart x = false := by
            intro x hx
            have hnot := List.head?_dropWhile_not isPart cs
            rw [Option.mem_def.mp hx] at hnot
            exact hnot
          have hlen := (List.dropWhile_sublist isPart (l := cs)).length_le
          rw [← List.takeWhile_append_dropWhile (p := isPart) (l := cs), tokensFrom_token hc ht hend]
          exact .token hc ht hend (ih _ (by simp at hn; omega) rfl)

/-! ### Texts that stand in a text one after the other -/

/-- The texts stand in the characters in this order, none of them sharing any with the next. -/
inductive InTurn : List (List Char) → List Char → Prop where
  | nil {cs : List Char} : InTurn [] cs
  | cons {t : List Char} {ts : List (List Char)} (before : List Char) {after : List Char}
      (h : InTurn ts after) : InTurn (t :: ts) (before ++ (t ++ after))

namespace InTurn

variable {ts : List (List Char)} {cs : List Char}

theorem append_left (before : List Char) (h : InTurn ts cs) : InTurn ts (before ++ cs) := by
  cases h with
  | nil => exact .nil
  | cons middle h =>
    rw [← List.append_assoc]
    exact .cons (before ++ middle) h

theorem isInfix (h : InTurn ts cs) : ∀ t ∈ ts, t <:+: cs := by
  induction h with
  | nil => simp
  | @cons t ts before after _ ih =>
    intro t' ht'
    rcases List.mem_cons.mp ht' with rfl | ht'
    · exact ⟨before, after, List.append_assoc ..⟩
    · exact (ih t' ht').trans ⟨before ++ t, [], by simp⟩

/-- Each text may be cut at either end. -/
theorem map {f : List Char → List Char} (hf : ∀ t, f t <:+: t) (h : InTurn ts cs) :
    InTurn (ts.map f) cs := by
  induction h with
  | nil => exact .nil
  | @cons t ts before after _ ih =>
    obtain ⟨front, back, ht⟩ := hf t
    have hsplit : before ++ (t ++ after) = (before ++ front) ++ (f t ++ (back ++ after)) := by
      conv_lhs => rw [← ht]
      simp
    rw [hsplit, List.map_cons]
    exact .cons _ (ih.append_left back)

end InTurn

theorem Cut.inTurn {cs : List Char} {ps : List Piece} (h : Cut cs ps) :
    InTurn (ps.filterMap Piece.span?) cs := by
  induction h with
  | nil => exact .nil
  | @quoted q inner rest ps _ _ _ _ ih =>
    rw [List.filterMap_cons]
    exact .cons [q] (ih.append_left [q])
  | @plain c _ _ _ _ ih =>
    rw [List.filterMap_cons]
    exact ih.append_left [c]

theorem Lexed.inTurn {cs : List Char} {ts : List (List Char)} (h : Lexed cs ts) : InTurn ts cs := by
  induction h with
  | nil => exact .nil
  | @skip c _ _ _ _ ih => exact ih.append_left [c]
  | token _ _ _ _ ih => exact .cons [] ih

/-! ### From what is outside of spans to the text -/

theorem Cut.append {ps ps' : List Piece} : ∀ {cs : List Char}, Cut cs (ps ++ ps') →
    ∃ front rest, cs = front ++ rest ∧ Cut rest ps' := by
  induction ps with
  | nil => exact fun {cs} h => ⟨[], cs, rfl, h⟩
  | cons p ps ih =>
    intro cs h
    cases h with
    | @quoted q inner rest _ _ _ _ h =>
      obtain ⟨front, rest, rfl, hrest⟩ := ih h
      exact ⟨q :: (inner ++ q :: front), rest, by simp, hrest⟩
    | @plain c _ _ _ h =>
      obtain ⟨front, rest, rfl, hrest⟩ := ih h
      exact ⟨c :: front, rest, rfl, hrest⟩

theorem Cut.plains {t : List Char} {ps : List Piece} : ∀ {cs : List Char},
    Cut cs (t.map .plain ++ ps) → ∃ rest, cs = t ++ rest ∧ Cut rest ps := by
  induction t with
  | nil => exact fun {cs} h => ⟨cs, rfl, h⟩
  | cons c t ih =>
    intro cs h
    cases h with
    | plain _ h =>
      obtain ⟨rest, rfl, hrest⟩ := ih h
      exact ⟨rest, rfl, hrest⟩

/-- Pieces that leave no blank are characters. -/
theorem eq_plains_of_outside {ps : List Piece} (h : ' ' ∉ ps.map Piece.outside) :
    ps = (ps.map Piece.outside).map .plain := by
  induction ps with
  | nil => rfl
  | cons p ps ih =>
    rw [List.map_cons, List.mem_cons, not_or] at h
    cases p with
    | quoted inner => exact absurd rfl h.1
    | plain c => rw [List.map_cons, List.map_cons, ← ih h.2, Piece.outside]

/-- What stands outside of spans, and has no blank, stands in the text. -/
theorem InTurn.of_outside {ts : List (List Char)} {outside : List Char} (h : InTurn ts outside) :
    ∀ {cs : List Char} {ps : List Piece}, Cut cs ps → ps.map Piece.outside = outside →
      (∀ t ∈ ts, ' ' ∉ t) → InTurn ts cs := by
  induction h with
  | nil => exact fun _ _ _ => .nil
  | @cons t ts before after _ ih =>
    intro cs ps hcut hps hblank
    obtain ⟨front, ps', rfl, _, hps'⟩ := List.map_eq_append_iff.mp hps
    obtain ⟨middle, back, rfl, rfl, hback⟩ := List.map_eq_append_iff.mp hps'
    obtain ⟨before', cs', rfl, hcut'⟩ := hcut.append
    rw [eq_plains_of_outside (hblank _ List.mem_cons_self)] at hcut'
    obtain ⟨after', rfl, hrest⟩ := hcut'.plains
    exact .cons before' (ih hrest hback fun t ht => hblank t (List.mem_cons_of_mem _ ht))

/-! ### The spans and tokens of a text -/

/-- The text has these quoted spans, and outside of them these tokens, less what trails. -/
def Reads (cs : List Char) (spans tokens : List (List Char)) : Prop :=
  ∃ ps ts, Cut cs ps ∧ Lexed (ps.map Piece.outside) ts ∧ spans = ps.filterMap Piece.span? ∧
    tokens = ts.map (Text.dropEndWhile isTrailing)

/-- The characters of a token can be seen, and each is one byte. -/
theorem visible_of_isPart {c : Char} (h : isStart c = true ∨ isPart c = true) :
    0x20 < c.toNat ∧ c.toNat < 0x7F := by
  have halpha : c.isAlpha = (c.isUpper || c.isLower) := rfl
  have hupper : c.isUpper = decide (c.val ≥ 'A'.val ∧ c.val ≤ 'Z'.val) := rfl
  have hlower : c.isLower = (decide (c.val ≥ 'a'.val) && decide (c.val ≤ 'z'.val)) := rfl
  simp only [isStart, isPart, Char.isAlphanum, halpha, hupper, hlower, Char.isDigit, Bool.or_eq_true,
    Bool.and_eq_true, decide_eq_true_eq, beq_iff_eq, Char.ext_iff, ge_iff_le,
    UInt32.le_iff_toNat_le, ← UInt32.toNat_inj] at h
  simp at h
  omega

theorem not_isTrailing_of_isStart {c : Char} (h : isStart c = true) : isTrailing c = false := by
  rw [Bool.eq_false_iff]
  intro htrails
  simp only [isTrailing, Bool.or_eq_true, beq_iff_eq] at htrails
  rcases htrails with (rfl | rfl) | rfl <;> exact absurd h (by decide)

theorem Lexed.of_mem {cs : List Char} {ts : List (List Char)} (h : Lexed cs ts) :
    ∀ t ∈ ts, ∃ c r, t = c :: r ∧ isStart c = true ∧ ∀ x ∈ r, isPart x = true := by
  induction h with
  | nil => simp
  | skip _ _ ih => exact ih
  | @token c r _ _ hc hr _ _ ih =>
    intro t ht
    rcases List.mem_cons.mp ht with rfl | ht
    · exact ⟨c, r, rfl, hc, hr⟩
    · exact ih t ht

theorem Lexed.visible {cs : List Char} {ts : List (List Char)} (h : Lexed cs ts) :
    ∀ t ∈ ts, ∀ c ∈ t, 0x20 < c.toNat ∧ c.toNat < 0x7F := by
  intro t ht c hc
  obtain ⟨d, r, rfl, hd, hr⟩ := h.of_mem t ht
  rcases List.mem_cons.mp hc with rfl | hc
  · exact visible_of_isPart (.inl hd)
  · exact visible_of_isPart (.inr (hr c hc))

/-- Something is left of a token without what trails, since none begins with that. -/
theorem Lexed.dropEndWhile_ne_nil {cs : List Char} {ts : List (List Char)} (h : Lexed cs ts) :
    ∀ t ∈ ts, Text.dropEndWhile isTrailing t ≠ [] := by
  intro t ht hnil
  obtain ⟨c, r, rfl, hc, _⟩ := h.of_mem t ht
  rw [Text.dropEndWhile_eq, List.rdropWhile_eq_nil_iff] at hnil
  have htrails := hnil c List.mem_cons_self
  rw [not_isTrailing_of_isStart hc] at htrails
  cases htrails

/-- There is one way to read a text. -/
theorem reads_iff {cs : List Char} {spans toks : List (List Char)} : Reads cs spans toks ↔
    spans = (pieces cs).filterMap Piece.span? ∧ toks = tokens cs := by
  have hlexed : Lexed ((pieces cs).map Piece.outside) (tokensFrom none ((pieces cs).map Piece.outside)) :=
    lexed_iff.mpr rfl
  have htokens : tokens cs = (tokensFrom none ((pieces cs).map Piece.outside)).map
      (Text.dropEndWhile isTrailing) := by
    rw [tokens, List.filter_eq_self]
    intro t' ht'
    obtain ⟨t, ht, rfl⟩ := List.mem_map.mp ht'
    simpa using hlexed.dropEndWhile_ne_nil t ht
  rw [htokens]
  constructor
  · rintro ⟨ps, ts, hcut, hts, rfl, rfl⟩
    obtain rfl := cut_iff.mp hcut
    obtain rfl := lexed_iff.mp hts
    exact ⟨rfl, rfl⟩
  · rintro ⟨rfl, rfl⟩
    exact ⟨pieces cs, _, cut_iff.mpr rfl, hlexed, rfl, rfl⟩

namespace Reads

variable {cs : List Char} {spans tokens : List (List Char)} (h : Reads cs spans tokens)
include h

theorem spans_inTurn : InTurn spans cs := by
  obtain ⟨ps, ts, hcut, _, rfl, _⟩ := h
  exact hcut.inTurn

theorem tokens_inTurn : InTurn tokens cs := by
  obtain ⟨ps, ts, hcut, hlexed, _, rfl⟩ := h
  have hblank : ∀ t ∈ ts, ' ' ∉ t := by
    intro t ht hc
    have hvisible := (hlexed.visible t ht _ hc).1
    exact absurd hvisible (by decide)
  have hstand : InTurn ts cs := hlexed.inTurn.of_outside hcut rfl hblank
  exact hstand.map fun t => (List.rdropWhile_prefix isTrailing t).isInfix

theorem token_ne_nil : ∀ t ∈ tokens, t ≠ [] := by
  obtain ⟨ps, ts, _, hlexed, _, rfl⟩ := h
  intro t' ht'
  obtain ⟨t, ht, rfl⟩ := List.mem_map.mp ht'
  exact hlexed.dropEndWhile_ne_nil t ht

theorem visible : ∀ t ∈ tokens, ∀ c ∈ t, 0x20 < c.toNat ∧ c.toNat < 0x7F := by
  obtain ⟨ps, ts, _, hlexed, _, rfl⟩ := h
  intro t' ht' c hc
  obtain ⟨t, ht, rfl⟩ := List.mem_map.mp ht'
  exact hlexed.visible t ht c ((List.rdropWhile_prefix isTrailing t).sublist.mem hc)

end Reads

end Entity

end CodeAtlas
