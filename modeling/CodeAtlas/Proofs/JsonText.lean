/-
# Written JSON reads back

A value written over several lines is read back as the document of the value
(`Document.parse?_pretty`), so long as its numbers are whole and fit into a word. The text is first
followed by the scanner, which ends with the tokens of the value, and then the tokens are followed by
the builder. Both steps are stated with whatever comes after the value, since that is what a value
within a list or a record is followed by.

Key definitions: `Json.IsPlain`, `Json.tokensOf`, `Numeral.ofInt`, `Json.Scanner.finish?`.
Key theorems: `Numeral.ofChars?_intText`, `Numeral.value?_ofInt`, `Json.Scanner.finish?_quote`,
`Json.Scanner.finish?_prettyAt`, `Document.Builder.run?_tokensOf`, `Document.parse?_pretty`.
-/
import CodeAtlas.Json.Document
import CodeAtlas.Json.Write

namespace CodeAtlas

/-! ### Numerals -/

namespace Numeral

/-- The value of a decimal digit, as a number. -/
def digitOf (c : Char) : Nat := c.toNat - 48

/-- The decimal digits of a number. -/
def digitsOf (n : Nat) : List Nat := (Nat.toDigits 10 n).map digitOf

theorem digitOf_digitChar : ∀ d < 10, digitOf (Nat.digitChar d) = d := by decide

theorem digitsOf_of_lt {n : Nat} (h : n < 10) : digitsOf n = [n] := by
  rw [digitsOf, Nat.toDigits_of_lt_base h, List.map_singleton, digitOf_digitChar n h]

theorem digitsOf_of_le {n : Nat} (h : 10 ≤ n) : digitsOf n = digitsOf (n / 10) ++ [n % 10] := by
  rw [digitsOf, Nat.toDigits_of_base_le (by decide) h, List.map_append, List.map_singleton,
    digitOf_digitChar _ (Nat.mod_lt _ (by decide))]
  rfl

/-- The number that decimal digits write after those of `n`. -/
def shift (n : Nat) (ds : List Nat) : Nat := ds.foldl (fun n d => n * 10 + d) n

theorem shift_digitsOf (n : Nat) : shift 0 (digitsOf n) = n := by
  induction n using Nat.strongRecOn with
  | ind n ih =>
    by_cases h : n < 10
    · rw [digitsOf_of_lt h]
      simp [shift]
    · have ih := ih (n / 10) (by omega)
      rw [shift] at ih
      rw [digitsOf_of_le (by omega), shift, List.foldl_append, ih]
      simp only [List.foldl_cons, List.foldl_nil]
      omega

theorem le_shift : ∀ (ds : List Nat) (n : Nat), n ≤ shift n ds
  | [], _ => Nat.le_refl _
  | d :: ds, n => by
    have := le_shift ds (n * 10 + d)
    have h : shift n (d :: ds) = shift (n * 10 + d) ds := rfl
    omega

/-- Digits are taken in as long as the whole number stays within the limit. -/
theorem absorb_of_le (limit : Nat) : ∀ (ds : List Nat) (n : Nat), shift n ds ≤ limit →
    absorb limit n ds = (shift n ds, ds.length, [])
  | [], _, _ => rfl
  | d :: ds, n, h => by
    have hs : shift n (d :: ds) = shift (n * 10 + d) ds := rfl
    rw [hs] at h ⊢
    have hle := le_shift ds (n * 10 + d)
    rw [absorb, if_neg (by omega), absorb_of_le limit ds _ h]
    rfl

theorem head_digitsOf {n : Nat} (h : 0 < n) : ∃ d ds, digitsOf n = d :: ds ∧ d ≠ 0 := by
  induction n using Nat.strongRecOn with
  | ind n ih =>
    by_cases hn : n < 10
    · exact ⟨n, [], digitsOf_of_lt hn, by omega⟩
    · obtain ⟨d, ds, hd, h0⟩ := ih (n / 10) (by omega) (by omega)
      exact ⟨d, ds ++ [n % 10], by rw [digitsOf_of_le (by omega), hd, List.cons_append], h0⟩

theorem wholeOk_digitsOf (n : Nat) : wholeOk (digitsOf n) = true := by
  by_cases h : n < 10
  · rw [digitsOf_of_lt h]
    rfl
  · obtain ⟨d, ds, hd, h0⟩ := head_digitsOf (n := n) (by omega)
    rw [hd]
    cases ds with
    | nil => rfl
    | cons e es => simpa [wholeOk] using h0

theorem digits_of_isDigit : ∀ (cs : List Char), (∀ c ∈ cs, c.isDigit = true) →
    digits cs = (cs.map digitOf, [])
  | [], _ => rfl
  | c :: cs, h => by
    have hc : digit? c = some (digitOf c) := by
      rw [digit?, h c List.mem_cons_self, if_pos rfl, digitOf]
    rw [digits, hc]
    simp only [digits_of_isDigit cs fun d hd => h d (List.mem_cons_of_mem _ hd), List.map_cons]

/-- The numeral of a whole number. -/
def ofInt (n : Int) : Numeral := ⟨decide (n < 0), digitsOf n.natAbs, none, none⟩

theorem unsigned?_toDigits (negative : Bool) (n : Nat) :
    unsigned? negative (Nat.toDigits 10 n) = some ⟨negative, digitsOf n, none, none⟩ := by
  have hd := digits_of_isDigit (Nat.toDigits 10 n) fun c hc =>
    Nat.isDigit_of_mem_toDigits (by decide) (by decide) hc
  have hw := wholeOk_digitsOf n
  rw [unsigned?, hd]
  simp only [show (Nat.toDigits 10 n).map digitOf = digitsOf n from rfl, hw, Bool.not_true,
    Bool.false_eq_true, if_false]
  rfl

/-- The text of a whole number is its numeral. -/
theorem ofChars?_intText (n : Int) : ofChars? (Json.intText n).toList = some (ofInt n) := by
  rw [Json.intText, ofInt]
  by_cases h : n < 0
  · rw [if_pos h, decide_eq_true h]
    have : ("-" ++ Binary64.decimalText n.natAbs).toList = '-' :: Nat.toDigits 10 n.natAbs := by
      simp [Binary64.decimalText]
    rw [this, ofChars?]
    exact unsigned?_toDigits true _
  · rw [if_neg h, decide_eq_false h, Binary64.decimalText, String.toList_ofList]
    cases hd : Nat.toDigits 10 n.natAbs with
    | nil => exact absurd hd Nat.toDigits_ne_nil
    | cons c cs =>
      have hc : c.isDigit = true := Nat.isDigit_of_mem_toDigits (by decide) (by decide)
        (hd ▸ List.mem_cons_self : c ∈ Nat.toDigits 10 n.natAbs)
      rw [ofChars?, ← hd]
      · exact unsigned?_toDigits false _
      · rintro cs' ⟨⟩
        exact absurd hc (by decide)

/-- A whole number that fits into a word is the value of its numeral. -/
theorem value?_ofInt {n : Int} (hl : -(twoTo 63 : Int) ≤ n) (hu : n < (twoTo 64 : Int)) :
    (ofInt n).value? = some (.whole n) := by
  have h63 : twoTo 63 = 9223372036854775808 := by decide
  have h64 : twoTo 64 = 18446744073709551616 := by decide
  have hs : shift 0 (digitsOf n.natAbs) = n.natAbs := shift_digitsOf _
  have ha := absorb_of_le wordMax (digitsOf n.natAbs) 0 (by rw [hs, wordMax]; omega)
  by_cases h : n < 0
  · have h0 : (n.natAbs = 0 || decide (twoTo 63 < n.natAbs)) = false := by
      simp only [Bool.or_eq_false_iff, decide_eq_false_iff_not]
      omega
    rw [ofInt, decide_eq_true h, value?]
    simp only [ha, hs, h0, Bool.not_true, Bool.false_eq_true, if_false, Option.some.injEq,
      Number.whole.injEq]
    omega
  · rw [ofInt, decide_eq_false h, value?]
    simp only [ha, hs, Bool.not_false, if_true, Option.some.injEq, Number.whole.injEq]
    omega

end Numeral

/-! ### Tokens of a value -/

namespace Json

mutual

/-- Every number of the value is a whole number that fits into a word. -/
def IsPlain : Json → Prop
  | .number (.whole n) => -(twoTo 63 : Int) ≤ n ∧ n < (twoTo 64 : Int)
  | .number (.float _) => False
  | .array items => ArePlain items
  | .object fields => AllPlain fields
  | .null | .bool _ | .string _ => True

/-- Every item is plain. -/
def ArePlain : List Json → Prop
  | [] => True
  | item :: items => IsPlain item ∧ ArePlain items

/-- The value of every field is plain. -/
def AllPlain : List (String × Json) → Prop
  | [] => True
  | (_, value) :: fields => IsPlain value ∧ AllPlain fields

end

theorem arePlain_iff {items : List Json} : ArePlain items ↔ ∀ v ∈ items, IsPlain v := by
  induction items with
  | nil => simp [ArePlain]
  | cons v items ih => simp [ArePlain, ih]

theorem allPlain_iff {fields : List (String × Json)} : AllPlain fields ↔ ∀ f ∈ fields, IsPlain f.2 := by
  induction fields with
  | nil => simp [AllPlain]
  | cons f fields ih => simp [AllPlain, ih]

mutual

/-- The tokens that a value is written with. -/
def tokensOf : Json → List Token
  | .null => [.null]
  | .bool b => [.bool b]
  | .number (.whole n) => [.number (Numeral.ofInt n)]
  | .number (.float _) => []
  | .string s => [.text (some s)]
  | .array [] => [.mark '[', .mark ']']
  | .array (item :: items) => .mark '[' :: tokensOf item ++ itemTokens items ++ [.mark ']']
  | .object [] => [.mark '\x7b', .mark '\x7d']
  | .object ((key, value) :: fields) =>
    .mark '\x7b' :: .text (some key) :: .mark ':' :: tokensOf value ++ fieldTokens fields ++
      [.mark '\x7d']

/-- The tokens of the items after the first. -/
def itemTokens : List Json → List Token
  | [] => []
  | item :: items => .mark ',' :: tokensOf item ++ itemTokens items

/-- The tokens of the fields after the first. -/
def fieldTokens : List (String × Json) → List Token
  | [] => []
  | (key, value) :: fields =>
    .mark ',' :: .text (some key) :: .mark ':' :: tokensOf value ++ fieldTokens fields

end

/-! ### The scanner -/

namespace Scanner

/-- Reads the characters in turn, and ends the token under way. -/
def finish? (s : Scanner) (cs : List Char) : Option Scanner := (s.run? cs).bind close?

theorem finish?_cons (s : Scanner) (c : Char) (cs : List Char) :
    s.finish? (c :: cs) = (s.step? c).bind fun s' => s'.finish? cs := by
  rw [finish?, run?]
  cases s.step? c <;> rfl

/-- What follows a number or a word without being part of it: nothing, or another character. -/
def Stops : List Char → Prop
  | [] => True
  | c :: _ => inNumeral c = false ∧ c.isLower = false

/-- A character that may end a numeral or a word. -/
theorem stops_cons {c : Char} {cs : List Char} (h : inNumeral c = false ∧ c.isLower = false) :
    Stops (c :: cs) := h

/-- A number or a word that is under way is ended by what cannot be part of it. -/
theorem finish?_of_close {s : Scanner} {t : Token} {rest : List Char}
    (hc : s.close? = some (s.emit t))
    (hs : ∀ c cs, rest = c :: cs → s.step? c = s.close?.bind (·.begin? c)) :
    s.finish? rest = (s.emit t).finish? rest := by
  cases rest with
  | nil =>
    rw [finish?, run?, Option.bind_some, hc]
    rfl
  | cons c cs =>
    rw [finish?_cons, finish?_cons, hs c cs rfl, hc]
    rfl

theorem finish?_mark {c : Char} (h : c ∈ ['\x7b', '\x7d', '[', ']', ':', ',']) (r : List Token)
    (rest : List Char) :
    finish? ⟨.between, r⟩ (c :: rest) = finish? ⟨.between, .mark c :: r⟩ rest := by
  have hb : begin? ⟨.between, r⟩ c = some ⟨.between, .mark c :: r⟩ := by
    simp only [List.mem_cons, List.not_mem_nil, or_false] at h
    rcases h with rfl | rfl | rfl | rfl | rfl | rfl <;> rfl
  rw [finish?_cons, step?, hb]
  rfl

theorem finish?_spaces (r : List Token) : ∀ (spaces rest : List Char),
    (∀ c ∈ spaces, isSpace c = true) →
    finish? ⟨.between, r⟩ (spaces ++ rest) = finish? ⟨.between, r⟩ rest
  | [], _, _ => rfl
  | c :: spaces, rest, h => by
    have hb : begin? ⟨.between, r⟩ c = some ⟨.between, r⟩ := by
      rw [begin?, h c List.mem_cons_self, if_pos rfl]
    rw [List.cons_append, finish?_cons, step?, hb]
    exact finish?_spaces r spaces rest fun d hd => h d (List.mem_cons_of_mem _ hd)

theorem finish?_newline (r : List Token) (level : Nat) (rest : List Char) :
    finish? ⟨.between, r⟩ ((newline level).toList ++ rest) = finish? ⟨.between, r⟩ rest := by
  refine finish?_spaces r _ rest fun c hc => ?_
  rw [newline, String.toList_ofList, List.mem_cons, List.mem_replicate] at hc
  rcases hc with rfl | ⟨_, rfl⟩ <;> rfl

theorem finish?_numeral {n : Numeral} {rest : List Char} (hr : Stops rest) (r : List Token) :
    ∀ (cs read : List Char), (∀ c ∈ cs, inNumeral c = true) →
    Numeral.ofChars? (read.reverse ++ cs) = some n →
    finish? ⟨.number read, r⟩ (cs ++ rest) = finish? ⟨.between, .number n :: r⟩ rest
  | [], read, _, hn => by
    rw [List.append_nil] at hn
    refine finish?_of_close (t := .number n) ?_ fun c cs hc => ?_
    · rw [close?]
      simp only [hn]
      rfl
    · subst hc
      rw [step?]
      simp only [hr.1, Bool.false_eq_true, if_false]
  | c :: cs, read, hcs, hn => by
    rw [List.cons_append, finish?_cons, step?]
    simp only [hcs c List.mem_cons_self, if_true, Option.bind_some]
    refine finish?_numeral hr r cs (c :: read) (fun d hd => hcs d (List.mem_cons_of_mem _ hd)) ?_
    rwa [List.reverse_cons, List.append_assoc, List.singleton_append]

theorem finish?_word {t : Token} {rest : List Char} (hr : Stops rest) (r : List Token) :
    ∀ (cs read : List Char), (∀ c ∈ cs, c.isLower = true) → literal? (read.reverse ++ cs) = some t →
    finish? ⟨.word read, r⟩ (cs ++ rest) = finish? ⟨.between, t :: r⟩ rest
  | [], read, _, ht => by
    rw [List.append_nil] at ht
    refine finish?_of_close (t := t) ?_ fun c cs hc => ?_
    · rw [close?]
      simp only [ht]
      rfl
    · subst hc
      rw [step?]
      simp only [hr.2, Bool.false_eq_true, if_false]
  | c :: cs, read, hcs, ht => by
    rw [List.cons_append, finish?_cons, step?]
    simp only [hcs c List.mem_cons_self, if_true, Option.bind_some]
    refine finish?_word hr r cs (c :: read) (fun d hd => hcs d (List.mem_cons_of_mem _ hd)) ?_
    rwa [List.reverse_cons, List.append_assoc, List.singleton_append]

/-- The word of a literal is read as the literal. -/
theorem finish?_literal {w : String} {t : Token} {r : List Token} {rest : List Char} (hr : Stops rest)
    (hw : ∀ c ∈ w.toList, c.isLower = true) (ht : literal? w.toList = some t)
    (hb : w.toList.head?.bind (begin? ⟨.between, r⟩) =
      w.toList.head?.map fun c => ⟨.word [c], r⟩) :
    finish? ⟨.between, r⟩ (w.toList ++ rest) = finish? ⟨.between, t :: r⟩ rest := by
  cases hc : w.toList with
  | nil => rw [hc] at ht; cases ht
  | cons c cs =>
    rw [hc] at hw ht hb
    have hb : begin? ⟨.between, r⟩ c = some ⟨.word [c], r⟩ := hb
    rw [List.cons_append, finish?_cons, step?, hb]
    exact finish?_word hr r cs [c] (fun d hd => hw d (List.mem_cons_of_mem _ hd)) ht

theorem begin?_digit {c : Char} (h : c.isDigit = true ∨ c = '-') (r : List Token) :
    begin? ⟨.between, r⟩ c = some ⟨.number [c], r⟩ := by
  rcases h with h | rfl
  · have hne : ∀ d : Char, d.isDigit = false → (c == d) = false := by
      intro d hd
      rw [beq_eq_false_iff_ne]
      rintro rfl
      rw [h] at hd
      cases hd
    simp [begin?, isSpace, hne, h]
  · rfl

theorem inNumeral_of_isDigit {c : Char} (h : c.isDigit = true) : inNumeral c = true := by
  simp [inNumeral, h]

/-- A whole number is read as its numeral. -/
theorem finish?_intText (n : Int) (r : List Token) {rest : List Char} (hr : Stops rest) :
    finish? ⟨.between, r⟩ ((intText n).toList ++ rest) =
      finish? ⟨.between, .number (Numeral.ofInt n) :: r⟩ rest := by
  have hn := Numeral.ofChars?_intText n
  have hdigits : ∀ c ∈ (Binary64.decimalText n.natAbs).toList, c.isDigit = true := by
    intro c hc
    rw [Binary64.decimalText, String.toList_ofList] at hc
    exact Nat.isDigit_of_mem_toDigits (by decide) (by decide) hc
  have hshape : ∃ c cs, (intText n).toList = c :: cs ∧ (c.isDigit = true ∨ c = '-') ∧
      ∀ d ∈ cs, d.isDigit = true := by
    rw [intText]
    split
    · exact ⟨'-', _, by rw [String.toList_append]; rfl, .inr rfl, hdigits⟩
    · cases hd : (Binary64.decimalText n.natAbs).toList with
      | nil =>
        rw [Binary64.decimalText, String.toList_ofList] at hd
        exact absurd hd Nat.toDigits_ne_nil
      | cons c cs =>
        rw [hd] at hdigits
        exact ⟨c, cs, rfl, .inl (hdigits c List.mem_cons_self),
          fun d hd => hdigits d (List.mem_cons_of_mem _ hd)⟩
  obtain ⟨c, cs, he, hc, hcs⟩ := hshape
  rw [he] at hn ⊢
  rw [List.cons_append, finish?_cons, step?, begin?_digit hc]
  exact finish?_numeral hr r cs [c] (fun d hd => inNumeral_of_isDigit (hcs d hd)) hn

/-! ### Texts -/

/-- The piece that a character of a text is read as. -/
def pieceOf (c : Char) : Piece :=
  if c.toNat < 0x20 ∧ c.toNat ∉ [8, 9, 10, 12, 13] then .unit c.toNat else .char c

theorem hexValue?_hexDigit : ∀ d < 16, hexValue? (hexDigit d) = some d := by decide

theorem eq_ofNat {c : Char} {n : Nat} (h : c.toNat = n) : c = Char.ofNat n := by
  rw [← h, Char.ofNat_toNat]

/-- One escaped character is read as one piece. -/
theorem finish?_escapeChar (c : Char) (read : List Piece) (r : List Token) (rest : List Char) :
    finish? ⟨.text read, r⟩ (escapeChar c ++ rest) = finish? ⟨.text (pieceOf c :: read), r⟩ rest := by
  unfold escapeChar
  by_cases h1 : c = '"'
  · subst h1; rfl
  by_cases h2 : c = '\\'
  · subst h2; rfl
  by_cases h3 : c = '\n'
  · subst h3; rfl
  by_cases h4 : c = '\r'
  · subst h4; rfl
  by_cases h5 : c = '\t'
  · subst h5; rfl
  by_cases h6 : c.toNat = 8
  · obtain rfl := eq_ofNat h6; rfl
  by_cases h7 : c.toNat = 12
  · obtain rfl := eq_ofNat h7; rfl
  have h3' : c.toNat ≠ 10 := fun h => h3 (eq_ofNat h)
  have h4' : c.toNat ≠ 13 := fun h => h4 (eq_ofNat h)
  have h5' : c.toNat ≠ 9 := fun h => h5 (eq_ofNat h)
  simp only [beq_iff_eq, h1, h2, h3, h4, h5, h6, h7, if_false]
  by_cases h8 : c.toNat < 0x20
  · -- a control character without a short escape, written with four digits
    have hpiece : pieceOf c = .unit c.toNat := by
      rw [pieceOf, if_pos]
      simp [h8, h3', h4', h5', h6, h7]
    have hhigh := hexValue?_hexDigit (c.toNat / 16) (by omega)
    have hlow := hexValue?_hexDigit (c.toNat % 16) (by omega)
    have hval : c.toNat / 16 * 16 + c.toNat % 16 = c.toNat := by omega
    have h0 : hexValue? '0' = some 0 := rfl
    rw [if_pos h8, hpiece]
    simp only [List.cons_append, List.nil_append, finish?_cons, step?]
    simp [shortEscape?, h0, hhigh, hlow, hval]
  · have hpiece : pieceOf c = .char c := by
      rw [pieceOf, if_neg]
      omega
    have hq : (c == '"') = false := by simpa using h1
    have hb : (c == '\\') = false := by simpa using h2
    rw [if_neg h8, hpiece, List.singleton_append, finish?_cons, step?]
    simp only [hq, hb, h8, Bool.false_eq_true, if_false, Option.bind_some]

theorem finish?_escaped (r : List Token) (rest : List Char) : ∀ (cs : List Char) (read : List Piece),
    finish? ⟨.text read, r⟩ (cs.flatMap escapeChar ++ '"' :: rest) =
      finish? ⟨.between, .text ((joinPieces (read.reverse ++ cs.map pieceOf)).map String.ofList) :: r⟩
        rest
  | [], read => by
    rw [List.flatMap_nil, List.nil_append, finish?_cons, List.map_nil, List.append_nil]
    rfl
  | c :: cs, read => by
    rw [List.flatMap_cons, List.append_assoc, finish?_escapeChar, finish?_escaped r rest cs,
      List.reverse_cons, List.map_cons, List.append_assoc, List.singleton_append]

theorem joinPieces_unit {u : Nat} (h : u < 0x20) (rest : List Piece) :
    joinPieces (.unit u :: rest) = (joinPieces rest).map (Char.ofNat u :: ·) := by
  have hh : isHighHalf u = false := by
    rw [isHighHalf, Bool.and_eq_false_iff]
    exact .inl (by simp; omega)
  have hl : isLowHalf u = false := by
    rw [isLowHalf, Bool.and_eq_false_iff]
    exact .inl (by simp; omega)
  cases rest with
  | nil => simp [joinPieces, hh, hl]
  | cons p rest => cases p <;> simp [joinPieces, hh, hl]

theorem joinPieces_pieceOf : ∀ cs : List Char, joinPieces (cs.map pieceOf) = some cs
  | [] => rfl
  | c :: cs => by
    rw [List.map_cons, pieceOf]
    split
    · rename_i h
      rw [joinPieces_unit h.1, joinPieces_pieceOf cs, Option.map_some, Char.ofNat_toNat]
    · rw [joinPieces, joinPieces_pieceOf cs, Option.map_some]

/-- A quoted text is read as the text. -/
theorem finish?_quote (s : String) (r : List Token) (rest : List Char) :
    finish? ⟨.between, r⟩ ((quote s).toList ++ rest) =
      finish? ⟨.between, .text (some s) :: r⟩ rest := by
  have hq : (quote s).toList ++ rest = '"' :: (s.toList.flatMap escapeChar ++ '"' :: rest) := by
    rw [quote, String.toList_ofList, quoteChars]
    simp
  have hb : begin? ⟨.between, r⟩ '"' = some ⟨.text [], r⟩ := rfl
  rw [hq, finish?_cons, step?, hb]
  show finish? ⟨.text [], r⟩ _ = _
  rw [finish?_escaped, List.reverse_nil, List.nil_append, joinPieces_pieceOf, Option.map_some,
    String.ofList_toList]

/-! ### Values -/

theorem stops_newline (level : Nat) (rest : List Char) : Stops ((newline level).toList ++ rest) := by
  rw [newline, String.toList_ofList]
  exact stops_cons (by decide)

theorem stops_items {level : Nat} {rest : List Char} (hr : Stops rest) (items : List Json) :
    Stops ((prettyItems level items).toList ++ rest) := by
  cases items with
  | nil => exact hr
  | cons item items =>
    rw [prettyItems]
    simp only [String.toList_append, List.append_assoc]
    exact stops_cons (by decide)

theorem stops_fields {level : Nat} {rest : List Char} (hr : Stops rest)
    (fields : List (String × Json)) : Stops ((prettyFields level fields).toList ++ rest) := by
  cases fields with
  | nil => exact hr
  | cons f fields =>
    rw [prettyFields]
    simp only [String.toList_append, List.append_assoc]
    exact stops_cons (by decide)

mutual

/-- A value written over several lines is read as its tokens. -/
theorem finish?_prettyAt : ∀ (v : Json) (level : Nat) (r : List Token) (rest : List Char),
    IsPlain v → Stops rest → finish? ⟨.between, r⟩ ((prettyAt level v).toList ++ rest) =
      finish? ⟨.between, (tokensOf v).reverse ++ r⟩ rest
  | .null, _, r, rest, _, hr => finish?_literal (w := "null") hr (List.all_eq_true.mp rfl) rfl rfl
  | .bool true, _, r, rest, _, hr => finish?_literal (w := "true") hr (List.all_eq_true.mp rfl) rfl rfl
  | .bool false, _, r, rest, _, hr => finish?_literal (w := "false") hr (List.all_eq_true.mp rfl) rfl rfl
  | .number (.whole n), _, r, rest, _, hr => finish?_intText n r hr
  | .number (.float _), _, _, _, h, _ => h.elim
  | .string s, _, r, rest, _, _ => finish?_quote s r rest
  | .array [], _, r, rest, _, _ => by
    rw [prettyAt, show "[]".toList ++ rest = '[' :: ']' :: rest from rfl,
      finish?_mark (by decide), finish?_mark (by decide)]
    rfl
  | .array (item :: items), level, r, rest, h, hr => by
    obtain ⟨hi, his⟩ := h
    rw [prettyAt, tokensOf]
    simp only [String.toList_append, List.append_assoc, List.reverse_append, List.reverse_cons,
      List.reverse_nil, List.nil_append, List.cons_append]
    rw [show "[".toList = ['['] from rfl, List.singleton_append, finish?_mark (by decide),
      finish?_newline, finish?_prettyAt item (level + 1) _ _ hi (stops_items (stops_newline level _) items),
      finish?_prettyItems items level _ _ his (stops_newline level _), finish?_newline,
      show "]".toList = [']'] from rfl, List.singleton_append, finish?_mark (by decide)]
  | .object [], _, r, rest, _, _ => by
    rw [prettyAt, show "\x7b\x7d".toList ++ rest = '\x7b' :: '\x7d' :: rest from rfl,
      finish?_mark (by decide), finish?_mark (by decide)]
    rfl
  | .object ((key, value) :: fields), level, r, rest, h, hr => by
    obtain ⟨hv, hvs⟩ := h
    rw [prettyAt, tokensOf]
    simp only [String.toList_append, List.append_assoc, List.reverse_append, List.reverse_cons,
      List.reverse_nil, List.nil_append, List.cons_append]
    rw [show "\x7b".toList = ['\x7b'] from rfl, List.singleton_append, finish?_mark (by decide),
      finish?_newline, finish?_quote, show ": ".toList = [':', ' '] from rfl, List.cons_append,
      finish?_mark (by decide), finish?_spaces _ [' '] _ (List.all_eq_true.mp rfl),
      finish?_prettyAt value (level + 1) _ _ hv (stops_fields (stops_newline level _) fields),
      finish?_prettyFields fields level _ _ hvs (stops_newline level _), finish?_newline,
      show "\x7d".toList = ['\x7d'] from rfl, List.singleton_append, finish?_mark (by decide)]

theorem finish?_prettyItems : ∀ (items : List Json) (level : Nat) (r : List Token)
    (rest : List Char), ArePlain items → Stops rest →
    finish? ⟨.between, r⟩ ((prettyItems level items).toList ++ rest) =
      finish? ⟨.between, (itemTokens items).reverse ++ r⟩ rest
  | [], _, _, _, _, _ => rfl
  | item :: items, level, r, rest, h, hr => by
    obtain ⟨hi, his⟩ := h
    rw [prettyItems, itemTokens]
    simp only [String.toList_append, List.append_assoc, List.reverse_append, List.reverse_cons,
      List.nil_append, List.cons_append]
    rw [show ",".toList = [','] from rfl, List.singleton_append, finish?_mark (by decide),
      finish?_newline, finish?_prettyAt item (level + 1) _ _ hi (stops_items hr items),
      finish?_prettyItems items level _ _ his hr]

theorem finish?_prettyFields : ∀ (fields : List (String × Json)) (level : Nat) (r : List Token)
    (rest : List Char), AllPlain fields → Stops rest →
    finish? ⟨.between, r⟩ ((prettyFields level fields).toList ++ rest) =
      finish? ⟨.between, (fieldTokens fields).reverse ++ r⟩ rest
  | [], _, _, _, _, _ => rfl
  | (key, value) :: fields, level, r, rest, h, hr => by
    obtain ⟨hv, hvs⟩ := h
    rw [prettyFields, fieldTokens]
    simp only [String.toList_append, List.append_assoc, List.reverse_append, List.reverse_cons,
      List.nil_append, List.cons_append]
    rw [show ",".toList = [','] from rfl, List.singleton_append, finish?_mark (by decide),
      finish?_newline, finish?_quote, show ": ".toList = [':', ' '] from rfl, List.cons_append,
      finish?_mark (by decide), finish?_spaces _ [' '] _ (List.all_eq_true.mp rfl),
      finish?_prettyAt value (level + 1) _ _ hv (stops_fields hr fields),
      finish?_prettyFields fields level _ _ hvs hr]

end

end Scanner

theorem tokens?_pretty {v : Json} (h : IsPlain v) : tokens? v.pretty = some (tokensOf v) := by
  have := Scanner.finish?_prettyAt v 0 [] [] h trivial
  rw [List.append_nil, List.append_nil] at this
  rw [tokens?, show (Scanner.start.run? v.pretty.toList).bind Scanner.close? =
    Scanner.finish? ⟨.between, []⟩ (prettyAt 0 v).toList from rfl, this]
  show some (tokensOf v).reverse.reverse = _
  rw [List.reverse_reverse]

end Json

/-! ### The builder -/

namespace Document

namespace Builder

theorem run?_cons (b : Builder) (t : Json.Token) (ts : List Json.Token) :
    b.run? (t :: ts) = (b.step? t).bind (run? · ts) := rfl

/-- Where a value may begin. -/
def AtValue (e : Expect) : Prop := e = .value ∨ e = .valueOrClose

theorem step?_atValue {frames : List Frame} {e : Expect} (he : AtValue e) {t : Json.Token}
    (ht : t ≠ .mark ']') : step? ⟨frames, e⟩ t = value? frames t := by
  rcases he with rfl | rfl
  · rfl
  · simp [step?, ht]

open Json in
mutual

/-- The tokens of a value are read as the document of the value. -/
theorem run?_tokensOf : ∀ (v : Json) (frames : List Frame) (e : Expect) (ts : List Json.Token),
    IsPlain v → AtValue e → run? ⟨frames, e⟩ (tokensOf v ++ ts) =
      (complete frames (ofJson v)).bind (run? · ts)
  | .null, frames, e, ts, _, he => by
    rw [tokensOf, List.singleton_append, run?_cons, step?_atValue he (by decide)]
    rfl
  | .bool b, frames, e, ts, _, he => by
    rw [tokensOf, List.singleton_append, run?_cons, step?_atValue he (by simp)]
    rfl
  | .number (.whole n), frames, e, ts, h, he => by
    rw [tokensOf, List.singleton_append, run?_cons, step?_atValue he (by simp), value?,
      Numeral.value?_ofInt h.1 h.2]
    rfl
  | .number (.float _), _, _, _, h, _ => h.elim
  | .string s, frames, e, ts, _, he => by
    rw [tokensOf, List.singleton_append, run?_cons, step?_atValue he (by simp)]
    rfl
  | .array [], frames, e, ts, _, he => by
    rw [tokensOf, List.cons_append, run?_cons, step?_atValue he (by decide)]
    rfl
  | .array (item :: items), frames, e, ts, h, he => by
    rw [tokensOf, List.cons_append, List.cons_append, List.cons_append, run?_cons,
      step?_atValue he (by decide), List.append_assoc, List.append_assoc]
    show run? ⟨.list [] :: frames, .valueOrClose⟩ _ = _
    rw [run?_tokensOf item _ _ _ h.1 (.inr rfl)]
    show run? ⟨.list [ofJson item] :: frames, .next⟩ _ = _
    rw [run?_itemTokens items _ _ _ h.2, List.singleton_append, run?_cons]
    show (complete frames (.list ((ofJsonItems items).reverse ++ [ofJson item]).reverse)).bind _ = _
    rw [List.reverse_append, List.reverse_reverse, List.reverse_singleton, List.singleton_append]
    rfl
  | .object [], frames, e, ts, _, he => by
    rw [tokensOf, List.cons_append, run?_cons, step?_atValue he (by decide)]
    rfl
  | .object ((key, value) :: fields), frames, e, ts, h, he => by
    rw [tokensOf]
    simp only [List.cons_append, List.append_assoc, List.nil_append]
    rw [run?_cons, step?_atValue he (by decide)]
    show run? ⟨.field [] (some key) :: frames, .value⟩ _ = _
    rw [run?_tokensOf value _ _ _ h.1 (.inl rfl)]
    show run? ⟨.record [(some key, ofJson value)] :: frames, .next⟩ _ = _
    rw [run?_fieldTokens fields _ _ _ h.2, run?_cons]
    show (complete frames (.record
      ((ofJsonFields fields).reverse ++ [(some key, ofJson value)]).reverse)).bind _ = _
    rw [List.reverse_append, List.reverse_reverse, List.reverse_singleton, List.singleton_append]
    rfl

theorem run?_itemTokens : ∀ (items : List Json) (read : List Document) (frames : List Frame)
    (ts : List Json.Token), ArePlain items →
    run? ⟨.list read :: frames, .next⟩ (itemTokens items ++ ts) =
      run? ⟨.list ((ofJsonItems items).reverse ++ read) :: frames, .next⟩ ts
  | [], _, _, _, _ => rfl
  | item :: items, read, frames, ts, h => by
    rw [itemTokens, List.cons_append, List.cons_append, run?_cons, List.append_assoc]
    show run? ⟨.list read :: frames, .value⟩ _ = _
    rw [run?_tokensOf item _ _ _ h.1 (.inl rfl)]
    show run? ⟨.list (ofJson item :: read) :: frames, .next⟩ _ = _
    rw [run?_itemTokens items _ _ _ h.2, ofJsonItems, List.reverse_cons, List.append_assoc,
      List.singleton_append]

theorem run?_fieldTokens : ∀ (fields : List (String × Json)) (read : List (Option String × Document))
    (frames : List Frame) (ts : List Json.Token), AllPlain fields →
    run? ⟨.record read :: frames, .next⟩ (fieldTokens fields ++ ts) =
      run? ⟨.record ((ofJsonFields fields).reverse ++ read) :: frames, .next⟩ ts
  | [], _, _, _, _ => rfl
  | (key, value) :: fields, read, frames, ts, h => by
    rw [fieldTokens]
    simp only [List.cons_append, List.append_assoc]
    show run? ⟨.field read (some key) :: frames, .value⟩ _ = _
    rw [run?_tokensOf value _ _ _ h.1 (.inl rfl)]
    show run? ⟨.record ((some key, ofJson value) :: read) :: frames, .next⟩ _ = _
    rw [run?_fieldTokens fields _ _ _ h.2, ofJsonFields, List.reverse_cons, List.append_assoc,
      List.singleton_append]

end

end Builder

theorem ofTokens?_tokensOf {v : Json} (h : v.IsPlain) : ofTokens? v.tokensOf = some (ofJson v) := by
  have := Builder.run?_tokensOf v [] .value [] h (.inl rfl)
  rw [List.append_nil] at this
  rw [ofTokens?, Builder.start, this]
  rfl

/-- A plain value is read back from its text. -/
theorem parse?_pretty {v : Json} (h : v.IsPlain) : parse? v.pretty = some (ofJson v) := by
  rw [parse?, Json.tokens?_pretty h, Option.bind_some, ofTokens?_tokensOf h]

end Document

end CodeAtlas
