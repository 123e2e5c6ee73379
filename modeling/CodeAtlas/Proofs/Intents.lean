/-
# More words, an earlier intent

A pattern asks of its surroundings no more than whether a word goes on there, and the end of a text counts as
a character that is no part of a word. So a pattern that occurs in a text still occurs where other words stand
before or after it with a blank between (`Pattern.occursFrom_append`, `Pattern.occursFrom_behind`). A question
is taken for the first intent with a pattern that occurs in it, and with more words that can only be an
earlier one (`Intent.position_classify_le`).

Key definitions: `Pattern.Extends`, `Pattern.Regards`, `Intent.position`, `Intent.First`.
Key theorems: `Pattern.extends_then`, `Pattern.regards_then`, `Pattern.occursFrom_append`,
`Pattern.occursFrom_behind`, `Intent.first_classify`, `Intent.position_classify_le`.
-/
import CodeAtlas.Query.Intent

namespace CodeAtlas

namespace Pattern

/-! ### What comes after -/

/-- What matches some characters matches them with more after them. -/
def Extends (more : List Char) (next : Rest) : Prop :=
  ∀ before cs, next before cs = true → next before (cs ++ more) = true

section Extends

variable {more : List Char} {next : Rest}

theorem extends_literal (h : Extends more next) (ls : List Char) : Extends more (literal next ls) := by
  intro before cs hmatch
  induction ls generalizing before cs with
  | nil => exact h before cs hmatch
  | cons l ls ih =>
    cases cs with
    | nil => cases hmatch
    | cons c cs =>
      simp only [literal, Bool.and_eq_true] at hmatch
      simp only [List.cons_append, literal, Bool.and_eq_true]
      exact ⟨hmatch.1, ih (some c) cs hmatch.2⟩

theorem skip_append (h : Extends more next) : ∀ {cs : List Char}, skip next cs = true →
    skip next (cs ++ more) = true
  | [], hmatch => by cases hmatch
  | c :: cs, hmatch => by
    simp only [skip, Bool.and_eq_true, Bool.or_eq_true] at hmatch
    simp only [List.cons_append, skip, Bool.and_eq_true, Bool.or_eq_true]
    obtain ⟨hline, hnow | hlater⟩ := hmatch
    · exact ⟨hline, .inl (h (some c) cs hnow)⟩
    · exact ⟨hline, .inr (skip_append h hlater)⟩

/-- Where no word goes on after the characters, it makes no difference to their first one that they end. -/
theorem isWord_head?_append (hmore : isWord more.head? = false) (cs : List Char) :
    isWord (cs ++ more).head? = isWord cs.head? := by
  cases cs with
  | nil => exact hmore
  | cons c cs => rfl

theorem extends_then (hmore : isWord more.head? = false) (h : Extends more next) (part : Part) :
    Extends more (part.then next) := by
  intro before cs hmatch
  cases part with
  | edge =>
    simp only [Part.then, Bool.and_eq_true] at hmatch ⊢
    rw [isWord_head?_append hmore]
    exact ⟨hmatch.1, h before cs hmatch.2⟩
  | text s => exact extends_literal h s.toList before cs hmatch
  | oneOf options =>
    simp only [Part.then, List.any_eq_true] at hmatch ⊢
    obtain ⟨s, hs, hmatch⟩ := hmatch
    exact ⟨s, hs, extends_literal h s.toList before cs hmatch⟩
  | gap => exact skip_append h hmatch

theorem extends_beginsAt (hmore : isWord more.head? = false) (p : Pattern) :
    Extends more p.beginsAt := by
  induction p with
  | nil => exact fun _ _ _ => rfl
  | cons part p ih => exact extends_then hmore ih part

end Extends

/-- A pattern still occurs where the characters go on with something else than a word. -/
theorem occursFrom_append {p : Pattern} {more : List Char} (hmore : isWord more.head? = false) :
    ∀ {cs : List Char} {before : Option Char}, p.occursFrom before cs = true →
      p.occursFrom before (cs ++ more) = true
  | [], before, h => by
    have hbegins := extends_beginsAt hmore p before [] h
    rw [List.nil_append] at hbegins ⊢
    cases more with
    | nil => exact hbegins
    | cons c more => simp [occursFrom, hbegins]
  | c :: cs, before, h => by
    rw [occursFrom, Bool.or_eq_true] at h
    rw [List.cons_append, occursFrom, Bool.or_eq_true]
    rcases h with hbegins | hlater
    · exact .inl (extends_beginsAt hmore p before (c :: cs) hbegins)
    · exact .inr (occursFrom_append hmore hlater)

/-! ### What comes before -/

/-- What is left to match regards the character before only as part of a word or not. -/
def Regards (next : Rest) : Prop :=
  ∀ before before' cs, isWord before = isWord before' → next before cs = next before' cs

theorem regards_literal {next : Rest} (h : Regards next) (ls : List Char) : Regards (literal next ls) := by
  intro before before' cs hword
  cases ls with
  | nil => exact h before before' cs hword
  | cons l ls => cases cs <;> rfl

theorem regards_then {next : Rest} (h : Regards next) (part : Part) : Regards (part.then next) := by
  intro before before' cs hword
  cases part with
  | edge => rw [Part.then, Part.then, hword, h before before' cs hword]
  | text s => exact regards_literal h s.toList before before' cs hword
  | oneOf options =>
    simp only [Part.then]
    congr 1
    funext s
    exact regards_literal h s.toList before before' cs hword
  | gap => rfl

theorem regards_beginsAt (p : Pattern) : Regards p.beginsAt := by
  induction p with
  | nil => exact fun _ _ _ _ => rfl
  | cons part p ih => exact regards_then ih part

theorem regards_occursFrom (p : Pattern) : Regards p.occursFrom := by
  intro before before' cs hword
  cases cs with
  | nil => exact regards_beginsAt p before before' [] hword
  | cons c cs => rw [occursFrom, occursFrom, regards_beginsAt p before before' (c :: cs) hword]

/-- A pattern that occurs in a text occurs behind a character that is no part of a word. -/
theorem occursFrom_behind {p : Pattern} {sep : Char} {cs : List Char}
    (hsep : Text.isWordChar sep = false) (h : p.occursFrom none cs = true) :
    ∀ (front : List Char) (before : Option Char), p.occursFrom before (front ++ sep :: cs) = true
  | [], before => by
    have hsame : p.occursFrom (some sep) cs = p.occursFrom none cs :=
      regards_occursFrom p (some sep) none cs hsep
    rw [List.nil_append, occursFrom, hsame, h, Bool.or_true]
  | c :: front, before => by
    rw [List.cons_append, occursFrom, occursFrom_behind hsep h front (some c), Bool.or_true]

end Pattern

namespace Intent

/-! ### The first intent of the table -/

/-- The place of an intent in the table, where the unknown one is last. -/
def position (i : Intent) : Nat := all.idxOf i

theorem position_le_unknown (i : Intent) : position i ≤ position .unknown := by
  cases i <;> decide

/-- The first intent of the table that a text asks for, and the unknown one for a text that asks for none. -/
structure First (text : String) (i : Intent) : Prop where
  asked : i = .unknown ∨ isAskedBy text i = true
  least : ∀ j, isAskedBy text j = true → position i ≤ position j

/-- What is found in a list stands no later than anything that could have been found. -/
theorem idxOf_le_of_find? {l : List Intent} {p : Intent → Bool} {i j : Intent}
    (hi : l.find? p = some i) (hj : p j = true) : l.idxOf i ≤ l.idxOf j := by
  induction l with
  | nil => cases hi
  | cons k l ih =>
    by_cases hk : p k = true
    · have hki : k = i := by simpa [List.find?_cons, hk] using hi
      simp [hki]
    · have hkj : k ≠ j := fun h => hk (h ▸ hj)
      have htail : l.find? p = some i := by simpa [List.find?_cons, hk] using hi
      have hki : k ≠ i := fun h => hk (h ▸ List.find?_some htail)
      simp only [List.idxOf_cons, beq_eq_false_iff_ne.mpr hki, beq_eq_false_iff_ne.mpr hkj, cond_false]
      have := ih htail
      omega

theorem first_classify (text : String) : First text (classify text) := by
  unfold classify
  cases hfind : all.find? (isAskedBy text) with
  | none =>
    refine ⟨.inl rfl, fun j hj => ?_⟩
    have hmem : j ∈ all := by cases j <;> decide
    exact absurd hj (List.find?_eq_none.mp hfind j hmem)
  | some i => exact ⟨.inr (List.find?_some hfind), fun j hj => idxOf_le_of_find? hfind hj⟩

/-- A text that asks for no less than another has an intent that stands no later. -/
theorem First.position_le {s t : String} {i j : Intent} (hi : First s i) (hj : First t j)
    (hmore : ∀ k, isAskedBy s k = true → isAskedBy t k = true) : position j ≤ position i := by
  rcases hi.asked with rfl | hasked
  · exact position_le_unknown j
  · exact hj.least i (hmore i hasked)

/-! ### Words before and after -/

theorem isWordChar_blank : Text.isWordChar ' ' = false := by decide

theorem toList_join (a b : String) : (a ++ " " ++ b).toList = a.toList ++ ' ' :: b.toList := by
  simp

theorem isAskedBy_join_left {a : String} {i : Intent} (h : isAskedBy a i = true) (b : String) :
    isAskedBy (a ++ " " ++ b) i = true := by
  obtain ⟨p, hp, hoccurs⟩ := List.any_eq_true.mp h
  refine List.any_eq_true.mpr ⟨p, hp, ?_⟩
  rw [Pattern.occursIn, toList_join]
  have hblank : Pattern.isWord (' ' :: b.toList).head? = false := isWordChar_blank
  exact Pattern.occursFrom_append hblank hoccurs

theorem isAskedBy_join_right (a : String) {b : String} {i : Intent} (h : isAskedBy b i = true) :
    isAskedBy (a ++ " " ++ b) i = true := by
  obtain ⟨p, hp, hoccurs⟩ := List.any_eq_true.mp h
  refine List.any_eq_true.mpr ⟨p, hp, ?_⟩
  rw [Pattern.occursIn, toList_join]
  exact Pattern.occursFrom_behind isWordChar_blank hoccurs a.toList none

/-- Two texts with a blank between are taken for the first intent that the whole asks for, and it stands in the
table no later than the intent of either. -/
theorem position_classify_le (a b : String) :
    First (a ++ " " ++ b) (classify (a ++ " " ++ b)) ∧
      position (classify (a ++ " " ++ b)) ≤ position (classify a) ∧
      position (classify (a ++ " " ++ b)) ≤ position (classify b) := by
  have hfirst := first_classify (a ++ " " ++ b)
  refine ⟨hfirst, ?_, ?_⟩
  · exact (first_classify a).position_le hfirst fun _ h => isAskedBy_join_left h b
  · exact (first_classify b).position_le hfirst fun _ h => isAskedBy_join_right a h

-- The place can be before both: here the pattern is found only across the blank.
example : classify "from main" = .unknown ∧ classify "to disk" = .unknown ∧
    classify ("from main" ++ " " ++ "to disk") = .analyzePath := by
  decide +kernel

end Intent

end CodeAtlas
