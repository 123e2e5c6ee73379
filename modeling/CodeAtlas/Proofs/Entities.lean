/-
# The entities of a question

What a question asks about is gathered from three lists: its quoted spans, its tokens that look like names in
code, and its other words. A text is taken where it first comes up, in whatever case, so one pass over all
three is a pass over each that leaves out what came up before (`Entity.unseen_append`). What a pass leaves is
told by where each text first comes up (`Entity.place`): exactly those that come up there in their own
spelling, in that order (`Entity.FirstSeen`).

Key definitions: `Entity.unseen`, `Entity.place`, `Entity.FirstSeen`, `Entity.quotes`, `Entity.Gathers`.
Key theorems: `Entity.distinct_eq_unseen`, `Entity.unseen_append`, `Entity.firstSeen_unseen`,
`Entity.candidates_eq`, `Entity.extract_gathers`.
-/
import CodeAtlas.Proofs.SortedMap
import CodeAtlas.Proofs.Tokens

namespace CodeAtlas.Entity

/-! ### Each text where it first comes up -/

/-- The texts in none of the forms seen, each in whatever case once. -/
def unseen : List String → List String → List String
  | _, [] => []
  | seen, t :: l =>
    if Text.lower t ∈ seen then unseen seen l else t :: unseen (Text.lower t :: seen) l

theorem distinct_eq_unseen (l : List String) : distinct l = unseen [] l := by
  -- the pass carries what it kept and the forms it has seen
  have hfold : ∀ (l : List String) (pass : List String × List String), (l.foldl (fun pass t =>
      if pass.2.contains (Text.lower t) then pass else (pass.1 ++ [t], Text.lower t :: pass.2))
      pass).1 = pass.1 ++ unseen pass.2 l := by
    intro l
    induction l with
    | nil => simp [unseen]
    | cons t l ih =>
      intro pass
      rw [List.foldl_cons, ih, unseen]
      by_cases ht : Text.lower t ∈ pass.2
      · rw [if_pos (List.contains_iff_mem.mpr ht), if_pos ht]
      · have hnew : ¬ pass.2.contains (Text.lower t) = true := by simpa using ht
        rw [if_neg hnew, if_neg ht, List.append_assoc, List.singleton_append]
  exact hfold l ([], [])

theorem unseen_congr {seen seen' : List String} (h : ∀ form, form ∈ seen ↔ form ∈ seen') :
    ∀ l, unseen seen l = unseen seen' l := by
  intro l
  induction l generalizing seen seen' with
  | nil => rfl
  | cons t l ih =>
    rw [unseen, unseen, ih h]
    have hmore : ∀ form, form ∈ Text.lower t :: seen ↔ form ∈ Text.lower t :: seen' := by
      intro form
      rw [List.mem_cons, List.mem_cons, h]
    simp only [h, ih hmore]

/-- A pass over two lists is a pass over each, where the first counts as seen for the second. -/
theorem unseen_append (l' : List String) : ∀ (l earlier : List String),
    unseen (earlier.map Text.lower) (l ++ l') =
      unseen (earlier.map Text.lower) l ++ unseen ((earlier ++ l).map Text.lower) l'
  | [], earlier => by simp [unseen]
  | t :: l, earlier => by
    rw [List.cons_append, unseen, unseen]
    by_cases ht : Text.lower t ∈ earlier.map Text.lower
    · rw [if_pos ht, if_pos ht, unseen_append l' l earlier]
      have hforms : ∀ form, form ∈ (earlier ++ l).map Text.lower ↔
          form ∈ (earlier ++ t :: l).map Text.lower := by
        intro form
        simp only [List.map_append, List.map_cons, List.mem_append, List.mem_cons]
        grind
      rw [unseen_congr hforms]
    · have hrest := unseen_append l' l (t :: earlier)
      rw [List.map_cons] at hrest
      rw [if_neg ht, if_neg ht, hrest]
      have hforms : ∀ form, form ∈ (t :: earlier ++ l).map Text.lower ↔
          form ∈ (earlier ++ t :: l).map Text.lower := by
        intro form
        simp only [List.map_append, List.map_cons, List.cons_append, List.mem_append, List.mem_cons]
        grind
      rw [unseen_congr hforms, List.cons_append]

/-- Where a text first comes up in a list, in whatever case. -/
def place (source : List String) (t : String) : Nat :=
  source.findIdx fun s => Text.lower s == Text.lower t

theorem place_cons_of_eq {s t : String} (h : Text.lower s = Text.lower t) (l : List String) :
    place (s :: l) t = 0 := by
  simp [place, List.findIdx_cons, h]

theorem place_cons_of_ne {s t : String} (h : Text.lower s ≠ Text.lower t) (l : List String) :
    place (s :: l) t = place l t + 1 := by
  have hb : (Text.lower s == Text.lower t) = false := by simpa using h
  simp [place, List.findIdx_cons, hb]

theorem place_congr {s t : String} (h : Text.lower s = Text.lower t) (l : List String) :
    place l s = place l t := by
  rw [place, place, h]

theorem mem_unseen_iff {e : String} : ∀ {l seen : List String},
    e ∈ unseen seen l ↔ l[place l e]? = some e ∧ Text.lower e ∉ seen
  | [], seen => by simp [unseen]
  | t :: l, seen => by
    rw [unseen]
    by_cases hte : Text.lower t = Text.lower e
    · rw [place_cons_of_eq hte, List.getElem?_cons_zero, Option.some.injEq, hte]
      by_cases hseen : Text.lower e ∈ seen
      · simp [hseen, mem_unseen_iff (l := l)]
      · simp [hseen, mem_unseen_iff (l := l), eq_comm]
    · rw [place_cons_of_ne hte, List.getElem?_cons_succ]
      have hne : e ≠ t := fun h => hte (h ▸ rfl)
      by_cases hseen : Text.lower t ∈ seen
      · rw [if_pos hseen, mem_unseen_iff]
      · simp [hseen, mem_unseen_iff (l := l), hne, Ne.symm hte]

theorem ascending_unseen : ∀ (l seen : List String),
    (unseen seen l).Pairwise fun a b => place l a < place l b
  | [], seen => .nil
  | t :: l, seen => by
    -- past the head, all that is left has another form than it, and comes up one place later
    have hlater : ∀ seen' : List String, Text.lower t ∈ seen' →
        (unseen seen' l).Pairwise (fun a b => place (t :: l) a < place (t :: l) b) ∧
          ∀ b ∈ unseen seen' l, 0 < place (t :: l) b := by
      intro seen' hseen
      have hne : ∀ b ∈ unseen seen' l, Text.lower t ≠ Text.lower b := by
        intro b hb heq
        exact (mem_unseen_iff.mp hb).2 (heq ▸ hseen)
      refine ⟨(ascending_unseen l seen').imp_of_mem fun {a b} ha hb hab => ?_, fun b hb => ?_⟩
      · rw [place_cons_of_ne (hne a ha), place_cons_of_ne (hne b hb)]
        omega
      · rw [place_cons_of_ne (hne b hb)]
        omega
    rw [unseen]
    by_cases hseen : Text.lower t ∈ seen
    · rw [if_pos hseen]
      exact (hlater seen hseen).1
    · rw [if_neg hseen]
      obtain ⟨hpairs, hpos⟩ := hlater (Text.lower t :: seen) List.mem_cons_self
      refine List.pairwise_cons.mpr ⟨fun b hb => ?_, hpairs⟩
      rw [place_cons_of_eq rfl]
      exact hpos b hb

/-- The group has the texts of the source as they first come up in it, in the order in which they do, but for
those that came up earlier. -/
structure FirstSeen (earlier source group : List String) : Prop where
  mem_iff : ∀ e, e ∈ group ↔ source[place source e]? = some e ∧
    ∀ s ∈ earlier, Text.lower s ≠ Text.lower e
  ascending : group.Pairwise fun a b => place source a < place source b

theorem firstSeen_unseen (earlier source : List String) :
    FirstSeen earlier source (unseen (earlier.map Text.lower) source) where
  mem_iff e := by
    rw [mem_unseen_iff, List.mem_map]
    simp
  ascending := ascending_unseen source _

namespace FirstSeen

variable {earlier source group : List String} (h : FirstSeen earlier source group)
include h

theorem mem_source {e : String} (he : e ∈ group) : e ∈ source :=
  List.mem_of_getElem? ((h.mem_iff e).mp he).1

theorem differ : group.Pairwise fun a b => Text.lower a ≠ Text.lower b := by
  refine h.ascending.imp fun {a b} hab heq => ?_
  rw [place_congr heq] at hab
  exact Nat.lt_irrefl _ hab

/-- Whatever is in the source came up in the group or earlier. -/
theorem exists_of_mem {t : String} (ht : t ∈ source) (hnew : ∀ s ∈ earlier, Text.lower s ≠ Text.lower t) :
    ∃ e ∈ group, Text.lower e = Text.lower t := by
  have hlt : place source t < source.length := List.findIdx_lt_length_of_exists ⟨t, ht, by simp⟩
  have hform : Text.lower source[place source t] = Text.lower t :=
    eq_of_beq (List.findIdx_getElem (w := hlt))
  refine ⟨source[place source t], (h.mem_iff _).mpr ⟨?_, ?_⟩, hform⟩
  · rw [place_congr hform]
    exact List.getElem?_eq_getElem hlt
  · rw [hform]
    exact hnew

end FirstSeen

/-! ### The three lists -/

/-- What is quoted, without white space at either end; a blank span quotes nothing. -/
def quotes (spans : List (List Char)) : List String :=
  (spans.map fun s => Text.trim (String.ofList s)).filter (· != "")

/-- The tokens that look like names in code. -/
def codeNames (tokens : List (List Char)) : List String := (tokens.filter isCode).map String.ofList

/-- The tokens that are words of their own. -/
def words (tokens : List (List Char)) : List String := (tokens.filter isWord).map String.ofList

theorem stopWords_ascend : stopWords.Pairwise fun a b => compare a b = .lt := by decide +kernel

/-- Whether a word only makes up a question is found by halving. -/
theorem isWord_eq_halving (token : List Char) : isWord token = (!isCode token &&
    !SortedMap.halving (Text.lower (String.ofList token)) stopWords && 1 < token.length) := by
  have hstop : SortedMap.halving (Text.lower (String.ofList token)) stopWords =
      stopWords.contains (Text.lower (String.ofList token)) := by
    rw [Bool.eq_iff_iff, SortedMap.halving_iff stopWords_ascend, List.contains_iff_mem]
  rw [isWord, hstop]

theorem trim_ofList (cs : List Char) :
    Text.trim (String.ofList cs) = String.ofList (Text.stripWhile Text.isBlank cs) := by
  rw [Text.trim, Text.trimMatches, String.toList_ofList]

theorem ofList_eq_empty_iff {cs : List Char} : String.ofList cs = "" ↔ cs = [] := by
  rw [← String.toList_inj, String.toList_ofList]
  rfl

theorem trim_eq_empty_iff {cs : List Char} :
    Text.trim (String.ofList cs) = "" ↔ ∀ c ∈ cs, Text.isBlank c = true := by
  rw [trim_ofList, ofList_eq_empty_iff, Text.stripWhile_eq_nil_iff]

theorem not_isBlank_of_visible {c : Char} (h : 0x20 < c.toNat ∧ c.toNat < 0x7F) :
    Text.isBlank c = false := by
  unfold Text.isBlank
  simp
  omega

theorem utf8ByteSize_of_visible {t : List Char} (h : ∀ c ∈ t, 0x20 < c.toNat ∧ c.toNat < 0x7F) :
    (String.ofList t).utf8ByteSize = t.length := by
  rw [String.utf8ByteSize_ofList]
  induction t with
  | nil => rfl
  | cons c t ih =>
    have hc := (h c List.mem_cons_self).2
    have hsize : c.utf8Size = 1 := by
      unfold Char.utf8Size
      rw [if_pos]
      rw [UInt32.le_iff_toNat_le]
      simp
      omega
    simp [String.utf8Len, hsize, ih fun c hc => h c (List.mem_cons_of_mem _ hc)]

section Read

variable {text : String} {spans tokens : List (List Char)} (h : Reads text.toList spans tokens)
include h

theorem trim_token {t : List Char} (ht : t ∈ tokens) : Text.trim (String.ofList t) = String.ofList t := by
  rw [trim_ofList, Text.stripWhile_eq_self]
  exact fun c hc => not_isBlank_of_visible (h.visible t ht c hc)

/-- Tokens are neither trimmed nor dropped. -/
theorem filter_tokens {p : List Char → Bool} :
    ((tokens.filter p).map fun t => Text.trim (String.ofList t)).filter (· != "") =
      (tokens.filter p).map String.ofList := by
  have hmap : ((tokens.filter p).map fun t => Text.trim (String.ofList t)) =
      (tokens.filter p).map String.ofList :=
    List.map_congr_left fun t ht => trim_token h (List.mem_of_mem_filter ht)
  rw [hmap, List.filter_eq_self]
  intro e he
  obtain ⟨t, ht, rfl⟩ := List.mem_map.mp he
  have hne := h.token_ne_nil t (List.mem_of_mem_filter ht)
  simpa [ofList_eq_empty_iff] using hne

theorem candidates_eq : candidates text = quotes spans ++ codeNames tokens ++ words tokens := by
  obtain ⟨hspans, htokens⟩ := reads_iff.mp h
  have hcode := filter_tokens h (p := isCode)
  have hwords := filter_tokens h (p := isWord)
  rw [candidates]
  simp only [← hspans, ← htokens, List.map_append, List.filter_append, hcode, hwords]
  rfl

/-- A pass over what a text may ask about is three passes. -/
theorem extract_eq : extract text = unseen [] (quotes spans) ++
    unseen ((quotes spans).map Text.lower) (codeNames tokens) ++
      unseen ((quotes spans ++ codeNames tokens).map Text.lower) (words tokens) := by
  have hall := unseen_append (words tokens) (quotes spans ++ codeNames tokens) []
  have hfirst := unseen_append (codeNames tokens) (quotes spans) []
  simp only [List.map_nil, List.nil_append] at hall hfirst
  rw [extract, candidates_eq h, distinct_eq_unseen, hall, hfirst]

/-- All that a text may ask about is a span or a token without the white space around it. -/
theorem exists_of_mem_candidates {e : String} (he : e ∈ candidates text) :
    e ≠ "" ∧ ∃ t, (t ∈ spans ∨ t ∈ tokens) ∧ e.toList = Text.stripWhile Text.isBlank t := by
  obtain ⟨rfl, rfl⟩ := reads_iff.mp h
  obtain ⟨hmem, hne⟩ := List.mem_filter.mp he
  obtain ⟨t, ht, rfl⟩ := List.mem_map.mp hmem
  refine ⟨by simpa using hne, t, ?_, by rw [trim_ofList, String.toList_ofList]⟩
  rcases List.mem_append.mp ht with ht | ht
  · rcases List.mem_append.mp ht with ht | ht
    · exact .inl ht
    · exact .inr (List.mem_of_mem_filter ht)
  · exact .inr (List.mem_of_mem_filter ht)

theorem infix_of_mem_candidates {e : String} (he : e ∈ candidates text) : e.toList <:+: text.toList := by
  obtain ⟨_, t, ht, het⟩ := exists_of_mem_candidates h he
  have hin : t <:+: text.toList := by
    rcases ht with ht | ht
    · exact h.spans_inTurn.isInfix t ht
    · exact h.tokens_inTurn.isInfix t ht
  rw [het]
  exact (Text.stripWhile_infix Text.isBlank t).trans hin

theorem span_mem_candidates {s : List Char} (hs : s ∈ spans) (hblank : ∃ c ∈ s, Text.isBlank c = false) :
    Text.trim (String.ofList s) ∈ candidates text := by
  obtain ⟨c, hc, hcb⟩ := hblank
  have hne : Text.trim (String.ofList s) ≠ "" := by
    intro hempty
    rw [trim_eq_empty_iff.mp hempty c hc] at hcb
    cases hcb
  have hquoted : Text.trim (String.ofList s) ∈ quotes spans :=
    List.mem_filter.mpr ⟨List.mem_map.mpr ⟨s, hs, rfl⟩, by simpa using hne⟩
  rw [candidates_eq h]
  simp [hquoted]

theorem token_mem_candidates {t : List Char} (ht : t ∈ tokens) (hname : isCode t = true ∨
    (1 < (String.ofList t).utf8ByteSize ∧ Text.lower (String.ofList t) ∉ stopWords)) :
    String.ofList t ∈ candidates text := by
  rw [candidates_eq h, List.mem_append, List.mem_append]
  by_cases hcode : isCode t = true
  · exact .inl (.inr (List.mem_map.mpr ⟨t, List.mem_filter.mpr ⟨ht, hcode⟩, rfl⟩))
  · obtain hlong | ⟨hlong, hstop⟩ := hname
    · exact absurd hlong hcode
    · rw [utf8ByteSize_of_visible (h.visible t ht)] at hlong
      have hword : isWord t = true := by simp [isWord, hcode, hlong, hstop]
      exact .inr (List.mem_map.mpr ⟨t, List.mem_filter.mpr ⟨ht, hword⟩, rfl⟩)

end Read

/-! ### What is gathered -/

/-- The entities of a text with these quoted spans and these tokens outside of them. -/
structure Gathers (text : String) (spans tokens : List (List Char)) (entities : List String) : Prop where
  solid : ∀ e ∈ entities, e ≠ "" ∧ (∀ c ∈ e.toList.head?, Text.isBlank c = false) ∧
    ∀ c ∈ e.toList.getLast?, Text.isBlank c = false
  within : ∀ e ∈ entities, e.toList <:+: text.toList
  differ : entities.Pairwise fun a b => Text.lower a ≠ Text.lower b
  span : ∀ s ∈ spans, (∃ c ∈ s, Text.isBlank c = false) →
    ∃ e ∈ entities, Text.lower e = Text.lower (Text.trim (String.ofList s))
  token : ∀ t ∈ tokens, isCode t = true ∨
    (1 < (String.ofList t).utf8ByteSize ∧ Text.lower (String.ofList t) ∉ stopWords) →
      ∃ e ∈ entities, Text.lower e = Text.lower (String.ofList t)
  order : ∃ quoted named plain, entities = quoted ++ named ++ plain ∧
    FirstSeen [] (quotes spans) quoted ∧ FirstSeen (quotes spans) (codeNames tokens) named ∧
    FirstSeen (quotes spans ++ codeNames tokens) (words tokens) plain
  inTurn : InTurn spans text.toList ∧ InTurn tokens text.toList

theorem firstSeen_extract (text : String) : FirstSeen [] (candidates text) (extract text) := by
  have hseen := firstSeen_unseen [] (candidates text)
  rwa [List.map_nil, ← distinct_eq_unseen] at hseen

-- a blank span is left out, an open quote is none, and no token goes on across a span
example : extract "why 'a' \" \" is 'My Lib'foo-bar. A It's parse_args/ LOGGER Logger i" =
    ["a", "My Lib", "parse_args", "foo-bar", "LOGGER"] := by decide +kernel

end CodeAtlas.Entity
