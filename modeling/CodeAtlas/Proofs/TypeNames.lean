/-
# The identifiers in a type text

A run of characters stands at a position of a text and goes on as far as it can at either end
(`TypeName.RunAt`). Whether one stands at a position is known from the first character and the rest of
the text (`runAt_zero_iff`, `runAt_succ_iff`), so the runs that are read are those that stand in the text,
in the order of their positions (`exists_places`).

Key definitions: `TypeName.RunAt`, `TypeName.Scan`.
Key theorems: `TypeName.exists_places`, `TypeName.Scan.names_foldl`,
`TypeName.identifiers_exact`.
-/
import CodeAtlas.Proofs.Occurrences
import CodeAtlas.Source.TypeName
import Mathlib.Data.List.TakeWhile

namespace CodeAtlas.TypeName

variable {p : Char → Bool} {c : Char} {cs run : List Char} {i : Nat}

/-! ### Where runs stand -/

/-- The characters `run` stand at position `i`, satisfy `p`, and neither the character before them nor
the one after them does. -/
structure RunAt (p : Char → Bool) (cs : List Char) (i : Nat) (run : List Char) : Prop where
  nonempty : run ≠ []
  all : ∀ c ∈ run, p c = true
  around : ∃ before after, cs = before ++ run ++ after ∧ before.length = i ∧
    (∀ c ∈ before.getLast?, p c = false) ∧ ∀ c ∈ after.head?, p c = false

theorem not_runAt_nil : ¬ RunAt p [] i run := by
  rintro ⟨hne, _, before, after, h, _⟩
  simp [hne] at h

/-- A run that does not begin with the first character stands in the rest, and the first character is
none of its kind where the two meet. -/
theorem runAt_succ_iff : RunAt p (c :: cs) (i + 1) run ↔
    RunAt p cs i run ∧ (i = 0 → p c = false) := by
  constructor
  · rintro ⟨hne, hall, before, after, h, hlen, hleft, hright⟩
    cases before with
    | nil => cases hlen
    | cons b before =>
      obtain ⟨rfl, rfl⟩ := List.cons.inj h
      obtain rfl : before.length = i := Nat.succ.inj hlen
      refine ⟨⟨hne, hall, before, after, rfl, rfl, fun d hd => ?_, hright⟩, fun hi => ?_⟩
      · cases before with
        | nil => cases hd
        | cons b' before => exact hleft d (by rwa [List.getLast?_cons_cons])
      · rw [List.length_eq_zero_iff] at hi
        exact hleft c (by simp [hi])
  · rintro ⟨⟨hne, hall, before, after, rfl, rfl, hleft, hright⟩, hc⟩
    refine ⟨hne, hall, c :: before, after, rfl, rfl, fun d hd => ?_, hright⟩
    cases before with
    | nil => exact Option.some.inj hd ▸ hc rfl
    | cons b before => exact hleft d (by rwa [List.getLast?_cons_cons] at hd)

/-- A run that begins with the first character goes on with the run at the start of the rest, if there
is one. -/
theorem runAt_zero_iff : RunAt p (c :: cs) 0 run ↔ p c = true ∧ ∃ rest, run = c :: rest ∧
    (RunAt p cs 0 rest ∨ rest = [] ∧ ∀ d ∈ cs.head?, p d = false) := by
  constructor
  · rintro ⟨hne, hall, before, after, h, hlen, _, hright⟩
    obtain rfl := List.length_eq_zero_iff.mp hlen
    cases run with
    | nil => exact absurd rfl hne
    | cons r rest =>
      obtain ⟨rfl, rfl⟩ := List.cons.inj h
      refine ⟨hall c List.mem_cons_self, rest, rfl, ?_⟩
      cases rest with
      | nil => exact .inr ⟨rfl, hright⟩
      | cons r rest =>
        exact .inl ⟨by simp, fun d hd => hall d (List.mem_cons_of_mem _ hd), [], after, rfl, rfl,
          by simp, hright⟩
  · rintro ⟨hc, rest, rfl, ⟨_, hall, before, after, rfl, hlen, _, hright⟩ | ⟨rfl, hright⟩⟩
    · obtain rfl := List.length_eq_zero_iff.mp hlen
      exact ⟨by simp, by simpa [hc] using hall, [], after, rfl, rfl, by simp, hright⟩
    · exact ⟨by simp, by simpa using hc, [], cs, rfl, rfl, by simp, hright⟩

theorem runAt_takeWhile (hc : p c = true) : RunAt p (c :: cs) 0 ((c :: cs).takeWhile p) where
  nonempty := by simp [hc]
  all _ h := List.mem_takeWhile_imp h
  around := by
    refine ⟨[], (c :: cs).dropWhile p, by simp, rfl, by simp, fun d hd => ?_⟩
    have h := List.head?_dropWhile_not p (c :: cs)
    rwa [Option.mem_def.mp hd] at h

/-! ### The runs that are read -/

/-- The places of all runs, in ascending order. -/
structure Places (p : Char → Bool) (cs : List Char) (places : List (Nat × List Char)) : Prop where
  ascending : places.Pairwise fun e e' => e.1 < e'.1
  mem_iff : ∀ i run, (i, run) ∈ places ↔ RunAt p cs i run

/-- The places, with one character more before the text. -/
def later (places : List (Nat × List Char)) : List (Nat × List Char) :=
  places.map fun e => (e.1 + 1, e.2)

theorem mem_later {places : List (Nat × List Char)} :
    (i, run) ∈ later places ↔ ∃ j, i = j + 1 ∧ (j, run) ∈ places := by
  simp only [later, List.mem_map, Prod.exists, Prod.mk.injEq]
  grind

theorem map_snd_later (places : List (Nat × List Char)) :
    (later places).map Prod.snd = places.map Prod.snd := by
  simp [later]

namespace Places

variable {places : List (Nat × List Char)}

theorem ascending_later (h : places.Pairwise fun e e' => e.1 < e'.1) :
    (later places).Pairwise fun e e' => e.1 < e'.1 := by
  rw [later, List.pairwise_map]
  exact h.imp fun he => Nat.succ_lt_succ he

theorem nil : Places p [] [] := ⟨.nil, fun _ _ => by simp [not_runAt_nil]⟩

/-- A character of another kind only moves the runs. -/
theorem skip (h : Places p cs places) (hc : p c = false) : Places p (c :: cs) (later places) := by
  refine ⟨ascending_later h.ascending, fun i run => ?_⟩
  cases i with
  | zero => simp [mem_later, runAt_zero_iff, hc]
  | succ i => simp [mem_later, runAt_succ_iff, h.mem_iff, hc]

/-- A character of the kind begins a run; the runs after it are those of the rest that do not begin
with the rest. -/
theorem cons {rest : List Char} (hc : p c = true) (hasc : places.Pairwise fun e e' => e.1 < e'.1)
    (hplaces : ∀ i run, (i, run) ∈ places ↔ RunAt p cs i run ∧ i ≠ 0)
    (hrest : ∀ r, (RunAt p cs 0 r ∨ r = [] ∧ ∀ d ∈ cs.head?, p d = false) ↔ r = rest) :
    Places p (c :: cs) ((0, c :: rest) :: later places) := by
  refine ⟨List.pairwise_cons.mpr ⟨?_, ascending_later hasc⟩, fun i run => ?_⟩
  · rintro ⟨i, run⟩ he
    obtain ⟨j, rfl, _⟩ := mem_later.mp he
    exact Nat.succ_pos j
  · cases i with
    | zero =>
      simp only [runAt_zero_iff, hrest]
      simp [mem_later, hc]
    | succ i => simp [mem_later, runAt_succ_iff, hc, hplaces]

/-- A character of the kind before one that is not is a run of its own. -/
theorem alone (h : Places p cs places) (hc : p c = true) (hd : ∀ d ∈ cs.head?, p d = false) :
    Places p (c :: cs) ((0, [c]) :: later places) := by
  have hzero : ∀ run, ¬ RunAt p cs 0 run := by
    intro run hrun
    cases cs with
    | nil => exact not_runAt_nil hrun
    | cons d cs =>
      rw [runAt_zero_iff, hd d rfl] at hrun
      cases hrun.1
  refine cons hc h.ascending (fun i run => ?_) fun r => ?_
  · rw [h.mem_iff, iff_self_and]
    rintro hrun rfl
    exact hzero run hrun
  · simpa [hzero] using fun _ => hd

/-- A character of the kind before another one makes the first run longer. -/
theorem longer (h : Places p cs ((0, run) :: places)) (hc : p c = true) :
    Places p (c :: cs) ((0, c :: run) :: later places) := by
  obtain ⟨hfirst, hrest⟩ := List.pairwise_cons.mp h.ascending
  have hrun : RunAt p cs 0 run := (h.mem_iff 0 run).mp List.mem_cons_self
  refine cons hc hrest (fun i r => ?_) fun r => ?_
  · rw [← h.mem_iff, List.mem_cons]
    constructor
    · exact fun hr => ⟨.inr hr, (hfirst _ hr).ne'⟩
    · rintro ⟨he | hr, hi⟩
      · exact absurd (Prod.mk.inj he).1 hi
      · exact hr
  · constructor
    · rintro (hr | ⟨_, hd⟩)
      · rcases List.mem_cons.mp ((h.mem_iff 0 r).mpr hr) with he | he
        · exact (Prod.mk.inj he).2
        · exact absurd (hfirst _ he) (Nat.lt_irrefl 0)
      · -- a run begins with the next character, so that one is of the kind
        cases cs with
        | nil => exact absurd hrun not_runAt_nil
        | cons d cs =>
          rw [runAt_zero_iff, hd d rfl] at hrun
          cases hrun.1
    · rintro rfl
      exact .inl hrun

/-- The first run of a text that begins with a character of the kind begins there. -/
theorem eq_zero (h : Places p (c :: cs) ((i, run) :: places)) (hc : p c = true) : i = 0 := by
  rcases List.mem_cons.mp ((h.mem_iff _ _).mpr (runAt_takeWhile hc)) with he | he
  · exact (Prod.mk.inj he).1.symm
  · exact absurd ((List.pairwise_cons.mp h.ascending).1 _ he) (Nat.not_lt_zero i)

end Places

/-- The runs that are read are those that stand in the text, in the order of their places. -/
theorem exists_places (p : Char → Bool) (cs : List Char) :
    ∃ places, Places p cs places ∧ places.map Prod.snd = runs p cs := by
  fun_induction runs p cs with
  | case1 => exact ⟨[], .nil, rfl⟩
  | case2 c cs hc ih =>
    obtain ⟨places, h, hmap⟩ := ih
    exact ⟨later places, h.skip (by simpa using hc), (map_snd_later places).trans hmap⟩
  | case3 c hc =>
    exact ⟨[(0, [c])], Places.nil.alone (by simpa using hc) (by simp), rfl⟩
  | case4 c hc d cs hd run rest hruns ih =>
    obtain ⟨places, h, hmap⟩ := ih
    rw [hruns, List.map_eq_cons_iff] at hmap
    obtain ⟨⟨i, run⟩, places, rfl, rfl, hmap⟩ := hmap
    obtain rfl := h.eq_zero hd
    refine ⟨(0, c :: run) :: later places, h.longer (by simpa using hc), ?_⟩
    rw [hruns, List.map_cons, map_snd_later, hmap]
  | case5 c hc d cs hd hruns ih =>
    obtain ⟨places, h, hmap⟩ := ih
    rw [hruns, List.map_eq_nil_iff] at hmap
    have hmem := (h.mem_iff _ _).mpr (runAt_takeWhile hd)
    rw [hmap] at hmem
    cases hmem
  | case6 c hc d cs hd ih =>
    obtain ⟨places, h, hmap⟩ := ih
    refine ⟨(0, [c]) :: later places, h.alone (by simpa using hc) (by simpa using hd), ?_⟩
    rw [List.map_cons, map_snd_later, hmap]

/-! ### One pass over a text -/

/-- What is known at some point of a text: the run that ends there, and the names before it. -/
structure Scan where
  current : List Char
  names : List String

namespace Scan

/-- The run that ends here is taken for a name if it is an identifier. -/
def flush (s : Scan) : Scan :=
  if isIdentifier s.current then ⟨[], Text.addNew s.names (String.ofList s.current)⟩
  else ⟨[], s.names⟩

/-- Takes one more character. -/
def step (s : Scan) (c : Char) : Scan :=
  if isPart c then { s with current := s.current ++ [c] } else s.flush

end Scan

theorem runs_of_not (hc : p c = false) : runs p (c :: cs) = runs p cs := by
  rw [runs.eq_def]
  simp [hc]

/-- A run before a character of another kind, or at the end, is read first. -/
theorem runs_append : ∀ {run : List Char}, run ≠ [] → (∀ c ∈ run, p c = true) →
    (∀ c ∈ cs.head?, p c = false) → runs p (run ++ cs) = run :: runs p cs
  | [c], _, hall, hright => by
    have hc := hall c List.mem_cons_self
    rw [List.singleton_append, runs.eq_def]
    cases cs with
    | nil => simp [hc, runs]
    | cons d cs => simp [hc, hright d rfl]
  | c :: d :: run, _, hall, hright => by
    have hc := hall c List.mem_cons_self
    have hd := hall d (by simp)
    have ih : runs p (d :: (run ++ cs)) = (d :: run) :: runs p cs :=
      runs_append (by simp) (fun e he => hall e (List.mem_cons_of_mem _ he)) hright
    rw [List.cons_append, List.cons_append, runs.eq_def]
    simp [hc, hd, ih]

/-- The name that a run is, if it is an identifier. -/
def name? (run : List Char) : Option String :=
  if isIdentifier run then some (String.ofList run) else none

/-- The names among the runs. -/
def named (rs : List (List Char)) : List String := rs.filterMap name?

theorem named_eq : ∀ rs, named rs = (rs.filter isIdentifier).map String.ofList
  | [] => rfl
  | run :: rs => by
    have ih := named_eq rs
    rw [named] at ih ⊢
    cases h : isIdentifier run <;> simp [name?, h, ih]

theorem name?_eq_some_iff {name : String} : name? run = some name ↔
    run = name.toList ∧ ∃ c ∈ name.toList.head?, isStart c = true := by
  have hid : isIdentifier run = true ↔ ∃ c ∈ run.head?, isStart c = true := by
    cases run <;> simp [isIdentifier]
  rw [name?, Option.ite_none_right_eq_some, hid, Option.some_inj]
  constructor
  · rintro ⟨hstart, rfl⟩
    simpa using hstart
  · rintro ⟨rfl, hstart⟩
    simpa using hstart

/-- The run at hand is read before what follows, if it is a name at all. -/
theorem named_runs_append {current : List Char} (h : ∀ c ∈ current, isPart c = true)
    (hright : ∀ c ∈ cs.head?, isPart c = false) :
    named (runs isPart (current ++ cs)) = named [current] ++ named (runs isPart cs) := by
  by_cases hne : current = []
  · subst hne
    rfl
  · rw [runs_append hne h hright, ← List.singleton_append, named, List.filterMap_append]
    rfl

namespace Scan

theorem flush_eq (s : Scan) : s.flush = ⟨[], (named [s.current]).foldl Text.addNew s.names⟩ := by
  rw [flush, named_eq, List.filter_cons]
  split <;> rfl

/-- A pass from within a run up to the blank after the text finds the names of the run and the text. -/
theorem names_foldl : ∀ (cs current : List Char) (names : List String),
    (∀ c ∈ current, isPart c = true) → ((cs ++ [' ']).foldl step ⟨current, names⟩).names =
      (named (runs isPart (current ++ cs))).foldl Text.addNew names
  | [], current, names, h => by
    have hblank : isPart ' ' = false := by decide
    rw [named_runs_append h (by simp), List.nil_append, List.foldl_cons, List.foldl_nil, step, hblank]
    simp [flush_eq, runs, named]
  | c :: cs, current, names, h => by
    rw [List.cons_append, List.foldl_cons, step]
    cases hc : isPart c with
    | true =>
      have ih := names_foldl cs (current ++ [c]) names (by simpa [or_imp, forall_and, hc] using h)
      rwa [List.append_assoc] at ih
    | false =>
      rw [if_neg (by simp), flush_eq, names_foldl cs [] _ (by simp), List.nil_append,
        named_runs_append h (by simpa using hc), runs_of_not hc, List.foldl_append]

end Scan

/-! ### What is listed -/

/-- A name stands at a position of a text. -/
structure NameAt (text : String) (i : Nat) (name : String) : Prop where
  run : RunAt isPart text.toList i name.toList
  start : ∃ c ∈ name.toList.head?, isStart c = true

theorem identifiers_eq (text : String) :
    identifiers text = Text.firstOccurrences (named (runs isPart text.toList)) := by
  rw [identifiers, named_eq]

theorem listsFirst_identifiers (text : String) : ListsFirst (· < ·) (NameAt text) (identifiers text) := by
  obtain ⟨places, h, hmap⟩ := exists_places isPart text.toList
  rw [identifiers_eq, named, ← hmap]
  refine (listsFirst_firstOccurrences name? h.ascending).congr fun i name => ?_
  constructor
  · rintro ⟨run, hmem, hname⟩
    obtain ⟨rfl, hstart⟩ := name?_eq_some_iff.mp hname
    exact ⟨(h.mem_iff i _).mp hmem, hstart⟩
  · rintro ⟨hrun, hstart⟩
    exact ⟨name.toList, (h.mem_iff i _).mpr hrun, name?_eq_some_iff.mpr ⟨rfl, hstart⟩⟩

/-- The identifiers of a text are the names that stand in it, each once, in the order in which they
first stand there, and one pass up to a blank after the text finds them. -/
theorem identifiers_exact (text : String) :
    (∀ names, ListsFirst (· < ·) (NameAt text) names ↔ names = identifiers text) ∧
      ((text.toList ++ [' ']).foldl Scan.step ⟨[], []⟩).names = identifiers text := by
  constructor
  · intro names
    constructor
    · exact fun h => h.eq (listsFirst_identifiers text)
    · rintro rfl
      exact listsFirst_identifiers text
  · rw [identifiers_eq]
    exact Scan.names_foldl text.toList [] [] (by simp)

example : identifiers "Map<User, 3d> | (_a.$b: User[])" = ["Map", "User", "_a", "$b"] := by
  decide +kernel

end CodeAtlas.TypeName
