/-
# The age of the last run

The time of the last run is read from a file, so it may be any signed word, and the age of a state need not
fit into one. Counted in words that do not wrap, the age of a state is all that can overflow: the limit of
as many days as fit into thirty-two digits never does (`SyncPlan.limit_days`). So a plan is missing exactly
where the age is asked for and does not fit, and is full where it is asked to be, where no file is known or
where the age is over the limit (`SyncPlan.make_of_tryLoad`).

Key definitions: `Word.ofInt?`, `Word.sub?`, `Word.mul?`, `SyncPlan.isOlder`.
Key theorems: `Word.ofInt?_eq_none_iff`, `Word.toInt_of_ofInt?`, `SyncState.signed_of_tryLoad`,
`SyncPlan.limit_days`, `SyncPlan.isStale_eq_isOlder`, `SyncPlan.make_of_tryLoad`.
-/
import CodeAtlas.Proofs.Plans
import CodeAtlas.Proofs.StateFile

namespace CodeAtlas

namespace Word

theorem isSigned_iff {n : Int} :
    isSigned n = true ↔ Int64.minValue.toInt ≤ n ∧ n ≤ Int64.maxValue.toInt := by
  have hmin : Int64.minValue.toInt = -(twoTo 63 : Int) := by decide
  have hmax : Int64.maxValue.toInt = (twoTo 63 : Int) - 1 := by decide
  rw [isSigned, hmin, hmax, Bool.and_eq_true, decide_eq_true_eq, decide_eq_true_eq]
  omega

/-- The word of a number, if it fits. -/
def ofInt? (n : Int) : Option Int64 := if isSigned n then some (Int64.ofInt n) else none

theorem ofInt?_eq_none_iff {n : Int} :
    ofInt? n = none ↔ ¬(Int64.minValue.toInt ≤ n ∧ n ≤ Int64.maxValue.toInt) := by
  rw [← isSigned_iff, ofInt?]
  split <;> simp_all

theorem toInt_of_ofInt? {n : Int} {w : Int64} (h : ofInt? n = some w) : w.toInt = n := by
  unfold ofInt? at h
  split at h
  · rename_i hn
    obtain ⟨hlow, hhigh⟩ := isSigned_iff.mp hn
    rw [Int64.toInt_minValue] at hlow
    rw [Int64.toInt_maxValue] at hhigh
    cases h
    exact Int64.toInt_ofInt_of_le hlow (Int.lt_of_le_sub_one hhigh)
  · cases h

theorem exists_ofInt? {n : Int} (h : Int64.minValue.toInt ≤ n ∧ n ≤ Int64.maxValue.toInt) :
    ∃ w, ofInt? n = some w :=
  ⟨Int64.ofInt n, if_pos (isSigned_iff.mpr h)⟩

/-- The difference of two words, unless it overflows. -/
def sub? (a b : Int64) : Option Int64 := ofInt? (a.toInt - b.toInt)

/-- The product of two words, unless it overflows. -/
def mul? (a b : Int64) : Option Int64 := ofInt? (a.toInt * b.toInt)

end Word

/-! ### The time in a state file -/

theorem Document.signed_of_int? {d : Document} {n : Int} (h : d.int? = some n) :
    Word.isSigned n = true := by
  unfold int? intIn? at h
  split at h
  · split at h
    · rename_i hrange
      cases h
      rw [Word.isSigned, Bool.and_eq_true, decide_eq_true_eq, decide_eq_true_eq]
      omega
    · cases h
  · cases h

namespace SyncState

theorem signed_of_ofDocument? {d : Document} {s : SyncState} (h : ofDocument? d = some s) :
    Word.isSigned s.lastSync = true := by
  simp only [ofDocument?, bind, Option.bind_eq_some_iff] at h
  obtain ⟨f, _, last, hlast, files, _, symbols, _, version, _, hs⟩ := h
  cases hs
  obtain ⟨value, _, hvalue⟩ := Option.bind_eq_some_iff.mp hlast
  exact Document.signed_of_int? hvalue

theorem signed_of_ofText {text : String} {s : SyncState} (h : ofText text = .ok s) :
    Word.isSigned s.lastSync = true := by
  unfold ofText at h
  split at h
  · cases h
  · rename_i s' hs'
    obtain ⟨d, _, hd⟩ := Option.bind_eq_some_iff.mp hs'
    split at h
    · cases h
      exact signed_of_ofDocument? hd
    · cases h

/-- The time of a state that was loaded is a signed word. -/
theorem signed_of_tryLoad {fs : FileSystem} {path : String} {s : SyncState}
    (h : tryLoad fs path = .ok (some s)) : Word.isSigned s.lastSync = true := by
  unfold tryLoad at h
  split at h
  · cases h
  · cases h
  · split at h
    · cases h
    · rename_i text _
      cases htext : ofText text with
      | error e => simp [htext, Except.map] at h
      | ok s' =>
        rw [htext] at h
        cases h
        exact signed_of_ofText htext

/-- Every state whose numbers fit into words may be loaded, whatever its time is. -/
theorem exists_tryLoad {s : SyncState} (h : s.InRange) (hv : s.version = currentVersion) :
    ∃ fs, tryLoad fs "state.json" = .ok (some s) := by
  have hwrite : ∃ fs, (⟨.empty, []⟩ : FileSystem).write "state.json" (Ident.bytes s.text) 0 = .ok fs :=
    ⟨_, rfl⟩
  obtain ⟨fs, hfs⟩ := hwrite
  refine ⟨fs, ?_⟩
  rw [tryLoad_of_read (FileSystem.read_of_write hfs), ofText_text h hv]
  rfl

end SyncState

/-! ### The limit and the age in words -/

namespace SyncPlan

/-- Whether the last run is more than so many days ago, counted in words; nothing where one overflows. -/
def isOlder (days : UInt32) (last now : Int64) : Option Bool := do
  let limit ← Word.mul? (Int64.ofNat days.toNat) 86400000
  let age ← Word.sub? now last
  return decide (limit < age)

/-- The milliseconds of so many days fit into a word. -/
theorem limit_days (days : UInt32) : ∃ limit : Int64,
    Word.mul? (Int64.ofNat days.toNat) 86400000 = some limit ∧
      limit.toInt = days.toNat * 86400000 := by
  have hdays := days.toNat_lt
  have hproduct : (Int64.ofNat days.toNat).toInt * (86400000 : Int64).toInt =
      days.toNat * 86400000 := by
    rw [Int64.toInt_ofNat_of_lt (by omega)]
    rfl
  have hfits : Int64.minValue.toInt ≤ days.toNat * 86400000 ∧
      days.toNat * 86400000 ≤ Int64.maxValue.toInt := by
    rw [Int64.toInt_minValue, Int64.toInt_maxValue]
    omega
  obtain ⟨limit, hlimit⟩ := Word.exists_ofInt? hfits
  refine ⟨limit, ?_, Word.toInt_of_ofInt? hlimit⟩
  rw [Word.mul?, hproduct, hlimit]

/-- Only the age may overflow, and what is compared are the whole numbers of the words. -/
theorem isOlder_eq (days : UInt32) (last now : Int64) : isOlder days last now =
    if inRange (now.toInt - last.toInt) then
      some (decide (days.toNat * dayMillis < now.toInt - last.toInt)) else none := by
  obtain ⟨limit, hlimit, hvalue⟩ := limit_days days
  unfold isOlder Word.sub?
  rw [hlimit]
  cases hage : Word.ofInt? (now.toInt - last.toInt) with
  | none =>
    have hout : ¬ inRange (now.toInt - last.toInt) = true := fun hin =>
      Word.ofInt?_eq_none_iff.mp hage (Word.isSigned_iff.mp hin)
    rw [if_neg hout]
    rfl
  | some age =>
    have hdiff := Word.toInt_of_ofInt? hage
    have hin : inRange (now.toInt - last.toInt) = true := by
      rw [← hdiff]
      exact Word.isSigned_iff.mpr ⟨age.minValue_le_toInt, age.toInt_le⟩
    have hiff : limit < age ↔ days.toNat * dayMillis < now.toInt - last.toInt := by
      rw [Int64.lt_iff_toInt_lt, hvalue, hdiff, dayMillis]
    rw [if_pos hin, ← decide_eq_decide.mpr hiff]
    rfl

/-- What a plan computes of whole numbers is what words give. -/
theorem isStale_eq_isOlder {state : SyncState} {last : Int64} (hlast : last.toInt = state.lastSync)
    (hknown : state.isEmpty = false) (statePath : String) (days : UInt32) (now : Int64) :
    isStale ⟨statePath, days.toNat⟩ state now.toInt = isOlder days last now := by
  rw [isOlder_eq, isStale, hknown, hlast]
  rfl

/-! ### When there is a plan, and when it is full -/

section Made

variable {config : SyncConfig} {state : SyncState} {current : FingerprintMap} {now : Int}

theorem isStale_eq_none_iff : isStale config state now = none ↔
    state.isEmpty = false ∧ inRange (now - state.lastSync) = false := by
  unfold isStale
  cases state.isEmpty <;> simp

theorem isStale_eq_true_iff : isStale config state now = some true ↔ state.isEmpty = true ∨
    inRange (now - state.lastSync) = true ∧
      config.fullSyncAfterDays * dayMillis < now - state.lastSync := by
  unfold isStale
  cases state.isEmpty <;> simp

theorem make_eq_none_iff {force : Bool} : make config state current now force = none ↔
    force = false ∧ state.isEmpty = false ∧ inRange (now - state.lastSync) = false := by
  have hstale : isStale config state now = none ↔ _ := isStale_eq_none_iff
  rw [← hstale]
  cases force <;> simp [make]

/-- A plan is full where that was asked for, or where the state is stale. -/
theorem full_iff_of_make {force : Bool} {plan : SyncPlan}
    (h : make config state current now force = some plan) :
    plan.full = true ↔ force = true ∨ isStale config state now = some true := by
  cases force with
  | true =>
    cases h
    simp [ofFull]
  | false =>
    obtain ⟨stale, hstale, rfl⟩ := Option.map_eq_some_iff.mp h
    rw [hstale]
    cases stale <;> simp [ofFull, ofChanges]

end Made

/-- For a state that was loaded there is no plan exactly where files are known, a full run is not asked for
and the age of the state overflows. A plan is full exactly where it is asked to be, where no file is known
or where the state is more than so many days old. The limit never overflows. -/
theorem make_of_tryLoad {fs : FileSystem} {path : String} {state : SyncState}
    (h : SyncState.tryLoad fs path = .ok (some state)) (statePath : String) (days : UInt32)
    (current : FingerprintMap) (now : Int64) (force : Bool) :
    let config : SyncConfig := ⟨statePath, days.toNat⟩
    let made := make config state current now.toInt force
    let age := now.toInt - state.lastSync
    (made = none ↔ force = false ∧ state.files.isEmpty = false ∧
      ¬(Int64.minValue.toInt ≤ age ∧ age ≤ Int64.maxValue.toInt)) ∧
    (∀ plan, made = some plan → (plan.full = true ↔
      force = true ∨ state.files.isEmpty = true ∨ days.toNat * 86400000 < age)) ∧
    ∃ last limit : Int64, last.toInt = state.lastSync ∧
      Word.mul? (Int64.ofNat days.toNat) 86400000 = some limit ∧ limit.toInt = days.toNat * 86400000 ∧
      (state.files.isEmpty = false → isStale config state now.toInt = isOlder days last now) := by
  intro config made age
  have hrange : inRange age = true ↔ Int64.minValue.toInt ≤ age ∧ age ≤ Int64.maxValue.toInt :=
    Word.isSigned_iff
  have hnone : made = none ↔ force = false ∧ state.files.isEmpty = false ∧ inRange age = false :=
    make_eq_none_iff
  obtain ⟨last, hword⟩ := Word.exists_ofInt? (Word.isSigned_iff.mp (SyncState.signed_of_tryLoad h))
  have hlast := Word.toInt_of_ofInt? hword
  obtain ⟨limit, hlimit, hvalue⟩ := limit_days days
  refine ⟨?_, fun plan hplan => ?_, last, limit, hlast, hlimit, hvalue, fun hknown => ?_⟩
  · rw [hnone, ← hrange, Bool.not_eq_true]
  · -- where the age does not fit, a plan was asked to be full or knows no file
    have hmade : made ≠ none := by simp [hplan]
    have hfull : plan.full = true ↔ force = true ∨ state.files.isEmpty = true ∨
        inRange age = true ∧ days.toNat * 86400000 < age :=
      (full_iff_of_make hplan).trans (or_congr_right isStale_eq_true_iff)
    rw [ne_eq, hnone] at hmade
    rw [hfull]
    by_cases hin : inRange age = true
    · simp [hin]
    · have hasked : force = true ∨ state.files.isEmpty = true := by
        cases force <;> simp_all
      rcases hasked with hforce | hempty
      · simp [hforce]
      · simp [hempty]
  · exact isStale_eq_isOlder hlast hknown statePath days now

end SyncPlan

namespace Trial

/-- A state of the earliest time there is, with a file. -/
def ancient : SyncState :=
  ⟨Int64.minValue.toInt, .ofList [("a.ts", ⟨1, 1, "a", true⟩)], .empty, SyncState.currentVersion⟩

/-- At the time of the state a plan goes by the changes, and just before zero it is full even with the
largest limit. From zero on there is none, unless it is asked to be full. -/
theorem made_ancient : ∃ fs, SyncState.tryLoad fs "state.json" = .ok (some ancient) ∧
    (∃ plan, SyncPlan.make ⟨"", 0⟩ ancient .empty ancient.lastSync false = some plan ∧
      plan.full = false) ∧
    (∃ plan, SyncPlan.make ⟨"", UInt32.size - 1⟩ ancient .empty (-1) false = some plan ∧
      plan.full = true) ∧
    SyncPlan.make ⟨"", UInt32.size - 1⟩ ancient .empty 0 false = none ∧
    ∃ plan, SyncPlan.make ⟨"", UInt32.size - 1⟩ ancient .empty 0 true = some plan ∧ plan.full = true := by
  have hrange : ancient.InRange := by decide
  obtain ⟨fs, hload⟩ := SyncState.exists_tryLoad hrange rfl
  obtain ⟨_, hfirst, _⟩ := SyncPlan.make_of_tryLoad hload "" 0 .empty Int64.minValue false
  obtain ⟨_, hlate, _⟩ := SyncPlan.make_of_tryLoad hload "" 4294967295 .empty (-1) false
  obtain ⟨hover, _⟩ := SyncPlan.make_of_tryLoad hload "" 4294967295 .empty 0 false
  obtain ⟨_, hasked, _⟩ := SyncPlan.make_of_tryLoad hload "" 4294967295 .empty 0 true
  refine ⟨fs, hload, ⟨_, rfl, ?_⟩, ⟨_, rfl, (hlate _ rfl).mpr (by decide)⟩, hover.mpr (by decide), _, rfl,
    (hasked _ rfl).mpr (by decide)⟩
  exact Bool.eq_false_iff.mpr fun hfull => absurd ((hfirst _ rfl).mp hfull) (by decide)

end Trial

end CodeAtlas
