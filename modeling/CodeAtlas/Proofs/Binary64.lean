/-
# The numbers that words stand for

A finite word stands for a rational number, its `value`. Counted in units of the smallest positive
number the size of a word grows with its magnitude (`Binary64.units_strictMono`), so the order of the
ranks is the order of the values (`Binary64.lt_iff_value`, `Binary64.rank_eq_iff_value`).

Key definitions: `Binary64.value`, `Binary64.units`.
Key theorems: `Binary64.value_eq`, `Binary64.lt_iff_value`, `Binary64.rank_eq_iff_value`.
-/
import Mathlib
import CodeAtlas.Binary64

namespace CodeAtlas

namespace Binary64

/-! ### The size of a magnitude -/

/-- The size of a magnitude, in units of the smallest positive number. -/
def units (magnitude : ℕ) : ℕ :=
  if magnitude / 2 ^ 52 = 0 then magnitude % 2 ^ 52
  else (2 ^ 52 + magnitude % 2 ^ 52) * 2 ^ (magnitude / 2 ^ 52 - 1)

theorem units_zero : units 0 = 0 := rfl

theorem units_lt_succ (m : ℕ) : units m < units (m + 1) := by
  unfold units
  by_cases hlast : m % 2 ^ 52 + 1 = 2 ^ 52
  · -- the last fraction of an exponent: the next word has the next exponent and fraction 0
    have hdiv : (m + 1) / 2 ^ 52 = m / 2 ^ 52 + 1 := by omega
    have hmod : (m + 1) % 2 ^ 52 = 0 := by omega
    rw [hdiv, hmod, if_neg (Nat.succ_ne_zero _), Nat.add_sub_cancel, Nat.add_zero]
    split
    · rename_i hzero
      rw [hzero, Nat.pow_zero]
      omega
    · rename_i hpos
      obtain ⟨e, he⟩ := Nat.exists_eq_succ_of_ne_zero hpos
      rw [he, Nat.succ_eq_add_one, Nat.add_sub_cancel]
      calc (2 ^ 52 + m % 2 ^ 52) * 2 ^ e < (2 ^ 52 * 2) * 2 ^ e :=
            Nat.mul_lt_mul_of_pos_right (by omega) (Nat.two_pow_pos e)
        _ = 2 ^ 52 * 2 ^ (e + 1) := by rw [Nat.mul_assoc, Nat.mul_comm 2, ← Nat.pow_succ]
  · have hdiv : (m + 1) / 2 ^ 52 = m / 2 ^ 52 := by omega
    have hmod : (m + 1) % 2 ^ 52 = m % 2 ^ 52 + 1 := by omega
    rw [hdiv, hmod]
    split
    · exact Nat.lt_succ_self _
    · exact Nat.mul_lt_mul_of_pos_right (by omega) (Nat.two_pow_pos _)

theorem units_strictMono : StrictMono units := strictMono_nat_of_lt_succ units_lt_succ

/-! ### The value of a word -/

/-- The size of a finite word: its whole number times its power of two. -/
def size (x : Binary64) : ℚ := x.decode.1 * 2 ^ x.decode.2

/-- The number that a finite word stands for. -/
def value (x : Binary64) : ℚ := if x.negative then -x.size else x.size

theorem size_eq (x : Binary64) : x.size = units x.magnitude * 2 ^ (-1074 : ℤ) := by
  unfold size decode units
  by_cases hzero : x.exponentField = 0
  · have hzero' : x.magnitude / 2 ^ 52 = 0 := hzero
    rw [if_pos hzero, if_pos hzero']
    rfl
  · have hzero' : x.magnitude / 2 ^ 52 ≠ 0 := hzero
    obtain ⟨e, he⟩ := Nat.exists_eq_succ_of_ne_zero hzero
    have he' : x.magnitude / 2 ^ 52 = e.succ := he
    have hexp : ((e.succ : ℕ) : ℤ) - 1075 = e + (-1074) := by omega
    rw [if_neg hzero, if_neg hzero', he, he', hexp, zpow_add₀ two_ne_zero, zpow_natCast,
      Nat.succ_sub_one, Nat.cast_mul, Nat.cast_pow, mul_assoc]
    rfl

/-- The units of a rank, with its sign. -/
def signedUnits : ℤ → ℤ
  | .ofNat m => units m
  | .negSucc m => -units (m + 1)

theorem signedUnits_strictMono : StrictMono signedUnits := by
  have hpos (m : ℕ) : 0 < units (m + 1) := units_strictMono (Nat.succ_pos m)
  intro a b hab
  cases a with
  | ofNat a =>
    cases b with
    | ofNat b => exact Int.ofNat_lt.mpr (units_strictMono (Int.ofNat_lt.mp hab))
    | negSucc b => exact absurd hab ((Int.negSucc_lt_zero b).le.trans (Int.natCast_nonneg a)).not_gt
  | negSucc a =>
    cases b with
    | ofNat b =>
      have := hpos a
      simp only [signedUnits]
      omega
    | negSucc b =>
      have := units_strictMono (show b + 1 < a + 1 by omega)
      simp only [signedUnits]
      omega

theorem value_eq (x : Binary64) : x.value = signedUnits x.rank * 2 ^ (-1074 : ℤ) := by
  unfold value rank
  rw [size_eq]
  split
  · cases x.magnitude with
    | zero => simp [signedUnits, units_zero]
    | succ m =>
      rw [← neg_mul]
      congr 1
  · rfl

theorem unit_pos : (0 : ℚ) < 2 ^ (-1074 : ℤ) := zpow_pos two_pos _

theorem lt_iff_value {x y : Binary64} : x < y ↔ x.value < y.value := by
  rw [value_eq, value_eq, mul_lt_mul_iff_left₀ unit_pos, Int.cast_lt,
    signedUnits_strictMono.lt_iff_lt, lt_def]

theorem rank_eq_iff_value {x y : Binary64} : x.rank = y.rank ↔ x.value = y.value := by
  rw [value_eq, value_eq, mul_left_inj' unit_pos.ne', Int.cast_inj,
    signedUnits_strictMono.injective.eq_iff]

end Binary64

end CodeAtlas
