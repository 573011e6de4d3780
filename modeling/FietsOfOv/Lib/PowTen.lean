import Mathlib.Analysis.SpecialFunctions.Pow.Real

/-!
# Powers of ten with a fractional exponent

`10 ** (e / 32)` over doubles: its value rounded to four decimals, computed
exactly by integer roots, and the exponents from which on it is out of the range
of a double.
-/

namespace Decimal

/-- The integer part of the `2 ^ k`-th root of a number. -/
def floorRoot : Nat → Nat → Nat
  | 0, n => n
  | k + 1, n => floorRoot k n.sqrt

theorem le_floorRoot {k m n : Nat} : m ≤ floorRoot k n ↔ m ^ 2 ^ k ≤ n := by
  induction k generalizing n with
  | zero => simp [floorRoot]
  | succ k ih => rw [floorRoot, ih, Nat.le_sqrt', ← pow_mul, ← pow_succ]

/-- `round(10 ** (e / 32), 4)`, for an exponent above `-128`. -/
def roundedPowTen (e : Int) : ℚ :=
  (((floorRoot 5 (2 ^ 32 * 10 ^ (e + 128).toNat) + 1) / 2 : Nat) : ℚ) / 10 ^ 4

/-- Half of a rounded-up double is the nearest integer. -/
theorem abs_half_sub_le {n t : Nat} {y : ℝ} (hroot : ∀ m : Nat, m ≤ t ↔ m ^ 32 ≤ 2 ^ 32 * 10 ^ n)
    (hy : 0 < y) (hpow : y ^ 32 = 10 ^ n) : |(((t + 1) / 2 : Nat) : ℝ) - y| ≤ 1 / 2 := by
  have hdouble : (2 * y) ^ 32 = 2 ^ 32 * 10 ^ n := by rw [mul_pow, hpow]
  have hbelow : (t : ℝ) ≤ 2 * y := by
    have hle : (t : ℝ) ^ 32 ≤ 2 ^ 32 * 10 ^ n := by exact_mod_cast (hroot t).mp (Nat.le_refl t)
    rw [← hdouble] at hle
    exact le_of_pow_le_pow_left₀ (by decide) (by positivity) hle
  have habove : 2 * y < t + 1 := by
    have hlt : ¬ (t + 1) ^ 32 ≤ 2 ^ 32 * 10 ^ n := by
      rw [← hroot]
      exact Nat.not_succ_le_self t
    have hlt' : (2 : ℝ) ^ 32 * 10 ^ n < (t + 1) ^ 32 := by exact_mod_cast not_le.mp hlt
    rw [← hdouble] at hlt'
    exact lt_of_pow_lt_pow_left₀ 32 (by positivity) hlt'
  have hlo : (2 : ℝ) * ((t + 1) / 2 : Nat) ≤ t + 1 := by
    exact_mod_cast Nat.mul_div_le (t + 1) 2
  have hhi : (t : ℝ) ≤ 2 * ((t + 1) / 2 : Nat) := by
    have : t ≤ 2 * ((t + 1) / 2) := by omega
    exact_mod_cast this
  rw [abs_le]
  constructor <;> linarith

theorem abs_roundedPowTen_sub_le {e : Int} (he : -128 ≤ e) :
    |(roundedPowTen e : ℝ) - (10 : ℝ) ^ ((e : ℝ) / 32)| ≤ 1 / 20000 := by
  obtain ⟨n, hn⟩ : ∃ n : Nat, e + 128 = n := ⟨(e + 128).toNat, by omega⟩
  have heq : (e : ℝ) = n - 128 := by
    have hcast : ((e + 128 : Int) : ℝ) = n := by rw [hn, Int.cast_natCast]
    push_cast at hcast
    linarith
  have hy : (10 : ℝ) ^ ((e : ℝ) / 32) = 10 ^ ((n : ℝ) / 32) / 10 ^ 4 := by
    rw [heq, sub_div, Real.rpow_sub (by norm_num)]
    norm_num
  have hpow : ((10 : ℝ) ^ ((n : ℝ) / 32)) ^ 32 = 10 ^ n := by
    rw [← Real.rpow_mul_natCast (by norm_num)]
    norm_num
  have hhalf := abs_half_sub_le (fun m => @le_floorRoot 5 m _)
    (Real.rpow_pos_of_pos (by norm_num) _) hpow
  rw [roundedPowTen, hn, Int.toNat_natCast, hy]
  push_cast
  rw [← sub_div, abs_div, abs_of_pos (by norm_num : (0 : ℝ) < 10 ^ 4), div_le_iff₀ (by norm_num)]
  linarith

/-- What rounds to this or more is out of the range of a double. -/
def doubleLimit : Nat := 2 ^ 1024 - 2 ^ 970

theorem doubleLimit_le_powTen_iff (e : Int) :
    (doubleLimit : ℝ) ≤ (10 : ℝ) ^ ((e : ℝ) / 32) ↔ 9864 < e := by
  have hroot : ∀ n : Nat, ((10 : ℝ) ^ ((n : ℝ) / 32)) ^ 32 = 10 ^ n := by
    intro n
    rw [← Real.rpow_mul_natCast (by norm_num)]
    norm_num
  constructor
  · intro h
    by_contra hle
    have hexp : (e : ℝ) / 32 ≤ ((9864 : Nat) : ℝ) / 32 := by
      have : (e : ℝ) ≤ (9864 : Int) := by exact_mod_cast not_lt.mp hle
      push_cast at this ⊢
      linarith
    have hpow := pow_le_pow_left₀ (Nat.cast_nonneg _)
      (h.trans (Real.rpow_le_rpow_of_exponent_le (by norm_num) hexp)) 32
    rw [hroot] at hpow
    have hnat : doubleLimit ^ 32 ≤ 10 ^ 9864 := by exact_mod_cast hpow
    exact absurd hnat (by decide +kernel)
  · intro h
    have hexp : ((9865 : Nat) : ℝ) / 32 ≤ (e : ℝ) / 32 := by
      have : ((9865 : Int) : ℝ) ≤ e := by exact_mod_cast h
      push_cast at this ⊢
      linarith
    have hnat : doubleLimit ^ 32 ≤ 10 ^ 9865 := by decide +kernel
    have hpow : (doubleLimit : ℝ) ^ 32 ≤ ((10 : ℝ) ^ (((9865 : Nat) : ℝ) / 32)) ^ 32 := by
      rw [hroot]
      exact_mod_cast hnat
    exact (le_of_pow_le_pow_left₀ (by decide) (by positivity) hpow).trans
      (Real.rpow_le_rpow_of_exponent_le (by norm_num) hexp)
end Decimal
