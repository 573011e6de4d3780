import Mathlib.Analysis.Real.Pi.Bounds
import Mathlib.Analysis.SpecialFunctions.Trigonometric.Bounds
import Mathlib.Tactic.LinearCombination

/-!
# How far a circle on the sphere reaches

Latitudes and longitudes in radians.  A point within the angle `δ` of a centre is off by
at most `δ` in latitude, and by at most `δ / cos (|φ| + δ)` in longitude: the cosine is
taken at the latitude of the circle farthest from the equator.
-/

namespace Sphere

open Real

/-- The haversine of the angle between points at latitudes `φ` and `φ'`, from half of what
they differ by in latitude and in longitude. -/
noncomputable def hav (φ φ' halfLat halfLon : ℝ) : ℝ :=
  sin halfLat ^ 2 + cos φ * cos φ' * sin halfLon ^ 2

variable {φ φ' Δlon δ x y : ℝ}

theorem sq_sin_lt (hx : 0 ≤ x) (hxy : x < y) (hy : y ≤ π / 2) : sin x ^ 2 < sin y ^ 2 := by
  have hsin : sin x < sin y := sin_lt_sin_of_lt_of_le_pi_div_two (by linarith [pi_pos]) hy hxy
  exact pow_lt_pow_left₀ hsin (sin_nonneg_of_nonneg_of_le_pi hx (by linarith)) two_ne_zero

theorem sq_sin_abs (x : ℝ) : sin |x| ^ 2 = sin x ^ 2 := by
  rcases abs_choice x with h | h <;> rw [h]
  rw [sin_neg, neg_sq]

theorem abs_half (x : ℝ) : |x / 2| = |x| / 2 := by rw [abs_div, abs_two]

/-- A circle reaches no farther than its angle in latitude. -/
theorem abs_lat_le (hφ : 0 ≤ cos φ) (hφ' : 0 ≤ cos φ') (hδ : 0 ≤ δ) (hlat : |φ' - φ| ≤ π)
    (h : hav φ φ' ((φ' - φ) / 2) (Δlon / 2) ≤ sin (δ / 2) ^ 2) : |φ' - φ| ≤ δ := by
  by_contra hfar
  have hless : sin (δ / 2) ^ 2 < sin (|φ' - φ| / 2) ^ 2 :=
    sq_sin_lt (by linarith) (by linarith) (by linarith)
  rw [← abs_half, sq_sin_abs] at hless
  have hnonneg : 0 ≤ cos φ * cos φ' * sin (Δlon / 2) ^ 2 :=
    mul_nonneg (mul_nonneg hφ hφ') (sq_nonneg _)
  rw [hav] at h
  linarith

/-! ## The longitude -/

theorem third_le_sin_half (hδ : 0 ≤ δ) (hδ' : δ ≤ 1) : 31 / 100 * δ ≤ sin (δ / 2) := by
  have hjordan : 2 / π * (δ / 2) ≤ sin (δ / 2) :=
    mul_le_sin (by linarith) (by linarith [pi_gt_three])
  have hpi : 31 / 100 ≤ 1 / π := by
    rw [le_div_iff₀ pi_pos]
    linarith [pi_lt_d2]
  calc 31 / 100 * δ ≤ 1 / π * δ := mul_le_mul_of_nonneg_right hpi hδ
    _ = 2 / π * (δ / 2) := by ring
    _ ≤ sin (δ / 2) := hjordan

theorem cos_sub_cos_add (φ δ : ℝ) :
    cos φ - cos (φ + δ) = 2 * (sin (φ + δ / 2) * sin (δ / 2)) := by
  rw [cos_sub_cos, show (φ + (φ + δ)) / 2 = φ + δ / 2 by ring,
    show (φ - (φ + δ)) / 2 = -(δ / 2) by ring, sin_neg]
  ring

/-- Near the equator the cosine drops at least quadratically. -/
theorem quadratic_drop (hφ : 0 ≤ φ) (hδ : 0 ≤ δ) (hδ' : δ ≤ 1) (hquarter : φ + δ ≤ π / 2) :
    (31 / 100 * δ) ^ 2 ≤ sin (φ + δ / 2) * sin (δ / 2) := by
  have hhalf : 31 / 100 * δ ≤ sin (δ / 2) := third_le_sin_half hδ hδ'
  have hmore : sin (δ / 2) ≤ sin (φ + δ / 2) :=
    sin_le_sin_of_le_of_le_pi_div_two (by linarith [pi_pos]) (by linarith) (by linarith)
  have hnonneg : 0 ≤ 31 / 100 * δ := by positivity
  rw [sq]
  exact mul_le_mul (hhalf.trans hmore) hhalf hnonneg (by linarith)

/-- Away from it the drop is at least linear. -/
theorem linear_drop (hφ : 0 ≤ φ) (hδ : 0 < δ) (hδ' : δ ≤ 1 / 2) (hquarter : φ + δ ≤ π / 2)
    (hwide : cos (φ + δ) ^ 2 < 1 / 2) :
    45 / 100 * (31 / 100 * δ) ≤ sin (φ + δ / 2) * sin (δ / 2) := by
  have hhalf : 31 / 100 * δ ≤ sin (δ / 2) := third_le_sin_half hδ.le (by linarith)
  have hsin : 7 / 10 < sin (φ + δ) := by
    have hnonneg : 0 ≤ sin (φ + δ) := sin_nonneg_of_nonneg_of_le_pi (by linarith) (by linarith)
    apply lt_of_pow_lt_pow_left₀ 2 hnonneg
    linarith [sin_sq_add_cos_sq (φ + δ)]
  have hnear : sin (φ + δ) - sin (φ + δ / 2) ≤ δ / 2 := by
    have habs := abs_sin_sub_sin_le (φ + δ) (φ + δ / 2)
    rw [show φ + δ - (φ + δ / 2) = δ / 2 by ring, abs_of_pos (half_pos hδ)] at habs
    exact (le_abs_self _).trans habs
  have hmid : 45 / 100 ≤ sin (φ + δ / 2) := by linarith
  have hnonneg : 0 ≤ 31 / 100 * δ := by positivity
  exact mul_le_mul hmid hhalf hnonneg (by linarith)

/-- The cosine falls by more than the cube of the sine takes away. -/
theorem cos_drop (hφ : 0 ≤ φ) (hδ : 0 < δ) (hquarter : φ + δ ≤ π / 2)
    (hsmall : δ ≤ cos (φ + δ) ^ 2) :
    cos φ * δ ^ 2 ≤ 12 * cos (φ + δ) ^ 2 * (cos φ - cos (φ + δ)) := by
  have hone : cos (φ + δ) ^ 2 ≤ 1 := cos_sq_le_one _
  have hsquare : cos φ * δ ^ 2 ≤ 1 * δ ^ 2 :=
    mul_le_mul_of_nonneg_right (cos_le_one φ) (sq_nonneg δ)
  rw [cos_sub_cos_add]
  rcases le_or_gt (1 / 2) (cos (φ + δ) ^ 2) with hwide | hwide
  · have hdrop := quadratic_drop hφ hδ.le (by linarith) hquarter
    have hscale := mul_le_mul hwide hdrop (sq_nonneg _) (sq_nonneg _)
    linarith [sq_nonneg δ]
  · have hdrop := linear_drop hφ hδ (by linarith) hquarter hwide
    have hside : δ ^ 2 ≤ cos (φ + δ) ^ 2 * δ := by
      rw [sq]
      exact mul_le_mul_of_nonneg_right hsmall hδ.le
    have hscale := mul_le_mul_of_nonneg_left hdrop (sq_nonneg (cos (φ + δ)))
    have hprod : 0 ≤ cos (φ + δ) ^ 2 * δ := by positivity
    linarith

theorem sq_sin_ge (hx : 0 ≤ x) (hx' : x ≤ 1) : x ^ 2 * (1 - x ^ 2 / 3) ≤ sin x ^ 2 := by
  have hcube : x - x ^ 3 / 6 ≤ sin x := sin_ge_sub_cube hx
  have hnonneg : 0 ≤ x - x ^ 3 / 6 := by
    nlinarith [mul_nonneg hx hx, mul_nonneg hx (sub_nonneg.mpr hx')]
  calc x ^ 2 * (1 - x ^ 2 / 3) ≤ x ^ 2 * (1 - x ^ 2 / 3) + (x ^ 3 / 6) ^ 2 := by
        linarith [sq_nonneg (x ^ 3 / 6)]
    _ = (x - x ^ 3 / 6) ^ 2 := by ring
    _ ≤ sin x ^ 2 := pow_le_pow_left₀ hnonneg hcube 2

/-- Half the width of the circle, on its circle of latitude farthest from the equator, is
worth the radius at the centre and there. -/
theorem sq_sin_half_le (hφ : 0 ≤ φ) (hδ : 0 < δ) (hquarter : φ + δ ≤ π / 2)
    (hcos : 0 < cos (φ + δ)) (hsmall : δ ≤ cos (φ + δ) ^ 2) :
    sin (δ / 2) ^ 2 ≤ cos φ * cos (φ + δ) * sin (δ / (2 * cos (φ + δ))) ^ 2 := by
  have hdrop := cos_drop hφ hδ hquarter hsmall
  have hφcos : 0 ≤ cos φ := cos_nonneg_of_neg_pi_div_two_le_of_le (by linarith) (by linarith)
  have hone : cos (φ + δ) ≤ 1 := cos_le_one _
  generalize cos (φ + δ) = c at hdrop hcos hsmall hone ⊢
  obtain ⟨u, hu⟩ : ∃ u, u = δ / (2 * c) := ⟨_, rfl⟩
  have hδu : δ = 2 * c * u := by
    rw [hu]
    field_simp
  have hu0 : 0 ≤ u := by
    rw [hu]
    positivity
  have hu1 : u ≤ 1 := by
    rw [hu, div_le_one (by positivity)]
    nlinarith
  have hsq : u ^ 2 * (1 - u ^ 2 / 3) ≤ sin u ^ 2 := sq_sin_ge hu0 hu1
  have hratio : c ≤ cos φ * (1 - u ^ 2 / 3) := by
    have hscaled : c ^ 2 * (cos φ * u ^ 2) ≤ c ^ 2 * (3 * (cos φ - c)) := by
      rw [hδu] at hdrop
      linarith
    have hdivided := le_of_mul_le_mul_left hscaled (by positivity)
    linarith
  have hleft : sin (δ / 2) ^ 2 ≤ c * (u ^ 2 * c) := by
    have hle : sin (δ / 2) ≤ δ / 2 := sin_le (by linarith)
    have hnonneg : 0 ≤ sin (δ / 2) :=
      sin_nonneg_of_nonneg_of_le_pi (by linarith) (by linarith [pi_pos])
    calc sin (δ / 2) ^ 2 ≤ (δ / 2) ^ 2 := pow_le_pow_left₀ hnonneg hle 2
      _ = c * (u ^ 2 * c) := by
        rw [hδu]
        ring
  rw [← hu]
  calc sin (δ / 2) ^ 2 ≤ c * (u ^ 2 * c) := hleft
    _ ≤ c * (u ^ 2 * (cos φ * (1 - u ^ 2 / 3))) := by gcongr
    _ = cos φ * c * (u ^ 2 * (1 - u ^ 2 / 3)) := by ring
    _ ≤ cos φ * c * sin u ^ 2 := by gcongr

theorem sq_sin_lt_of_lt_sub (hx : 0 ≤ x) (hxy : x < y) (hy : y < π - x) :
    sin x ^ 2 < sin y ^ 2 := by
  rcases le_total y (π / 2) with hquarter | hquarter
  · exact sq_sin_lt hx hxy hquarter
  · rw [← sin_pi_sub y]
    exact sq_sin_lt hx (by linarith) (by linarith)

/-- A circle reaches no farther in longitude than its angle over the cosine of its latitude
farthest from the equator. -/
theorem abs_lon_le (hδ : 0 < δ) (hquarter : |φ| + δ ≤ π / 2) (hsmall : δ ≤ cos (|φ| + δ) ^ 2)
    (hlat : |φ'| ≤ |φ| + δ) (hlon : |Δlon| + δ / cos (|φ| + δ) < 2 * π)
    (h : hav φ φ' ((φ' - φ) / 2) (Δlon / 2) ≤ sin (δ / 2) ^ 2) : |Δlon| ≤ δ / cos (|φ| + δ) := by
  have hφ : 0 ≤ |φ| := abs_nonneg φ
  have hcos : 0 < cos (|φ| + δ) := by
    have hnonneg : 0 ≤ cos (|φ| + δ) :=
      cos_nonneg_of_neg_pi_div_two_le_of_le (by linarith) hquarter
    apply lt_of_le_of_ne hnonneg
    intro hzero
    rw [← hzero] at hsmall
    linarith
  by_contra hfar
  rw [not_le] at hfar
  have hhalf : δ / (2 * cos (|φ| + δ)) = δ / cos (|φ| + δ) / 2 := by
    rw [div_div, mul_comm]
  have hless : sin (δ / (2 * cos (|φ| + δ))) ^ 2 < sin (Δlon / 2) ^ 2 := by
    rw [← sq_sin_abs (Δlon / 2), abs_half]
    apply sq_sin_lt_of_lt_sub (by positivity) <;> linarith
  have hφcos : 0 < cos |φ| := by
    apply hcos.trans_le
    exact cos_le_cos_of_nonneg_of_le_pi hφ (by linarith [pi_pos]) (by linarith)
  have hφ'cos : cos (|φ| + δ) ≤ cos φ' := by
    rw [← cos_abs φ']
    exact cos_le_cos_of_nonneg_of_le_pi (abs_nonneg φ') (by linarith [pi_pos]) hlat
  have hreach := sq_sin_half_le hφ hδ hquarter hcos hsmall
  have hstrict : sin (δ / 2) ^ 2 < cos φ * cos φ' * sin (Δlon / 2) ^ 2 := by
    rw [← cos_abs φ]
    calc sin (δ / 2) ^ 2 ≤ cos |φ| * cos (|φ| + δ) * sin (δ / (2 * cos (|φ| + δ))) ^ 2 := hreach
      _ < cos |φ| * cos (|φ| + δ) * sin (Δlon / 2) ^ 2 := by gcongr
      _ ≤ cos |φ| * cos φ' * sin (Δlon / 2) ^ 2 := by gcongr
  rw [hav] at h
  linarith [sq_nonneg (sin ((φ' - φ) / 2))]

end Sphere
