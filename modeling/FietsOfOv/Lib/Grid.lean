import Mathlib.Data.Int.ModEq
import Mathlib.Data.List.Nodup
import Mathlib.Tactic.Linarith
import Mathlib.Tactic.Ring

/-!
# Points of a grid in a stretch

The integers of one residue, so the marks of a clock or the sampling times of a
sensor, that lie in a closed stretch: which they are, how many, and when as many
widths as there are points make up the whole length.
-/

namespace Grid

variable {width phase start length : Int}

/-- The distance to the first point of the grid that is not before the start. -/
def toNext (width phase start : Int) : Int := (phase - start) % width

/-- The points of the grid from the start on, within the length. -/
def points (width phase start length : Int) : List Int :=
  (List.range ((length - toNext width phase start) / width + 1).toNat).map fun k : Nat =>
    start + toNext width phase start + k * width

theorem toNext_nonneg (hwidth : 0 < width) : 0 ≤ toNext width phase start :=
  Int.emod_nonneg _ (ne_of_gt hwidth)

theorem toNext_lt (hwidth : 0 < width) : toNext width phase start < width :=
  Int.emod_lt_of_pos _ hwidth

theorem add_toNext_modEq (width phase start : Int) :
    start + toNext width phase start ≡ phase [ZMOD width] := by
  calc
    start + toNext width phase start ≡ start + (phase - start) [ZMOD width] :=
      (Int.mod_modEq (phase - start) width).add_left start
    _ = phase := by ring

theorem mem_points (hwidth : 0 < width) {m : Int} :
    m ∈ points width phase start length ↔
      start ≤ m ∧ m ≤ start + length ∧ m ≡ phase [ZMOD width] := by
  have hnonneg := @toNext_nonneg width phase start hwidth
  have hlt := @toNext_lt width phase start hwidth
  have hgrid := add_toNext_modEq width phase start
  simp only [points, List.mem_map, List.mem_range]
  constructor
  · rintro ⟨k, hk, rfl⟩
    have hk' : (k : Int) ≤ (length - toNext width phase start) / width := by omega
    have hreach := (Int.le_ediv_iff_mul_le hwidth).mp hk'
    have hpos : 0 ≤ (k : Int) * width := mul_nonneg (Int.natCast_nonneg k) hwidth.le
    refine ⟨by omega, by omega, ?_⟩
    calc
      start + toNext width phase start + k * width ≡ start + toNext width phase start + 0
          [ZMOD width] := (Int.modEq_zero_iff_dvd.mpr (Dvd.intro_left _ rfl)).add_left _
      _ = start + toNext width phase start := add_zero _
      _ ≡ phase [ZMOD width] := hgrid
  · rintro ⟨hstart, hstop, hm⟩
    obtain ⟨c, hc⟩ := (hgrid.trans hm.symm).dvd
    have hcnonneg : 0 ≤ c := by
      by_contra hneg
      have hle : width * c ≤ width * (-1) := mul_le_mul_of_nonneg_left (by omega) hwidth.le
      omega
    have hcle : c ≤ (length - toNext width phase start) / width := by
      rw [Int.le_ediv_iff_mul_le hwidth, mul_comm]
      omega
    refine ⟨c.toNat, by omega, ?_⟩
    rw [Int.toNat_of_nonneg hcnonneg, mul_comm]
    omega

theorem nodup_points (hwidth : 0 < width) : (points width phase start length).Nodup := by
  refine List.Nodup.map ?_ List.nodup_range
  intro j k hjk
  have hmul : (j : Int) * width = k * width := by
    simpa using hjk
  exact_mod_cast mul_right_cancel₀ (ne_of_gt hwidth) hmul

/-- A width for each point makes up the length if the length is a whole number of widths,
    or the first point comes soon enough for one more to fit in. -/
theorem length_le_points_iff (hwidth : 0 < width) (hlength : 0 ≤ length) :
    length ≤ width * (points width phase start length).length ↔
      length % width = 0 ∨ toNext width phase start ≤ length % width := by
  have hnonneg := @toNext_nonneg width phase start hwidth
  have hlt := @toNext_lt width phase start hwidth
  have hsplit := Int.mul_ediv_add_emod length width
  have hrest := Int.emod_nonneg length (ne_of_gt hwidth)
  have hrest' := Int.emod_lt_of_pos length hwidth
  have hquot : 0 ≤ length / width := Int.ediv_nonneg hlength hwidth.le
  simp only [points, List.length_map, List.length_range]
  by_cases hfits : toNext width phase start ≤ length % width
  · have hcount : (length - toNext width phase start) / width = length / width := by
      rw [Int.ediv_eq_iff_of_pos hwidth, mul_comm]
      omega
    rw [hcount, Int.toNat_of_nonneg (by omega), mul_add, mul_one]
    constructor
    · intro _
      exact Or.inr hfits
    · intro _
      omega
  · have hcount : (length - toNext width phase start) / width = length / width - 1 := by
      rw [Int.ediv_eq_iff_of_pos hwidth, sub_mul, one_mul, mul_comm]
      omega
    rw [hcount, sub_add_cancel, Int.toNat_of_nonneg hquot]
    constructor
    · intro hle
      left
      omega
    · rintro (hzero | hle)
      · omega
      · exact absurd hle hfits

end Grid
