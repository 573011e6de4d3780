import FietsOfOv.Lib.Sphere
import Mathlib.Analysis.SpecialFunctions.Trigonometric.Inverse

/-!
# Great-circle helpers

`app/services/geo.py`, its floats read as real numbers: the distance between two points,
the box of degrees around a circle, and why the circle lies in the box.
-/

namespace FietsOfOv

open Real

noncomputable section

def earthRadiusM : ℝ := 6371000

/-- `_M_PER_DEG_LAT`. -/
def mPerDegLat : ℝ := π / 180 * earthRadiusM

/-- `math.radians`. -/
def radians (x : ℝ) : ℝ := x * (π / 180)

def haversineM (lat1 lon1 lat2 lon2 : ℝ) : ℝ :=
  let p1 := radians lat1
  let p2 := radians lat2
  let dphi := radians (lat2 - lat1)
  let dlambda := radians (lon2 - lon1)
  let a := sin (dphi / 2) ^ 2 + cos p1 * cos p2 * sin (dlambda / 2) ^ 2
  2 * earthRadiusM * arcsin √(min 1 a)

structure BoundingBox where
  latMin : ℝ
  latMax : ℝ
  lonMin : ℝ
  lonMax : ℝ

def boundingBox (lat lon radiusM : ℝ) : BoundingBox :=
  let latDelta := radiusM / mPerDegLat
  let farLat := |lat| + latDelta
  let lonDelta := radiusM / (mPerDegLat * max (cos (radians farLat)) 1e-6)
  { latMin := lat - latDelta, latMax := lat + latDelta
    lonMin := lon - lonDelta, lonMax := lon + lonDelta }

def BoundingBox.contains (box : BoundingBox) (lat lon : ℝ) : Prop :=
  (box.latMin ≤ lat ∧ lat ≤ box.latMax) ∧ box.lonMin ≤ lon ∧ lon ≤ box.lonMax

end

variable {lat lon lat' lon' radiusM x : ℝ}

/-! ## Degrees and radians -/

theorem radians_sub (x y : ℝ) : radians (x - y) = radians x - radians y := sub_mul x y (π / 180)

theorem abs_radians (x : ℝ) : |radians x| = radians |x| := by
  rw [radians, radians, abs_mul, abs_of_pos (by positivity : 0 < π / 180)]

theorem radians_le_radians {x y : ℝ} : radians x ≤ radians y ↔ x ≤ y :=
  mul_le_mul_iff_left₀ (by positivity)

theorem radians_ninety : radians 90 = π / 2 := by
  rw [radians]
  ring

theorem radians_latDelta (radiusM : ℝ) :
    radians (radiusM / mPerDegLat) = radiusM / earthRadiusM := by
  rw [radians, mPerDegLat, earthRadiusM]
  field_simp

theorem radians_lonDelta (radiusM c : ℝ) :
    radians (radiusM / (mPerDegLat * c)) = radiusM / earthRadiusM / c := by
  rw [← div_div, radians, div_mul_eq_mul_div, ← radians_latDelta, radians]

theorem cos_radians_nonneg (h : |x| ≤ 90) : 0 ≤ cos (radians x) := by
  have hquarter := radians_le_radians.mpr h
  rw [radians_ninety, ← abs_radians, abs_le] at hquarter
  exact cos_nonneg_of_neg_pi_div_two_le_of_le hquarter.1 hquarter.2

/-! ## The circle -/

theorem haversineM_eq (lat lon lat' lon' : ℝ) :
    haversineM lat lon lat' lon' = 2 * earthRadiusM *
      arcsin √(min 1 (Sphere.hav (radians lat) (radians lat')
        ((radians lat' - radians lat) / 2) (radians (lon' - lon) / 2))) := by
  rw [haversineM, Sphere.hav, radians_sub lat' lat]

theorem sq_sin_half_lt_one (hx : 0 ≤ x) (hx' : x < π) : sin (x / 2) ^ 2 < 1 := by
  have hcos : 0 < cos (x / 2) := cos_pos_of_mem_Ioo ⟨by linarith, by linarith⟩
  nlinarith [sin_sq_add_cos_sq (x / 2)]

theorem hav_le_of_haversineM_le (hnonneg : 0 ≤ radiusM / earthRadiusM)
    (hradius : radiusM / earthRadiusM < π) (h : haversineM lat lon lat' lon' ≤ radiusM) :
    Sphere.hav (radians lat) (radians lat') ((radians lat' - radians lat) / 2)
      (radians (lon' - lon) / 2) ≤ sin (radiusM / earthRadiusM / 2) ^ 2 := by
  have hangle : arcsin √(min 1 (Sphere.hav (radians lat) (radians lat')
      ((radians lat' - radians lat) / 2) (radians (lon' - lon) / 2))) ≤
        radiusM / earthRadiusM / 2 := by
    rw [haversineM_eq] at h
    rw [div_div, le_div_iff₀ (by norm_num [earthRadiusM])]
    linarith
  rw [arcsin_le_iff_le_sin' ⟨by linarith, by linarith⟩, sqrt_le_left] at hangle
  · -- the clamp does not bite within half the circumference
    rcases min_le_iff.mp hangle with hone | hhav
    · exact absurd (sq_sin_half_lt_one hnonneg hradius) (not_lt.mpr hone)
    · exact hhav
  · exact sin_nonneg_of_nonneg_of_le_pi (by linarith) (by linarith)

/-! ## The box around the circle

Five kilometres are less than a thousandth of the radius of the earth. -/

theorem angle_pos (hradius : 0 < radiusM) : 0 < radiusM / earthRadiusM := by
  rw [earthRadiusM]
  positivity

theorem angle_le (hradius : radiusM ≤ 5000) : radiusM / earthRadiusM ≤ 1 / 1000 := by
  rw [earthRadiusM, div_le_div_iff₀ (by norm_num) (by norm_num)]
  linarith

theorem abs_lat_sub_le (hcentre : |lat| ≤ 90) (hpoint : |lat'| ≤ 80) (hradius : 0 < radiusM)
    (hradius' : radiusM ≤ 5000) (h : haversineM lat lon lat' lon' ≤ radiusM) :
    |lat' - lat| ≤ radiusM / mPerDegLat := by
  have hδ := angle_pos hradius
  have hhav := hav_le_of_haversineM_le hδ.le (by linarith [angle_le hradius', pi_gt_three]) h
  have hhalfTurn : |radians lat' - radians lat| ≤ π := by
    rw [← radians_sub, abs_radians, radians]
    have hdegrees : |lat' - lat| ≤ 180 := (abs_sub _ _).trans (by linarith)
    calc |lat' - lat| * (π / 180) ≤ 180 * (π / 180) := by gcongr
      _ = π := by ring
  have hreach := Sphere.abs_lat_le (cos_radians_nonneg hcentre)
    (cos_radians_nonneg (hpoint.trans (by norm_num))) hδ.le hhalfTurn hhav
  rw [← radians_sub, abs_radians, ← radians_latDelta] at hreach
  exact radians_le_radians.mp hreach

theorem angle_farLat (lat radiusM : ℝ) :
    radians (|lat| + radiusM / mPerDegLat) = |radians lat| + radiusM / earthRadiusM := by
  rw [abs_radians, ← radians_latDelta, radians, radians, radians, add_mul]

theorem angle_farLat_le (hlat : |lat| ≤ 80 + radiusM / mPerDegLat) (hradius : radiusM ≤ 5000) :
    |radians lat| + radiusM / earthRadiusM ≤ 4 / 9 * π + 1 / 500 := by
  have hcentre : radians |lat| ≤ radians 80 + radiusM / earthRadiusM := by
    rw [← radians_latDelta, radians, radians, radians, ← add_mul]
    gcongr
  have heighty : radians 80 = 4 / 9 * π := by
    rw [radians]
    ring
  rw [abs_radians]
  linarith [angle_le hradius]

/-- The floor of the cosine does not bite below eighty-one degrees. -/
theorem tenth_le_cos_farLat (hlat : |lat| ≤ 80 + radiusM / mPerDegLat) (hradius : 0 < radiusM)
    (hradius' : radiusM ≤ 5000) : 1 / 10 ≤ cos (|radians lat| + radiusM / earthRadiusM) := by
  have hfar := angle_farLat_le hlat hradius'
  have hnonneg : 0 ≤ |radians lat| + radiusM / earthRadiusM :=
    add_nonneg (abs_nonneg _) (angle_pos hradius).le
  have hjordan := one_sub_mul_le_cos hnonneg (by linarith [pi_gt_three])
  have hslope : 2 / π * (|radians lat| + radiusM / earthRadiusM) ≤ 8 / 9 + 1 / 500 := by
    calc 2 / π * (|radians lat| + radiusM / earthRadiusM) ≤ 2 / π * (4 / 9 * π + 1 / 500) := by
          gcongr
      _ = 8 / 9 + 2 / π * (1 / 500) := by
          field_simp
          ring
      _ ≤ 8 / 9 + 1 / 500 := by
          have hslope : 2 / π ≤ 1 := by
            rw [div_le_one pi_pos]
            linarith [pi_gt_three]
          linarith
  linarith

theorem abs_lon_sub_le (hcentre : |lat| ≤ 90) (hcentre' : |lon| ≤ 180) (hpoint : |lat'| ≤ 80)
    (hpoint' : |lon'| ≤ 170) (hradius : 0 < radiusM) (hradius' : radiusM ≤ 5000)
    (h : haversineM lat lon lat' lon' ≤ radiusM) :
    |lon' - lon| ≤ radiusM /
      (mPerDegLat * max (cos (radians (|lat| + radiusM / mPerDegLat))) 1e-6) := by
  have hlat := abs_lat_sub_le hcentre hpoint hradius hradius' h
  have hnear : |lat| ≤ 80 + radiusM / mPerDegLat := by
    have htri : |lat| - |lat'| ≤ |lat' - lat| := by
      rw [abs_sub_comm]
      exact abs_sub_abs_le_abs_sub lat lat'
    linarith
  have hnear' : |radians lat'| ≤ |radians lat| + radiusM / earthRadiusM := by
    have htri : |lat'| - |lat| ≤ |lat' - lat| := abs_sub_abs_le_abs_sub lat' lat
    rw [← angle_farLat, abs_radians, radians_le_radians]
    linarith
  have hδ := angle_pos hradius
  have hδ' := angle_le hradius'
  have hcos := tenth_le_cos_farLat hnear hradius hradius'
  have hfar := angle_farLat_le hnear hradius'
  have hhav := hav_le_of_haversineM_le hδ.le (by linarith [pi_gt_three]) h
  have hturn : |radians (lon' - lon)| ≤ 35 / 18 * π := by
    rw [abs_radians, radians]
    have hdegrees : |lon' - lon| ≤ 350 := (abs_sub _ _).trans (by linarith)
    calc |lon' - lon| * (π / 180) ≤ 350 * (π / 180) := by gcongr
      _ = 35 / 18 * π := by ring
  have hwidth :
      radiusM / earthRadiusM / cos (|radians lat| + radiusM / earthRadiusM) ≤ 1 / 100 := by
    rw [div_le_iff₀ (by linarith)]
    linarith
  have hsmall : radiusM / earthRadiusM ≤ cos (|radians lat| + radiusM / earthRadiusM) ^ 2 := by
    calc radiusM / earthRadiusM ≤ (1 / 10) ^ 2 := by linarith
      _ ≤ cos (|radians lat| + radiusM / earthRadiusM) ^ 2 := by gcongr
  have hreach := Sphere.abs_lon_le hδ (by linarith [pi_gt_three]) hsmall hnear'
    (by linarith [pi_gt_three]) hhav
  rw [angle_farLat, max_eq_left (by norm_num; linarith), ← radians_le_radians, radians_lonDelta,
    ← abs_radians]
  exact hreach

/-- Of a centre on the globe and a point away from the poles and the antimeridian, within
    five kilometres of each other, the point lies in the box around the centre. -/
theorem contains_of_haversineM_le (hcentre : |lat| ≤ 90) (hcentre' : |lon| ≤ 180)
    (hpoint : |lat'| ≤ 80) (hpoint' : |lon'| ≤ 170) (hradius : 0 < radiusM)
    (hradius' : radiusM ≤ 5000) (h : haversineM lat lon lat' lon' ≤ radiusM) :
    (boundingBox lat lon radiusM).contains lat' lon' := by
  have hlat := abs_lat_sub_le hcentre hpoint hradius hradius' h
  have hlon := abs_lon_sub_le hcentre hcentre' hpoint hpoint' hradius hradius' h
  rw [abs_le] at hlat hlon
  simp only [BoundingBox.contains, boundingBox]
  constructor
  · constructor <;> linarith
  · constructor <;> linarith

end FietsOfOv
