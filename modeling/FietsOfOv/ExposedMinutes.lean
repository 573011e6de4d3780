import FietsOfOv.Banner
import FietsOfOv.Lib.Grid

/-!
# Minutes in continuous rain

`_leg_rain` charges five minutes for every wet mark inside a leg, and at most the leg.
In rain that does not stop this is the whole leg only if enough marks fall into it: a
leg between two marks is free, and of one that begins just after a mark the minutes
up to the next mark are not made up for.
-/

namespace FietsOfOv

open WallClock

/-- The legs travelled outside. -/
def exposedLegs (legs : List Leg) : List Leg := legs.filter (·.mode ∈ exposedModes)

/-- The leg's times are in order, within a day, and its duration is the time between. -/
structure Leg.Timed (leg : Leg) : Prop where
  ordered : leg.startTime ≤ leg.endTime
  withinDay : leg.endTime < leg.startTime + 86400000
  duration : leg.duration = (leg.endTime - leg.startTime) / 1000

/-- Wet slots, one at each of the marks of a five-minute grid, speak for every instant
    of the legs. -/
structure Soaked (offset phase : Int) (legs : List Leg) (rain : RainForecast) (threshold : ℚ) :
    Prop where
  grid : ∀ s ∈ rain.slots, s.time.micros ≡ phase [ZMOD slotWidth]
  distinct : (rain.slots.map (·.time)).Nodup
  wet : ∀ s ∈ rain.slots, threshold ≤ s.mmPerH
  covered : ∀ leg ∈ legs, ∀ t : ℝ, leg.startTime ≤ t → t ≤ leg.endTime →
    ∃ s ∈ rain.slots, s.Covers offset t

/-- The marks in the leg make up for its length: it lasts a whole number of slots, or
    the first mark in it leaves room for one more. -/
def MarksFill (offset phase : Int) (leg : Leg) : Prop :=
  let length := (leg.endTime - leg.startTime) * 1000
  length % slotWidth = 0 ∨
    Grid.toNext slotWidth phase (clockMicros offset leg.startTime) ≤ length % slotWidth

instance (offset phase : Int) (leg : Leg) : Decidable (MarksFill offset phase leg) := by
  unfold MarksFill
  infer_instance

variable {env : Env} {haversineM : ℚ → ℚ → ℚ → ℚ → ℚ} {offset phase : Int} {legs : List Leg}
  {rain : RainForecast} {weights : Weights} {threshold : ℚ}

/-! ## The exposed minutes as a sum -/

theorem mem_exposedLegs {leg : Leg} :
    leg ∈ exposedLegs legs ↔ leg ∈ legs ∧ leg.mode ∈ exposedModes := by
  simp [exposedLegs]

/-- The loop of `score` adds up the minutes of the exposed legs. -/
theorem rainExposure_minutes (env : Env) (legs : List Leg) (rain : RainForecast)
    (weights : Weights) (threshold : ℚ) :
    (rainExposure env legs rain weights threshold).1 =
      ((exposedLegs legs).map fun leg => (legRain env leg rain threshold).1).sum := by
  have hfold : (rainExposure env legs rain weights threshold).1 = legs.foldl (fun total leg =>
      total + if leg.mode ∈ exposedModes then (legRain env leg rain threshold).1 else 0) 0 := by
    unfold rainExposure
    refine List.foldl_rel (r := fun (total : ℚ × ℚ) (minutes : ℚ) => total.1 = minutes) rfl ?_
    intro leg _ total minutes htotal
    by_cases hmode : leg.mode ∈ exposedModes
    · simp [hmode, htotal]
    · simp [hmode, htotal]
  suffices hfrom : ∀ minutes : ℚ, legs.foldl (fun total leg =>
      total + if leg.mode ∈ exposedModes then (legRain env leg rain threshold).1 else 0) minutes =
      minutes + ((exposedLegs legs).map fun leg => (legRain env leg rain threshold).1).sum by
    rw [hfold, hfrom, zero_add]
  clear hfold
  induction legs with
  | nil => simp [exposedLegs]
  | cons leg legs ih =>
      intro minutes
      rw [List.foldl_cons, ih]
      by_cases hmode : leg.mode ∈ exposedModes
      · simp [exposedLegs, hmode, add_assoc]
      · simp [exposedLegs, hmode]

theorem legRain_minutes {leg : Leg} (hdur : 0 ≤ leg.duration) :
    (legRain env leg rain threshold).1 =
      min (leg.duration / 60) (5 * (wetSlots env leg rain threshold).length) := by
  by_cases hwet : wetSlots env leg rain threshold = []
  · have hminutes : 0 ≤ leg.duration / 60 := by positivity
    simp [legRain_of_dry hwet, hwet, hminutes]
  · rw [legRain_of_wet hwet]

/-! ## The marks in a leg -/

theorem Leg.Timed.duration_nonneg {leg : Leg} (htimed : leg.Timed) : 0 ≤ leg.duration := by
  have hle : (leg.startTime : ℚ) ≤ leg.endTime := by exact_mod_cast htimed.ordered
  rw [htimed.duration]
  apply div_nonneg
  · linarith
  · norm_num

theorem clockMicros_add (offset start stop : Int) :
    clockMicros offset stop = clockMicros offset start + (stop - start) * 1000 := by
  unfold clockMicros
  omega

/-- Where slots speak for every instant of a window, one was shown less than its width ago
    at every microsecond in it. -/
theorem exists_shown_of_covered {slots : List RainSlot} {start stop m : Int}
    (hcovered : ∀ t : ℝ, start ≤ t → t ≤ stop → ∃ s ∈ slots, s.Covers offset t)
    (hstart : clockMicros offset start ≤ m) (hstop : m ≤ clockMicros offset stop) :
    ∃ s ∈ slots, untilShown s.time.micros m < slotWidth := by
  have hall := (@forall_instant_iff offset start stop (Cover.At (marks slots) slotWidth)).mp
    fun t hfrom hto => exists_covers_iff.mp (hcovered t hfrom hto)
  exact at_marks_iff.mp (hall m (by exact_mod_cast hstart) (by exact_mod_cast hstop))

/-- The instant of the window at which the slot's mark is shown. -/
def shownAt (start : Int) (s : RainSlot) : Int := start + untilShown start s.time.micros

/-- Slots at distinct times are shown at distinct instants. -/
theorem nodup_shownAt (start : Int) {slots : List RainSlot}
    (hdistinct : (slots.map (·.time)).Nodup) : (slots.map (shownAt start)).Nodup := by
  apply List.Nodup.of_map Time.ofMicros
  rw [List.map_map]
  have htime : Time.ofMicros ∘ shownAt start = fun s : RainSlot => s.time := by
    funext s
    have hlt := s.time.lt_day
    have hmicros := Time.micros_ofMicros (shownAt start s)
    apply Time.eq_of_micros
    simp only [Function.comp_apply, shownAt, untilShown, microsPerDay] at hlt hmicros ⊢
    omega
  rw [htime]
  exact hdistinct

/-- In continuous rain the slots that wet a leg stand at the points of the grid in it. -/
theorem wetSlots_perm_points (hrain : Soaked offset phase legs rain threshold) {leg : Leg}
    (hleg : leg ∈ legs) (htimed : leg.Timed) :
    ((wetSlots ⟨haversineM, fun _ => offset⟩ leg rain threshold).map
        (shownAt (clockMicros offset leg.startTime))).Perm
      (Grid.points slotWidth phase (clockMicros offset leg.startTime)
        ((leg.endTime - leg.startTime) * 1000)) := by
  have hordered := htimed.ordered
  have hday := htimed.withinDay
  have hkept : ((wetSlots ⟨haversineM, fun _ => offset⟩ leg rain threshold).map (·.time)).Nodup :=
    (List.filter_sublist.map _).nodup hrain.distinct
  apply (List.perm_ext_iff_of_nodup (nodup_shownAt _ hkept) (Grid.nodup_points (by decide))).mpr
  intro m
  rw [List.mem_map, Grid.mem_points (by decide)]
  constructor
  · rintro ⟨s, hs, rfl⟩
    obtain ⟨hmem, hin, _⟩ := mem_wetSlots.mp hs
    rw [inTimeWindow_local_iff haversineM hordered hday] at hin
    have hgrid := hrain.grid s hmem
    unfold shownAt untilShown at *
    unfold Int.ModEq slotWidth at *
    omega
  · rintro ⟨hstart, hstop, hm⟩
    rw [← clockMicros_add] at hstop
    obtain ⟨s, hs, hshown⟩ := exists_shown_of_covered (hrain.covered leg hleg) hstart hstop
    -- a mark of the grid lies in the slot of no other mark
    have hgrid := hrain.grid s hs
    have hfound : shownAt (clockMicros offset leg.startTime) s = m := by
      rw [clockMicros_add offset leg.startTime] at hstop
      unfold shownAt untilShown at *
      unfold Int.ModEq slotWidth at *
      omega
    refine ⟨s, mem_wetSlots.mpr ⟨hs, ?_, hrain.wet s hs⟩, hfound⟩
    rw [inTimeWindow_local_iff haversineM hordered hday]
    rw [clockMicros_add offset leg.startTime] at hstop
    unfold shownAt at hfound
    omega

/-- A leg in continuous rain is charged whole exactly where the marks fill it. -/
theorem legRain_whole_iff (hrain : Soaked offset phase legs rain threshold) {leg : Leg}
    (hleg : leg ∈ legs) (htimed : leg.Timed) :
    (legRain ⟨haversineM, fun _ => offset⟩ leg rain threshold).1 = leg.duration / 60 ↔
      MarksFill offset phase leg := by
  have hordered := htimed.ordered
  rw [legRain_minutes htimed.duration_nonneg, min_eq_left_iff, MarksFill,
    ← Grid.length_le_points_iff (by decide) (by omega),
    ← (@wetSlots_perm_points haversineM _ _ _ _ _ hrain leg hleg htimed).length_eq, List.length_map,
    htimed.duration]
  generalize (wetSlots ⟨haversineM, fun _ => offset⟩ leg rain threshold).length = count
  have hcast : ((leg.endTime - leg.startTime) * 1000 : Int) ≤ slotWidth * (count : Int) ↔
      (((leg.endTime - leg.startTime) * 1000 : Int) : ℚ) ≤
        ((slotWidth * (count : Int) : Int) : ℚ) :=
    Int.cast_le.symm
  rw [hcast]
  push_cast [slotWidth]
  constructor
  · intro hle
    linarith
  · intro hle
    linarith

/-- A leg is never charged more than its duration. -/
theorem legRain_le_duration {leg : Leg} (hdur : 0 ≤ leg.duration) :
    (legRain env leg rain threshold).1 ≤ leg.duration / 60 := by
  rw [legRain_minutes hdur]
  exact min_le_left _ _

/-- **Continuous rain is charged whole where the marks fill the legs.**  With wet slots on
    a gap-free five-minute grid, the exposed minutes are those of all legs travelled
    outside exactly if each such leg lasts a whole number of slots, or has its first mark
    within the minutes by which it exceeds one. -/
theorem continuous_rain_charged_iff (haversineM : ℚ → ℚ → ℚ → ℚ → ℚ) (offset phase : Int)
    (itinerary : Itinerary) (rain : RainForecast) (weights : Weights) (threshold : ℚ)
    (hrain : Soaked offset phase itinerary.legs rain threshold)
    (htimed : ∀ leg ∈ itinerary.legs, leg.Timed) :
    (rainExposure ⟨haversineM, fun _ => offset⟩ itinerary.legs rain weights threshold).1 =
        ((exposedLegs itinerary.legs).map (·.duration / 60)).sum ↔
      ∀ leg ∈ itinerary.legs, leg.mode ∈ exposedModes → MarksFill offset phase leg := by
  rw [rainExposure_minutes]
  have hle : ∀ leg ∈ exposedLegs itinerary.legs,
      (legRain ⟨haversineM, fun _ => offset⟩ leg rain threshold).1 ≤ leg.duration / 60 := by
    intro leg hleg
    exact legRain_le_duration (htimed leg (mem_exposedLegs.mp hleg).1).duration_nonneg
  constructor
  · intro hsum leg hleg hmode
    rw [← @legRain_whole_iff haversineM _ _ _ _ _ hrain leg hleg (htimed leg hleg)]
    by_contra hless
    have hmem := mem_exposedLegs.mpr ⟨hleg, hmode⟩
    exact absurd hsum (ne_of_lt (List.sum_lt_sum _ _ hle
      ⟨leg, hmem, lt_of_le_of_ne (hle leg hmem) hless⟩))
  · intro hfill
    congr 1
    apply List.map_congr_left
    intro leg hmem
    obtain ⟨hleg, hmode⟩ := mem_exposedLegs.mp hmem
    exact (legRain_whole_iff hrain hleg (htimed leg hleg)).mpr (hfill leg hleg hmode)

/-- A walk of three minutes from 00:11 on. -/
def shortWalk : Leg := { mode := "WALK", startTime := 660000, endTime := 840000, duration := 180 }

theorem steadyRain_soaks_shortWalk : Soaked 0 0 [shortWalk] steadyRain (1 / 10) where
  grid := by decide
  distinct := by decide
  wet := by decide +kernel
  covered := by
    have hmark : (Time.ofMicros 600000000).micros = 600000000 := by decide
    intro leg hleg t hstart hstop
    rw [List.mem_singleton.mp hleg] at hstart hstop
    norm_num [shortWalk] at hstart hstop
    refine ⟨_, List.mem_cons_self, 0, ?_, ?_⟩
    · norm_num [hmark]
      linarith
    · norm_num [hmark, slotWidth]
      linarith

theorem shortWalk_timed : shortWalk.Timed where
  ordered := by decide
  withinDay := by decide
  duration := by norm_num [shortWalk]

theorem continuous_rain_charged_iff_shortWalk :
    (rainExposure flatEnv [shortWalk] steadyRain defaultWeights
        (1 / 10)).1 = ((exposedLegs [shortWalk]).map (·.duration / 60)).sum ↔
      ∀ leg ∈ [shortWalk], leg.mode ∈ exposedModes → MarksFill 0 0 leg :=
  continuous_rain_charged_iff _ 0 0 ⟨180, 660000, 840000, [shortWalk]⟩ steadyRain defaultWeights
    (1 / 10) steadyRain_soaks_shortWalk (by simpa using shortWalk_timed)

/-- The short walk between two wet marks is not charged at all. -/
theorem short_walk_in_continuous_rain :
    ¬ ∀ (haversineM : ℚ → ℚ → ℚ → ℚ → ℚ) (offset phase : Int) (itinerary : Itinerary)
        (rain : RainForecast) (weights : Weights) (threshold : ℚ),
      Soaked offset phase itinerary.legs rain threshold →
      (∀ leg ∈ itinerary.legs, leg.Timed) → itinerary.Nested →
      itinerary.endTime < itinerary.startTime + 86400000 →
      (rainExposure ⟨haversineM, fun _ => offset⟩ itinerary.legs rain weights threshold).1 =
        ((exposedLegs itinerary.legs).map (·.duration / 60)).sum := by
  intro hall
  have hcharged := hall (fun _ _ _ _ => 1000) 0 0 ⟨180, 660000, 840000, [shortWalk]⟩ steadyRain
    defaultWeights (1 / 10) steadyRain_soaks_shortWalk (by simpa using shortWalk_timed)
    (by simp [Itinerary.Nested, shortWalk]) (by decide)
  exact absurd hcharged (by decide +kernel)

end FietsOfOv
