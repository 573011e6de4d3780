import FietsOfOv.DryVerdict
import FietsOfOv.Lib.Seasons

/-!
# Matching slots by wall clock

`local_time` on the Amsterdam clock: an hour ahead of UTC, two from the last Sunday of
March to the last Sunday of October, with the switches at 01:00 UTC.  `in_time_window`
sees only readings of the clock, and takes a window whose end reads earlier than its
start for one that wraps past midnight.
-/

namespace FietsOfOv

open WallClock Seasons

/-! ## The Amsterdam rule -/

/-- The days of the proleptic Gregorian calendar before the first of January. -/
def daysBeforeYear (year : Int) : Int :=
  365 * (year - 1) + (year - 1) / 4 - (year - 1) / 100 + (year - 1) / 400

/-- The ordinal of the first of January 1970. -/
def epochOrdinal : Int := 719163

/-- 01:00 UTC, in epoch milliseconds, on the last Sunday up to a date. -/
def switchMs (date : Int) : Int := (date - date % 7 - epochOrdinal) * 86400000 + 3600000

/-- Up to the 31st of March, which leaves 275 days of the year. -/
def springForward (year : Int) : Int := switchMs (daysBeforeYear (year + 1) - 275)

/-- Up to the 31st of October, which leaves 61 days of the year. -/
def fallBack (year : Int) : Int := switchMs (daysBeforeYear (year + 1) - 61)

/-- The year of a moment, by the mean length of a year: exact away from its ends. -/
def meanYear (epochMs : Int) : Int := 1970 + epochMs / 31556952000

/-- The offset from UTC, in milliseconds. -/
def amsterdamOffset (epochMs : Int) : Int :=
  if springForward (meanYear epochMs) ≤ epochMs ∧ epochMs < fallBack (meanYear epochMs)
  then 7200000 else 3600000

def Summer (year epochMs : Int) : Prop := springForward year ≤ epochMs ∧ epochMs < fallBack year

theorem Summer.meanYear_eq {year epochMs : Int} (h : Summer year epochMs) :
    meanYear epochMs = year := by
  obtain ⟨hspring, hfall⟩ := h
  simp only [springForward, fallBack, switchMs, daysBeforeYear, epochOrdinal] at hspring hfall
  unfold meanYear
  omega

theorem amsterdamOffset_summer_iff {epochMs : Int} :
    amsterdamOffset epochMs = 7200000 ↔ ∃ year, Summer year epochMs := by
  unfold amsterdamOffset
  split
  · rename_i hsummer
    exact ⟨fun _ => ⟨_, hsummer⟩, fun _ => rfl⟩
  · rename_i hwinter
    constructor
    · intro h
      cases h
    · rintro ⟨year, hsummer⟩
      rw [hsummer.meanYear_eq] at hwinter
      exact absurd hsummer hwinter

theorem amsterdamOffset_two (epochMs : Int) :
    amsterdamOffset epochMs = 3600000 ∨ amsterdamOffset epochMs = 7200000 := by
  unfold amsterdamOffset
  split
  · exact Or.inr rfl
  · exact Or.inl rfl

/-- A summer lasts more than two hundred days, and the winter after it a hundred. -/
theorem summer_long (year : Int) : springForward year + 17280000000 < fallBack year := by
  unfold springForward fallBack switchMs daysBeforeYear epochOrdinal
  omega

theorem winter_long {year next : Int} (hlt : year < next) :
    fallBack year + 8640000000 < springForward next := by
  unfold springForward fallBack switchMs daysBeforeYear epochOrdinal
  omega

/-- The clock was put back on the 26th of October 2025. -/
example : fallBack 2025 = 1761440400000 := by decide

theorem amsterdamOffset_seasonal : Seasonal amsterdamOffset 3600000 3600000 86400000 where
  forward := by decide
  rare := by decide
  two := amsterdamOffset_two
  steady := by
    intro a b c hab hbc hca hsame
    rcases amsterdamOffset_two b with hb | hb
    · rcases amsterdamOffset_two a with ha | ha
      · rw [ha, hb]
      · -- a summer that holds both ends holds all between
        obtain ⟨year, hstart, hstop⟩ := amsterdamOffset_summer_iff.mp ha
        obtain ⟨next, hstart', hstop'⟩ := amsterdamOffset_summer_iff.mp (hsame ▸ ha)
        have hyear : year = next := by
          rcases lt_trichotomy year next with hlt | heq | hgt
          · have hwinter := winter_long hlt
            omega
          · exact heq
          · have hwinter := winter_long hgt
            have hsummer := summer_long next
            omega
        subst hyear
        rw [ha]
        exact amsterdamOffset_summer_iff.mpr ⟨year, by omega, by omega⟩
    · rcases amsterdamOffset_two a with ha | ha
      · -- a summer between two winters is longer than a day
        obtain ⟨year, hstart, hstop⟩ := amsterdamOffset_summer_iff.mp hb
        have hsummer := summer_long year
        have hbefore : a < springForward year := by
          by_contra hin
          have hsame' := amsterdamOffset_summer_iff.mpr ⟨year, not_lt.mp hin, by omega⟩
          omega
        have hafter : fallBack year ≤ c := by
          by_contra hin
          have hsame' := amsterdamOffset_summer_iff.mpr ⟨year, by omega, not_le.mp hin⟩
          omega
        omega
      · rw [ha, hb]

/-! ## The window test -/

/-- The clock is put back within the window, and by more than the window lasts. -/
def TurnedBack (start stop : Int) : Prop :=
  ∃ year, start < fallBack year ∧ fallBack year ≤ stop ∧ stop < start + 3600000

/-- The clock reads an earlier hour at the end of just these windows. -/
theorem reading_back_iff_turnedBack {start stop : Int} (hle : start ≤ stop) :
    reading amsterdamOffset stop < reading amsterdamOffset start ↔ TurnedBack start stop := by
  rw [reading_back_iff amsterdamOffset_seasonal hle]
  constructor
  · rintro ⟨hsummer, hwinter, hnear⟩
    obtain ⟨year, hstart, hstop⟩ := amsterdamOffset_summer_iff.mp hsummer
    refine ⟨year, hstop, ?_, hnear⟩
    by_contra hin
    have hsame := amsterdamOffset_summer_iff.mpr ⟨year, by omega, not_le.mp hin⟩
    omega
  · rintro ⟨year, hstart, hstop, hnear⟩
    have hsummer := summer_long year
    refine ⟨amsterdamOffset_summer_iff.mpr ⟨year, by omega, hstart⟩, ?_, hnear⟩
    rcases amsterdamOffset_two stop with hwinter | hlate
    · exact hwinter
    · obtain ⟨next, hspring, hfall⟩ := amsterdamOffset_summer_iff.mp hlate
      rcases lt_trichotomy year next with hlt | heq | hgt
      · have hlong := winter_long hlt
        omega
      · subst heq
        omega
      · have hlong := winter_long hgt
        omega

/-- On readings within a day of each other the test is the order of the readings, and lets
    everything through outside a window that reads backwards. -/
theorem inTimeWindow_reading {t start stop : Int} (hfrom : start - 43200000 < t)
    (hto : t < start + 43200000) (hback : start - 43200000 < stop)
    (hlen : stop < start + 43200000) :
    inTimeWindow (Time.ofMicros (t * 1000)) (Time.ofMicros (start * 1000))
        (Time.ofMicros (stop * 1000)) = true ↔
      if start ≤ stop then start ≤ t ∧ t ≤ stop else start ≤ t ∨ t ≤ stop := by
  have ht := Time.micros_ofMicros (t * 1000)
  have hstart := Time.micros_ofMicros (start * 1000)
  have hstop := Time.micros_ofMicros (stop * 1000)
  simp only [inTimeWindow, Time.le_iff]
  by_cases hle : start ≤ stop
  · rw [if_pos hle]
    split <;> simp only [decide_eq_true_eq] <;> omega
  · rw [if_neg hle]
    split <;> simp only [decide_eq_true_eq] <;> omega

/-- **Matching by wall clock is exact unless the window is turned back.**  For windows
    shorter than two hours and slots within three hours of them, whose reading no other
    moment within twelve hours has, the test says whether the slot's moment lies in the
    window exactly where the clock is not put back, by more than the window lasts, in it;
    there it is wrong about every such slot. -/
theorem inTimeWindow_exact_iff (haversineM : ℚ → ℚ → ℚ → ℚ → ℚ) (start stop t : Int)
    (hle : start ≤ stop) (hlen : stop - start < 7200000) (hfrom : start - 10800000 ≤ t)
    (hto : t ≤ stop + 10800000)
    (hlabel : ∀ other, t - 43200000 ≤ other → other ≤ t + 43200000 →
      localTime ⟨haversineM, amsterdamOffset⟩ other = localTime ⟨haversineM, amsterdamOffset⟩ t →
      other = t) :
    ((inTimeWindow (localTime ⟨haversineM, amsterdamOffset⟩ t)
        (localTime ⟨haversineM, amsterdamOffset⟩ start)
        (localTime ⟨haversineM, amsterdamOffset⟩ stop) = true ↔ start ≤ t ∧ t ≤ stop) ↔
      ¬ TurnedBack start stop) := by
  have hunrepeated : Unrepeated amsterdamOffset 43200000 t := by
    intro other hfrom' hto' hsame
    apply hlabel other hfrom' hto'
    simp only [localTime]
    rw [show other + amsterdamOffset other = t + amsterdamOffset t from hsame]
  have hstart := @reading_le_iff _ _ _ _ _ _ start amsterdamOffset_seasonal (by omega) hunrepeated
    (by omega) (by omega)
  have hstop := @le_reading_iff _ _ _ _ _ _ stop amsterdamOffset_seasonal (by omega) hunrepeated
    (by omega) (by omega)
  have htwo := amsterdamOffset_two t
  have htwo' := amsterdamOffset_two start
  have htwo'' := amsterdamOffset_two stop
  have htest := @inTimeWindow_reading (reading amsterdamOffset t) (reading amsterdamOffset start)
    (reading amsterdamOffset stop) (by unfold reading; omega) (by unfold reading; omega)
    (by unfold reading; omega) (by unfold reading; omega)
  rw [← reading_back_iff_turnedBack hle, not_lt]
  change (inTimeWindow (Time.ofMicros (reading amsterdamOffset t * 1000))
    (Time.ofMicros (reading amsterdamOffset start * 1000))
    (Time.ofMicros (reading amsterdamOffset stop * 1000)) = true ↔ _) ↔ _
  rw [htest, hstart, hstop]
  by_cases hforward : reading amsterdamOffset start ≤ reading amsterdamOffset stop
  · simp [hforward]
  · -- the slot reads later than the window's end, or earlier than its start, on either side
    simp only [hforward, if_false, iff_false]
    omega

/-- Within half a day the same label is the same reading. -/
theorem reading_eq_of_localTime_eq {haversineM : ℚ → ℚ → ℚ → ℚ → ℚ} {other t : Int}
    (hfrom : t - 43200000 ≤ other) (hto : other ≤ t + 43200000)
    (hsame : localTime ⟨haversineM, amsterdamOffset⟩ other =
      localTime ⟨haversineM, amsterdamOffset⟩ t) :
    other + amsterdamOffset other = t + amsterdamOffset t := by
  have hmicros := congrArg (fun time : Time => (time.micros : Int)) hsame
  simp only [localTime, Time.micros_ofMicros] at hmicros
  have htwo := amsterdamOffset_two t
  have htwo' := amsterdamOffset_two other
  omega

/-- From two hours before a switch the label is not repeated. -/
theorem label_before_fallBack (haversineM : ℚ → ℚ → ℚ → ℚ → ℚ) (other : Int)
    (hfrom : fallBack 2025 - 7200000 - 43200000 ≤ other)
    (hto : other ≤ fallBack 2025 - 7200000 + 43200000)
    (hsame : localTime ⟨haversineM, amsterdamOffset⟩ other =
      localTime ⟨haversineM, amsterdamOffset⟩ (fallBack 2025 - 7200000)) :
    other = fallBack 2025 - 7200000 := by
  have hreading := reading_eq_of_localTime_eq hfrom hto hsame
  have hlong := summer_long 2025
  have hbefore : amsterdamOffset (fallBack 2025 - 7200000) = 7200000 :=
    amsterdamOffset_summer_iff.mpr ⟨2025, by omega, by omega⟩
  rcases amsterdamOffset_two other with hwinter | hsummer
  · -- an hour later it is still summer
    have hsame' := amsterdamOffset_summer_iff.mpr ⟨2025, (by omega : springForward 2025 ≤ other),
      by omega⟩
    omega
  · omega

theorem inTimeWindow_exact_iff_fallBack :
    ((inTimeWindow
        (localTime ⟨fun _ _ _ _ => 1000, amsterdamOffset⟩ (fallBack 2025 - 7200000))
        (localTime ⟨fun _ _ _ _ => 1000, amsterdamOffset⟩ (fallBack 2025 - 600000))
        (localTime ⟨fun _ _ _ _ => 1000, amsterdamOffset⟩ (fallBack 2025 + 600000)) = true ↔
        fallBack 2025 - 600000 ≤ fallBack 2025 - 7200000 ∧
          fallBack 2025 - 7200000 ≤ fallBack 2025 + 600000) ↔
      ¬ TurnedBack (fallBack 2025 - 600000) (fallBack 2025 + 600000)) :=
  inTimeWindow_exact_iff _ _ _ _ (by omega) (by omega) (by omega) (by omega)
    (label_before_fallBack _)

/-- A ride from ten to three, summer time, to ten past two, winter time: the slot at one
    o'clock is taken for one within it. -/
theorem turned_back_window_matches_everything :
    ¬ ∀ (haversineM : ℚ → ℚ → ℚ → ℚ → ℚ) (start stop t : Int),
      start ≤ stop → stop - start < 7200000 → start - 10800000 ≤ t → t ≤ stop + 10800000 →
      (∀ other, t - 43200000 ≤ other → other ≤ t + 43200000 →
        localTime ⟨haversineM, amsterdamOffset⟩ other =
          localTime ⟨haversineM, amsterdamOffset⟩ t → other = t) →
      (inTimeWindow (localTime ⟨haversineM, amsterdamOffset⟩ t)
        (localTime ⟨haversineM, amsterdamOffset⟩ start)
        (localTime ⟨haversineM, amsterdamOffset⟩ stop) = true ↔ start ≤ t ∧ t ≤ stop) := by
  intro hall
  have hexact := hall (fun _ _ _ _ => 1000) (fallBack 2025 - 600000) (fallBack 2025 + 600000)
    (fallBack 2025 - 7200000) (by omega) (by omega) (by omega) (by omega)
    (label_before_fallBack _)
  have hmatches : inTimeWindow
      (localTime ⟨fun _ _ _ _ => 1000, amsterdamOffset⟩ (fallBack 2025 - 7200000))
      (localTime ⟨fun _ _ _ _ => 1000, amsterdamOffset⟩ (fallBack 2025 - 600000))
      (localTime ⟨fun _ _ _ _ => 1000, amsterdamOffset⟩ (fallBack 2025 + 600000)) = true := by
    decide +kernel
  have hinside := hexact.mp hmatches
  omega

end FietsOfOv
