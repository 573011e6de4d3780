import FietsOfOv.Notify.Due

/-!
# The sweep schedule

`_SWEEP_STEP_MINUTES` and the cron minutes of `app/workers/main.py`.  The minute
set starts over every hour, so the gaps between sweeps are `step` minutes and a
shorter one before each full hour, and one hour throughout when the step leaves
only minute 0.
-/

namespace FietsOfOv

open WallClock

/-- `_SWEEP_STEP_MINUTES`: `max(1, notify_scheduler_seconds // 60)`. -/
def sweepStepMinutes (notifySchedulerSeconds : Int) : Nat :=
  (max 1 (notifySchedulerSeconds / 60)).toNat

/-- `range(0, stop, step)`. -/
def rangeBy (stop step : Nat) : List Nat :=
  (List.range ((stop + step - 1) / step)).map (· * step)

/-- The `minute` set of the cron job. -/
def sweepMinutes (notifySchedulerSeconds : Int) : List Nat :=
  rangeBy 60 (sweepStepMinutes notifySchedulerSeconds)

/-- arq starts a sweep: in every hour, at each minute of the set, `offset`
    microseconds into the minute. -/
def SweepsAt (notifySchedulerSeconds : Int) (offset : Nat) (now : DateTime) : Prop :=
  ∃ hour < 24, ∃ minute ∈ sweepMinutes notifySchedulerSeconds,
    now.time.micros = (hour * 60 + minute) * 60000000 + offset

theorem one_le_sweepStepMinutes (notifySchedulerSeconds : Int) :
    1 ≤ sweepStepMinutes notifySchedulerSeconds := by
  simp only [sweepStepMinutes]
  omega

theorem mem_rangeBy {stop step m : Nat} (hstep : 1 ≤ step) :
    m ∈ rangeBy stop step ↔ m < stop ∧ step ∣ m := by
  simp only [rangeBy, List.mem_map, List.mem_range]
  constructor
  · rintro ⟨i, hi, rfl⟩
    have hle : (i + 1) * step ≤ stop + step - 1 := (Nat.le_div_iff_mul_le hstep).mp hi
    rw [Nat.add_mul] at hle
    exact ⟨by omega, Nat.dvd_mul_left _ _⟩
  · rintro ⟨hlt, i, rfl⟩
    refine ⟨i, (Nat.le_div_iff_mul_le hstep).mpr ?_, Nat.mul_comm _ _⟩
    rw [Nat.succ_mul, Nat.mul_comm]
    omega

/-- A sweep is known by where it lies in its hour. -/
theorem sweepsAt_iff {seconds : Int} {offset : Nat} (hoffset : offset < 60000000)
    {now : DateTime} :
    SweepsAt seconds offset now ↔
      ∃ minute ∈ sweepMinutes seconds, now.micros % 3600000000 = minute * 60000000 + offset := by
  have htime := now.time.lt_day
  simp only [microsPerDay] at htime
  have hrange : ∀ m ∈ sweepMinutes seconds, m < 60 := fun m hm =>
    ((mem_rangeBy (one_le_sweepStepMinutes seconds)).mp hm).1
  constructor
  · rintro ⟨hour, _, minute, hminute, heq⟩
    have hlt := hrange minute hminute
    refine ⟨minute, hminute, ?_⟩
    simp only [DateTime.micros]
    omega
  · rintro ⟨minute, hminute, heq⟩
    have hlt := hrange minute hminute
    simp only [DateTime.micros] at heq
    exact ⟨now.time.micros / 3600000000, by omega, minute, hminute, by omega⟩

/-- Every moment lies less than `min step 60` minutes after some sweep. -/
theorem exists_sweep_before (seconds : Int) {offset : Nat} (hoffset : offset < 60000000)
    (moment : Int) :
    ∃ now, SweepsAt seconds offset now ∧ now.micros ≤ moment ∧
      moment < now.micros + (min (sweepStepMinutes seconds) 60 : Nat) * 60000000 := by
  have hstep := one_le_sweepStepMinutes seconds
  let step := sweepStepMinutes seconds
  -- the minute of the hour the moment lies in, counted from the offset
  let minute := ((moment - offset) % 3600000000 / 60000000).toNat
  let late := minute % step
  have hlate : late < step := Nat.mod_lt _ hstep
  have hle : late ≤ minute := Nat.mod_le _ _
  have hdvd : step ∣ minute - late := Nat.dvd_sub_mod minute
  have hminute : minute < 60 := by simp only [minute]; omega
  have hmem : minute - late ∈ sweepMinutes seconds :=
    (mem_rangeBy hstep).mpr ⟨by omega, hdvd⟩
  let start := moment - (moment - offset) % 60000000 - late * 60000000
  refine ⟨DateTime.ofMicros start, (sweepsAt_iff hoffset).mpr ⟨minute - late, hmem, ?_⟩, ?_, ?_⟩
  · simp only [DateTime.micros_ofMicros, start]
    simp only [minute] at hle ⊢
    omega
  · simp only [DateTime.micros_ofMicros, start]
    omega
  · simp only [DateTime.micros_ofMicros, start]
    have hgap : late + 1 ≤ min (sweepStepMinutes seconds) 60 := by
      simp only [step] at hlate
      omega
    have hgap' : ((late + 1 : Nat) : Int) ≤ (min (sweepStepMinutes seconds) 60 : Nat) := by
      exact_mod_cast hgap
    omega

/-- After the sweep at a full hour there is none for `min step 60` minutes. -/
theorem no_sweep_in_gap {seconds : Int} {offset : Nat} (hoffset : offset < 60000000)
    {now : DateTime} (hnow : SweepsAt seconds offset now) (hour : Int)
    (hafter : hour * 3600000000 + offset < now.micros) :
    hour * 3600000000 + offset + (min (sweepStepMinutes seconds) 60 : Nat) * 60000000 ≤
      now.micros := by
  obtain ⟨minute, hminute, heq⟩ := (sweepsAt_iff hoffset).mp hnow
  obtain ⟨hlt, hdvd⟩ := (mem_rangeBy (one_le_sweepStepMinutes seconds)).mp hminute
  have hstep : minute = 0 ∨ sweepStepMinutes seconds ≤ minute := by
    rcases Nat.eq_zero_or_pos minute with hzero | hpos
    · exact Or.inl hzero
    · exact Or.inr (Nat.le_of_dvd hpos hdvd)
  omega

/-- **No departure goes unseen exactly when the lead covers the cadence.** -/
theorem sweeps_see_every_departure_iff (seconds : Int) (offset : Nat) (hoffset : offset < 60000000)
    (leadMinutes : Nat) (hlead : leadMinutes < 1440) :
    (∀ (tripAlerts : List TripAlert) (alert : TripAlert) (date : Int), alert ∈ tripAlerts →
      isoweekday date ∈ alert.days →
      ∃ now, SweepsAt seconds offset now ∧ alert ∈ dueTripAlerts tripAlerts now leadMinutes ∧
        nextDeparture alert now = alert.departureOn date) ↔
      min (sweepStepMinutes seconds) 60 ≤ leadMinutes := by
  constructor
  · intro hall
    by_contra hshort
    -- the last microsecond before the sweep that follows the one at an hour's start
    let moment : Int :=
      86400000000 + offset + (min (sweepStepMinutes seconds) 60 : Nat) * 60000000 - 1
    let departure := DateTime.ofMicros moment
    let alert : TripAlert := { tuesdayMorning with
      departureTime := departure.time, days := [isoweekday departure.date] }
    obtain ⟨now, hsweep, hdue, hnext⟩ :=
      hall [alert] alert departure.date (by simp) (by simp [alert])
    obtain ⟨_, _, hle, hend⟩ := (mem_dueTripAlerts_iff hlead).mp hdue
    rw [← nextDeparture_eq_departureOn, hnext] at hle hend
    have hmoment : (alert.departureOn departure.date).micros = moment :=
      DateTime.micros_ofMicros moment
    rw [DateTime.le_iff, hmoment] at hle
    rw [DateTime.le_iff, hmoment, DateTime.micros_addMinutes] at hend
    have hgap := no_sweep_in_gap hoffset hsweep 24 (by simp only [moment] at hend; omega)
    simp only [moment] at hle
    omega
  · intro hcover tripAlerts alert date hmem hday
    obtain ⟨now, hsweep, hle, hlt⟩ :=
      exists_sweep_before seconds hoffset (alert.departureOn date).micros
    have hwithin : DepartsWithin alert now leadMinutes date := by
      refine ⟨hday, hle, ?_⟩
      rw [DateTime.le_iff, DateTime.micros_addMinutes]
      omega
    have hnext := hwithin.eq_nextDeparture hlead
    have hdate : (nextDeparture alert now).date = date := congrArg DateTime.date hnext
    exact ⟨now, hsweep, (mem_dueTripAlerts_iff hlead).mpr ⟨hmem, hdate ▸ hwithin⟩, hnext⟩

/-- With the default settings, a sweep sees Tuesday's departure at 00:05. -/
theorem sweeps_see_every_departure_default :
    ∃ now, SweepsAt 300 0 now ∧ tuesdayMorning ∈ dueTripAlerts [tuesdayMorning] now 15 ∧
      nextDeparture tuesdayMorning now = tuesdayMorning.departureOn 739769 :=
  (sweeps_see_every_departure_iff 300 0 (by decide) 15 (by decide)).mpr (by decide)
    [tuesdayMorning] tuesdayMorning 739769 (List.mem_singleton.mpr rfl) (by decide)

end FietsOfOv
