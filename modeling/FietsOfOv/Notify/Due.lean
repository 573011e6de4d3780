import FietsOfOv.Models

/-!
# Which alerts are due

`due_trip_alerts` and `_next_departure` of `app/services/notify.py`.  The query
splits a lead window that crosses midnight into two ranges, each with its own
weekday; the departure moment is found separately, by rolling the date when the
time of day has passed.  Both agree with one statement about moments: the alert
has a scheduled departure inside the closed window.
-/

namespace FietsOfOv

open WallClock

/-- The `due_cond` of `due_trip_alerts`. -/
def dueCond (now : DateTime) (leadMinutes : Nat) (alert : TripAlert) : Bool :=
  let weekday := isoweekday now.date
  let windowStart := now.time
  let windowEnd := (now.addMinutes leadMinutes).time
  if windowEnd < windowStart then
    let tomorrow := isoweekday (now.addDays 1).date
    weekday ∈ alert.days ∧ windowStart ≤ alert.departureTime ∨
      tomorrow ∈ alert.days ∧ alert.departureTime ≤ windowEnd
  else
    weekday ∈ alert.days ∧ windowStart ≤ alert.departureTime ∧ alert.departureTime ≤ windowEnd

/-- `due_trip_alerts` on the rows of `trip_alerts`. -/
def dueTripAlerts (tripAlerts : List TripAlert) (now : DateTime) (leadMinutes : Nat) :
    List TripAlert :=
  tripAlerts.filter (dueCond now leadMinutes)

/-- `_next_departure`. -/
def nextDeparture (alert : TripAlert) (now : DateTime) : DateTime :=
  let date := if alert.departureTime < now.time then now.date + 1 else now.date
  ⟨date, alert.departureTime⟩

/-! ## The abstract schedule -/

/-- The moment an alert departs on a given day. -/
def TripAlert.departureOn (alert : TripAlert) (date : Int) : DateTime := ⟨date, alert.departureTime⟩

/-- The alert recurs on this day and its departure then lies in the closed
    window of `leadMinutes` from `now`. -/
def DepartsWithin (alert : TripAlert) (now : DateTime) (leadMinutes : Nat) (date : Int) : Prop :=
  isoweekday date ∈ alert.days ∧ now ≤ alert.departureOn date ∧
    alert.departureOn date ≤ now.addMinutes leadMinutes

theorem nextDeparture_eq_departureOn (alert : TripAlert) (now : DateTime) :
    nextDeparture alert now = alert.departureOn (nextDeparture alert now).date := rfl

/-- The next departure is never in the past, and less than a day away. -/
theorem nextDeparture_bounds (alert : TripAlert) (now : DateTime) :
    now.micros ≤ (nextDeparture alert now).micros ∧
      (nextDeparture alert now).micros < now.micros + 86400000000 := by
  have hnow := now.time.lt_day
  have hdep := alert.departureTime.lt_day
  simp only [microsPerDay] at hnow hdep
  simp only [nextDeparture, DateTime.micros, Time.lt_iff]
  split <;> omega

theorem le_nextDeparture (alert : TripAlert) (now : DateTime) : now ≤ nextDeparture alert now :=
  (nextDeparture_bounds alert now).1

/-- The only departure that lies in the window is the next one: two departures
    are whole days apart, and the window is shorter than a day. -/
theorem DepartsWithin.eq_nextDeparture {alert : TripAlert} {now : DateTime} {leadMinutes : Nat}
    {date : Int} (hlead : leadMinutes < 1440) (h : DepartsWithin alert now leadMinutes date) :
    nextDeparture alert now = alert.departureOn date := by
  obtain ⟨_, hle, hend⟩ := h
  have hbounds := nextDeparture_bounds alert now
  rw [nextDeparture_eq_departureOn] at hbounds ⊢
  rw [DateTime.le_iff] at hle
  rw [DateTime.le_iff, DateTime.micros_addMinutes] at hend
  simp only [TripAlert.departureOn, DateTime.micros] at hbounds hle hend
  have hdate : (nextDeparture alert now).date = date := by omega
  rw [hdate]

/-- For the next departure only the weekday and the window's end are in question. -/
theorem departsWithin_nextDeparture_iff (alert : TripAlert) (now : DateTime) (leadMinutes : Nat) :
    DepartsWithin alert now leadMinutes (nextDeparture alert now).date ↔
      isoweekday (nextDeparture alert now).date ∈ alert.days ∧
        (nextDeparture alert now).micros ≤ now.micros + leadMinutes * 60000000 := by
  have hle := le_nextDeparture alert now
  rw [DepartsWithin, ← nextDeparture_eq_departureOn, DateTime.le_iff (t := now.addMinutes _),
    DateTime.micros_addMinutes]
  exact and_congr_right fun _ => and_iff_right hle

/-- The `WHERE` clause in terms of the next departure. -/
theorem dueCond_iff (alert : TripAlert) (now : DateTime) {leadMinutes : Nat}
    (hlead : leadMinutes < 1440) :
    dueCond now leadMinutes alert = true ↔
      DepartsWithin alert now leadMinutes (nextDeparture alert now).date := by
  have hnow := now.time.lt_day
  have hdep := alert.departureTime.lt_day
  have hend := DateTime.time_addMinutes now leadMinutes
  simp only [microsPerDay, DateTime.micros] at hnow hdep hend
  rw [departsWithin_nextDeparture_iff]
  unfold dueCond nextDeparture
  simp only [DateTime.date_addDays_one, DateTime.micros, Time.lt_iff, Time.le_iff]
  by_cases hpast : alert.departureTime.micros < now.time.micros
  · -- the time of day has passed: only tomorrow's part of a wrapped window can match
    simp only [hpast, if_true]
    split
    · simp only [decide_eq_true_eq]
      constructor
      · rintro (⟨_, hle⟩ | ⟨hday, hle⟩)
        · omega
        · exact ⟨hday, by omega⟩
      · rintro ⟨hday, hle⟩
        exact Or.inr ⟨hday, by omega⟩
    · simp only [decide_eq_true_eq]
      constructor
      · rintro ⟨_, hle, _⟩
        omega
      · rintro ⟨_, hle⟩
        omega
  · -- the time of day is still to come: today's part decides
    simp only [hpast, if_false]
    split
    · simp only [decide_eq_true_eq]
      constructor
      · rintro (⟨hday, _⟩ | ⟨_, hle⟩)
        · exact ⟨hday, by omega⟩
        · omega
      · rintro ⟨hday, _⟩
        exact Or.inl ⟨hday, by omega⟩
    · simp only [decide_eq_true_eq]
      constructor
      · rintro ⟨hday, _, hle⟩
        exact ⟨hday, by omega⟩
      · rintro ⟨hday, hle⟩
        exact ⟨hday, by omega, by omega⟩

theorem mem_dueTripAlerts_iff {tripAlerts : List TripAlert} {now : DateTime} {leadMinutes : Nat}
    (hlead : leadMinutes < 1440) {alert : TripAlert} :
    alert ∈ dueTripAlerts tripAlerts now leadMinutes ↔
      alert ∈ tripAlerts ∧
        DepartsWithin alert now leadMinutes (nextDeparture alert now).date := by
  rw [dueTripAlerts, List.mem_filter, dueCond_iff alert now hlead]

/-- **Due selection is exact.**  The query returns an alert exactly when the
    departure of one of its days lies in the closed lead window; that day is the
    only one, and the trip is planned at that departure. -/
theorem dueTripAlerts_exact (tripAlerts : List TripAlert) (now : DateTime) (leadMinutes : Nat)
    (hlead : leadMinutes < 1440) (alert : TripAlert) (hmem : alert ∈ tripAlerts) :
    (alert ∈ dueTripAlerts tripAlerts now leadMinutes ↔
      ∃ date, isoweekday date ∈ alert.days ∧ now ≤ alert.departureOn date ∧
        alert.departureOn date ≤ now.addMinutes leadMinutes) ∧
    ∀ date, isoweekday date ∈ alert.days → now ≤ alert.departureOn date →
      alert.departureOn date ≤ now.addMinutes leadMinutes →
      nextDeparture alert now = alert.departureOn date ∧
        ∀ date', isoweekday date' ∈ alert.days → now ≤ alert.departureOn date' →
          alert.departureOn date' ≤ now.addMinutes leadMinutes → date' = date := by
  rw [mem_dueTripAlerts_iff hlead]
  refine ⟨⟨?_, ?_⟩, ?_⟩
  · rintro ⟨_, hwithin⟩
    exact ⟨_, hwithin⟩
  · rintro ⟨date, hwithin⟩
    have hnext := DepartsWithin.eq_nextDeparture hlead hwithin
    have hdate : (nextDeparture alert now).date = date := congrArg DateTime.date hnext
    exact ⟨hmem, hdate ▸ hwithin⟩
  · intro date hday hle hend
    have hnext := DepartsWithin.eq_nextDeparture hlead ⟨hday, hle, hend⟩
    refine ⟨hnext, fun date' hday' hle' hend' => ?_⟩
    have hnext' := DepartsWithin.eq_nextDeparture hlead ⟨hday', hle', hend'⟩
    exact congrArg DateTime.date (hnext'.symm.trans hnext)

/-- A departure at 00:05 on Tuesdays. -/
def tuesdayMorning : TripAlert where
  id := 1
  userId := 1
  label := "night shift"
  origin := "Centraal"
  originLat := 523791 / 10000
  originLon := 49003 / 10000
  destination := "Zuid"
  destLat := 523389 / 10000
  destLon := 48730 / 10000
  departureTime := ⟨300000000, by decide⟩
  days := [2]
  createdAt := 0

/-- Monday 2026-06-01, 23:55. -/
def mondayNight : DateTime := ⟨739768, ⟨86100000000, by decide⟩⟩

theorem dueTripAlerts_exact_mondayNight :
    tuesdayMorning ∈ dueTripAlerts [tuesdayMorning] mondayNight 15 ∧
      nextDeparture tuesdayMorning mondayNight = tuesdayMorning.departureOn 739769 := by
  have hexact := dueTripAlerts_exact [tuesdayMorning] mondayNight 15 (by decide) tuesdayMorning
    (List.mem_singleton.mpr rfl)
  exact ⟨hexact.1.mpr ⟨739769, by decide, by decide, by decide⟩,
    (hexact.2 739769 (by decide) (by decide) (by decide)).1⟩

end FietsOfOv
