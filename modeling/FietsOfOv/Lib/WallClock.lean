import Mathlib.Tactic.Linarith

/-!
# Wall-clock dates and times

Naive civil time as Python's `datetime` module has it: a date is a proleptic
Gregorian ordinal (day 1 is a Monday), a time of day counts microseconds since
midnight, and adding a duration to a date-time moves the reading of the clock
on the wall.  Every moment is also a single integer, `DateTime.micros`, and
arithmetic on moments is arithmetic on that integer.
-/

namespace WallClock

def microsPerMinute : Nat := 60000000

def microsPerDay : Nat := 86400000000

/-- `date.isoweekday` of a proleptic ordinal: `toordinal() % 7 or 7`, so Monday
is 1 and Sunday is 7. -/
def isoweekday (date : Int) : Nat :=
  if date % 7 = 0 then 7 else (date % 7).toNat

/-- A time of day to the microsecond; a reading past midnight cannot be built. -/
structure Time where
  micros : Nat
  lt_day : micros < microsPerDay
deriving DecidableEq, Repr

namespace Time

instance : LE Time := ⟨fun s t => s.micros ≤ t.micros⟩

instance : LT Time := ⟨fun s t => s.micros < t.micros⟩

instance (s t : Time) : Decidable (s ≤ t) := inferInstanceAs (Decidable (s.micros ≤ t.micros))

instance (s t : Time) : Decidable (s < t) := inferInstanceAs (Decidable (s.micros < t.micros))

theorem eq_of_micros {s t : Time} (h : s.micros = t.micros) : s = t := by
  cases s
  cases t
  cases h
  rfl

theorem le_iff {s t : Time} : s ≤ t ↔ s.micros ≤ t.micros := Iff.rfl

theorem lt_iff {s t : Time} : s < t ↔ s.micros < t.micros := Iff.rfl

/-- The time of day an integer count of microseconds reads, whole days dropped. -/
def ofMicros (m : Int) : Time where
  micros := (m % microsPerDay).toNat
  lt_day := by
    have hlt : m % (86400000000 : Int) < 86400000000 := Int.emod_lt_of_pos m (by decide)
    simp only [microsPerDay, Nat.cast_ofNat]
    omega

theorem micros_ofMicros (m : Int) : ((ofMicros m).micros : Int) = m % 86400000000 := by
  have hnonneg : 0 ≤ m % (86400000000 : Int) := Int.emod_nonneg m (by decide)
  simp only [ofMicros, microsPerDay, Nat.cast_ofNat]
  omega

end Time

/-- A naive date-time (`datetime.combine`); the date is its ordinal. -/
structure DateTime where
  date : Int
  time : Time
deriving DecidableEq, Repr

namespace DateTime

/-- The moment as microseconds since midnight of day 0. -/
def micros (t : DateTime) : Int := t.date * 86400000000 + t.time.micros

/-- The date and time of day a count of microseconds reads. -/
def ofMicros (m : Int) : DateTime := ⟨m / 86400000000, Time.ofMicros m⟩

@[simp] theorem micros_ofMicros (m : Int) : (ofMicros m).micros = m := by
  simp only [micros, ofMicros, Time.micros_ofMicros]
  omega

theorem date_eq_div (t : DateTime) : t.date = t.micros / 86400000000 := by
  have hlt := t.time.lt_day
  simp only [microsPerDay] at hlt
  simp only [micros]
  omega

theorem time_eq_mod (t : DateTime) : (t.time.micros : Int) = t.micros % 86400000000 := by
  have hlt := t.time.lt_day
  simp only [microsPerDay] at hlt
  simp only [micros]
  omega

instance : LE DateTime := ⟨fun s t => s.micros ≤ t.micros⟩

instance : LT DateTime := ⟨fun s t => s.micros < t.micros⟩

instance (s t : DateTime) : Decidable (s ≤ t) :=
  inferInstanceAs (Decidable (s.micros ≤ t.micros))

instance (s t : DateTime) : Decidable (s < t) :=
  inferInstanceAs (Decidable (s.micros < t.micros))

theorem le_iff {s t : DateTime} : s ≤ t ↔ s.micros ≤ t.micros := Iff.rfl

/-- `t + timedelta(minutes=minutes)`. -/
def addMinutes (t : DateTime) (minutes : Nat) : DateTime :=
  ofMicros (t.micros + minutes * microsPerMinute)

/-- `t + timedelta(days=days)`. -/
def addDays (t : DateTime) (days : Nat) : DateTime :=
  ofMicros (t.micros + days * microsPerDay)

theorem micros_addMinutes (t : DateTime) (minutes : Nat) :
    (t.addMinutes minutes).micros = t.micros + minutes * 60000000 := by
  simp [addMinutes, microsPerMinute]

theorem time_addMinutes (t : DateTime) (minutes : Nat) :
    ((t.addMinutes minutes).time.micros : Int) = (t.micros + minutes * 60000000) % 86400000000 := by
  rw [time_eq_mod, micros_addMinutes]

theorem date_addDays_one (t : DateTime) : (t.addDays 1).date = t.date + 1 := by
  rw [date_eq_div, date_eq_div]
  simp only [addDays, microsPerDay, micros_ofMicros, Nat.cast_ofNat, Nat.cast_one]
  omega

end DateTime

end WallClock
