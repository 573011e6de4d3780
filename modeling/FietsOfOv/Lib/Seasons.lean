import Mathlib.Order.Interval.Set.Basic
import Mathlib.Tactic.Linarith

/-!
# A clock that is put forward and back

The reading of a clock is the time plus an offset that takes two values a step apart.
Changes are rare: between two times closer than a horizon with one offset, it does not
change.  Where a reading stands for one time only, readings compare as times do.
-/

namespace Seasons

/-- What the clock reads at a time. -/
def reading (offset : Int → Int) (t : Int) : Int := t + offset t

/-- The offset is put forward and back by a step, and then stays for the horizon. -/
structure Seasonal (offset : Int → Int) (winter step horizon : Int) : Prop where
  forward : 0 ≤ step
  rare : step ≤ horizon
  two : ∀ t, offset t = winter ∨ offset t = winter + step
  steady : ∀ a b c, a ≤ b → b ≤ c → c ≤ a + horizon → offset a = offset c → offset b = offset a

/-- No other time within reach has the reading. -/
def Unrepeated (offset : Int → Int) (reach t : Int) : Prop :=
  ∀ other, t - reach ≤ other → other ≤ t + reach → reading offset other = reading offset t →
    other = t

variable {offset : Int → Int} {winter step horizon reach t x : Int}

/-- Between two times in order the reading goes back only from the forward offset to the
    other, within a step. -/
theorem reading_back_iff (hoffset : Seasonal offset winter step horizon) (hx : x ≤ t) :
    reading offset t < reading offset x ↔
      offset x = winter + step ∧ offset t = winter ∧ t < x + step := by
  have hforward := hoffset.forward
  unfold reading
  constructor
  · intro hback
    rcases hoffset.two x with hx' | hx' <;> rcases hoffset.two t with ht' | ht' <;> omega
  · rintro ⟨hx', ht', hnear⟩
    omega

/-- The clock is not yet put back between a time and a later one, if the later one's
    reading is not repeated. -/
theorem reading_le_of_le (hoffset : Seasonal offset winter step horizon)
    (hreach : step ≤ reach) (ht : Unrepeated offset reach t)
    (hx : x ≤ t) : reading offset x ≤ reading offset t := by
  by_contra hback
  have hforward := hoffset.forward
  have hrare := hoffset.rare
  -- the clock was put back between the two, less than a step before: it read the same then
  obtain ⟨hx', ht', hnear⟩ := (reading_back_iff hoffset hx).mp (not_le.mp hback)
  have hearlier : offset (t - step) = winter + step := by
    rcases hoffset.two (t - step) with hwinter | hsummer
    · have hsame := hoffset.steady (t - step) x t (by omega) hx (by omega) (by omega)
      omega
    · exact hsummer
  have hsame := ht (t - step) (by omega) (by omega) (by unfold reading; omega)
  omega

theorem le_reading_of_le (hoffset : Seasonal offset winter step horizon)
    (hreach : step ≤ reach) (ht : Unrepeated offset reach t)
    (hx : t ≤ x) : reading offset t ≤ reading offset x := by
  by_contra hback
  have hforward := hoffset.forward
  have hrare := hoffset.rare
  obtain ⟨ht', hx', hnear⟩ := (reading_back_iff hoffset hx).mp (not_le.mp hback)
  have hlater : offset (t + step) = winter := by
    rcases hoffset.two (t + step) with hwinter | hsummer
    · exact hwinter
    · have hsame := hoffset.steady t x (t + step) hx (by omega) (by omega) (by omega)
      omega
  have hsame := ht (t + step) (by omega) (by omega) (by unfold reading; omega)
  omega

/-- **Readings compare as times.**  Against a time whose reading is not repeated, a time
    within reach reads earlier exactly if it is earlier. -/
theorem reading_le_iff (hoffset : Seasonal offset winter step horizon)
    (hreach : step ≤ reach) (ht : Unrepeated offset reach t)
    (hfrom : t - reach ≤ x) (hto : x ≤ t + reach) :
    reading offset x ≤ reading offset t ↔ x ≤ t := by
  constructor
  · intro hle
    by_contra hlt
    have hge := le_reading_of_le hoffset hreach ht (by omega : t ≤ x)
    have hsame := ht x hfrom hto (le_antisymm hle hge)
    omega
  · exact reading_le_of_le hoffset hreach ht

theorem le_reading_iff (hoffset : Seasonal offset winter step horizon)
    (hreach : step ≤ reach) (ht : Unrepeated offset reach t)
    (hfrom : t - reach ≤ x) (hto : x ≤ t + reach) :
    reading offset t ≤ reading offset x ↔ t ≤ x := by
  constructor
  · intro hle
    by_contra hlt
    have hge := reading_le_of_le hoffset hreach ht (by omega : x ≤ t)
    have hsame := ht x hfrom hto (le_antisymm hge hle)
    omega
  · exact le_reading_of_le hoffset hreach ht

end Seasons
