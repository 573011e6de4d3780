import Mathlib.Algebra.Order.Floor.Ring
import Mathlib.Tactic.Linarith

/-!
# Covering a window by intervals of one width

Half-open intervals that begin at marks on the integers.  Whether they cover a whole
window of dense time can be checked at finitely many places: at its start, and where
an interval ends within it.
-/

namespace Cover

variable {R : Type} [Field R] [LinearOrder R] [IsStrictOrderedRing R] [FloorRing R]

/-- Some interval contains the instant. -/
def At (marks : Set ℤ) (width : ℤ) (x : R) : Prop :=
  ∃ m ∈ marks, (m : R) ≤ x ∧ x < m + width

variable {marks : Set ℤ} {width : ℤ}

theorem at_intCast {n : ℤ} : At marks width (n : R) ↔ ∃ m ∈ marks, m ≤ n ∧ n < m + width := by
  unfold At
  exact_mod_cast Iff.rfl

/-- The marks and the width are whole, so an interval contains an instant with the
    whole instant before it. -/
theorem at_floor {x : R} : At marks width ((⌊x⌋ : ℤ) : R) ↔ At marks width x := by
  rw [at_intCast]
  simp only [At, Int.le_floor, Int.floor_lt, Int.cast_add]

/-- **Coverage is a finite check.**  The window is covered if its start is and every
    interval that ends within the window is followed without a gap. -/
theorem window_iff {start stop : ℤ} (hle : start ≤ stop) :
    (∀ x : R, start ≤ x → x ≤ stop → At marks width x) ↔
      At marks width (start : R) ∧
      ∀ m ∈ marks, start ≤ m + width → m + width ≤ stop → At marks width ((m + width : ℤ) : R) := by
  constructor
  · intro hall
    refine ⟨hall start (le_refl _) (by exact_mod_cast hle), ?_⟩
    intro m _ hstart hstop
    exact hall _ (by exact_mod_cast hstart) (by exact_mod_cast hstop)
  · rintro ⟨hstart, hends⟩ x hfrom hto
    rw [← at_floor]
    have hfloor : start ≤ ⌊x⌋ := Int.le_floor.mpr hfrom
    have hfloor' : ⌊x⌋ ≤ stop := by
      have hlt : (⌊x⌋ : R) ≤ stop := (Int.floor_le x).trans hto
      exact_mod_cast hlt
    generalize ⌊x⌋ = n at hfloor hfloor'
    -- from one whole instant to the next, either the interval goes on or another begins
    induction n, hfloor using Int.leInduction with
    | base => exact hstart
    | succ n hn ih =>
        obtain ⟨m, hm, hmn, hnm⟩ := (at_intCast (R := R)).mp (ih (by omega))
        by_cases hnext : n + 1 < m + width
        · exact at_intCast.mpr ⟨m, hm, by omega, hnext⟩
        · have hend : n + 1 = m + width := by omega
          rw [hend]
          exact hends m hm (by omega) (by omega)

/-- An interval meets the window if it begins in it or contains its start. -/
theorem meets_iff {m start stop : ℤ} (hle : start ≤ stop) (hwidth : 0 < width) :
    (∃ x : R, start ≤ x ∧ x ≤ stop ∧ (m : R) ≤ x ∧ x < m + width) ↔
      start ≤ m ∧ m ≤ stop ∨ m ≤ start ∧ start < m + width := by
  constructor
  · rintro ⟨x, hstart, hstop, hm, hend⟩
    by_cases hsm : start ≤ m
    · have hms : (m : R) ≤ stop := hm.trans hstop
      exact Or.inl ⟨hsm, by exact_mod_cast hms⟩
    · have hsm' : (start : R) < m + width := lt_of_le_of_lt hstart hend
      exact Or.inr ⟨by omega, by exact_mod_cast hsm'⟩
  · rintro (⟨hsm, hms⟩ | ⟨hms, hsm⟩)
    · refine ⟨m, by exact_mod_cast hsm, by exact_mod_cast hms, le_refl _, ?_⟩
      exact_mod_cast Int.lt_add_of_pos_right m hwidth
    · exact ⟨start, le_refl _, by exact_mod_cast hle, by exact_mod_cast hms, by exact_mod_cast hsm⟩

end Cover
