import Mathlib.Data.List.Induction
import Mathlib.Order.MinMax

/-!
# The hull of a list

The least and the greatest of the values of a list, kept up to date while the list is read,
and the values between them.
-/

namespace Hull

variable {α : Type*} [LinearOrder α]

/-- The bounds with one more value. -/
def extend : Option (α × α) → α → Option (α × α)
  | none, x => some (x, x)
  | some (lo, hi), x => some (min lo x, max hi x)

def hull (xs : List α) : Option (α × α) := xs.foldl extend none

/-- Two of the values have this one between them. -/
def Between (xs : List α) (x : α) : Prop := ∃ lo ∈ xs, ∃ hi ∈ xs, lo ≤ x ∧ x ≤ hi

/-- Two of the values bound all of them. -/
structure Bounds (xs : List α) (lo hi : α) : Prop where
  mem_lo : lo ∈ xs
  mem_hi : hi ∈ xs
  le : ∀ x ∈ xs, lo ≤ x ∧ x ≤ hi

variable {xs ys : List α} {lo hi x : α}

theorem hull_concat (xs : List α) (x : α) : hull (xs ++ [x]) = extend (hull xs) x := by
  rw [hull, List.foldl_append]
  rfl

theorem Bounds.concat (h : Bounds xs lo hi) (x : α) :
    Bounds (xs ++ [x]) (min lo x) (max hi x) where
  mem_lo := by
    rcases min_choice lo x with hmin | hmin <;> rw [hmin]
    · exact List.mem_append_left _ h.mem_lo
    · exact List.mem_append_right _ List.mem_cons_self
  mem_hi := by
    rcases max_choice hi x with hmax | hmax <;> rw [hmax]
    · exact List.mem_append_left _ h.mem_hi
    · exact List.mem_append_right _ List.mem_cons_self
  le := by
    intro y hy
    rcases List.mem_append.mp hy with hy | hy
    · exact ⟨(min_le_left _ _).trans (h.le y hy).1, le_max_of_le_left (h.le y hy).2⟩
    · obtain rfl := List.mem_singleton.mp hy
      exact ⟨min_le_right _ _, le_max_right _ _⟩

/-- What has been kept after a list are its bounds, if it has any values. -/
theorem hull_spec (xs : List α) :
    xs = [] ∧ hull xs = none ∨ ∃ lo hi, hull xs = some (lo, hi) ∧ Bounds xs lo hi := by
  induction xs using List.reverseRecOn with
  | nil => exact Or.inl ⟨rfl, rfl⟩
  | append_singleton xs x ih =>
      right
      rw [hull_concat]
      rcases ih with ⟨rfl, hnone⟩ | ⟨lo, hi, hsome, hbounds⟩
      · rw [hnone]
        exact ⟨x, x, rfl, by simp, by simp, by simp⟩
      · rw [hsome]
        exact ⟨_, _, rfl, hbounds.concat x⟩

theorem between_of_mem (h : x ∈ xs) : Between xs x := ⟨x, h, x, h, le_refl x, le_refl x⟩

theorem Between.mono (hsub : xs ⊆ ys) (h : Between xs x) : Between ys x := by
  obtain ⟨lo, hlo, hi, hhi, hle⟩ := h
  exact ⟨lo, hsub hlo, hi, hsub hhi, hle⟩

theorem Bounds.between_iff (h : Bounds xs lo hi) : Between xs x ↔ lo ≤ x ∧ x ≤ hi := by
  constructor
  · rintro ⟨lo', hlo', hi', hhi', hle⟩
    exact ⟨(h.le lo' hlo').1.trans hle.1, hle.2.trans (h.le hi' hhi').2⟩
  · exact fun hle => ⟨lo, h.mem_lo, hi, h.mem_hi, hle⟩

/-- Between the bounds and inside an open interval that is not empty. -/
theorem Bounds.meets_iff {xs : List Int} {lo hi start stop : Int} (h : Bounds xs lo hi)
    (hinterval : start + 1 < stop) :
    (∃ x, Between xs x ∧ start < x ∧ x < stop) ↔ lo < stop ∧ start < hi := by
  have hle : lo ≤ hi := (h.le lo h.mem_lo).2
  constructor
  · rintro ⟨x, hx, hlo, hhi⟩
    rw [h.between_iff] at hx
    omega
  · intro hmeets
    refine ⟨max lo (start + 1), ?_⟩
    rw [h.between_iff]
    omega

end Hull
