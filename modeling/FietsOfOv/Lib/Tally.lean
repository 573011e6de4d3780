import Mathlib.Algebra.BigOperators.Group.List.Basic
import Mathlib.Tactic.Linarith

/-!
# Counting the same pairs twice

How often the things of one list meet those of another can be counted from either
side.  Counted from the second, the things met more than once and the things nobody
meets account for the difference to a plain count.
-/

namespace Tally

variable {α β : Type}

theorem sum_map_one (p : β → Bool) (ys : List β) :
    (ys.map fun y => if p y then 1 else 0).sum = ys.countP p := by
  induction ys with
  | nil => rfl
  | cons y ys ih => rw [List.map_cons, List.sum_cons, ih, List.countP_cons, add_comm]

/-- The pairs that meet, counted by the first list or by the second. -/
theorem sum_countP_comm (p : α → β → Bool) (xs : List α) (ys : List β) :
    (xs.map fun x => ys.countP (p x)).sum = (ys.map fun y => xs.countP fun x => p x y).sum := by
  induction xs with
  | nil => simp
  | cons x xs ih =>
      rw [List.map_cons, List.sum_cons, ih]
      simp only [List.countP_cons]
      rw [List.sum_map_add, sum_map_one, add_comm]

/-- Against a plain count of the things inside, the meetings miss the things inside that
    nobody meets, and exceed it by every meeting after a thing's first and by the first
    meetings with things outside. -/
theorem sum_add_unmet (met : β → Nat) (inside : β → Bool) (ys : List β) :
    (ys.map met).sum + ys.countP (fun y => inside y ∧ met y = 0) =
      ys.countP inside + (ys.map fun y => met y - 1).sum +
        ys.countP (fun y => ¬ inside y ∧ 0 < met y) := by
  induction ys with
  | nil => rfl
  | cons y ys ih =>
      have hy : met y + (if inside y ∧ met y = 0 then 1 else 0) =
          (if inside y then 1 else 0) + (met y - 1) +
            (if ¬ inside y ∧ 0 < met y then 1 else 0) := by
        rcases Nat.eq_zero_or_pos (met y) with hzero | hpos
        · simp [hzero]
        · cases inside y <;> simp [hpos, hpos.ne'] <;> omega
      simp only [List.map_cons, List.sum_cons, List.countP_cons, decide_eq_true_eq]
      omega

end Tally
