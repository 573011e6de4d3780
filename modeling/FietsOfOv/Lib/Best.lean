import FietsOfOv.Lib.Dict
import Mathlib.Data.List.Induction
import Mathlib.Order.Lattice

/-!
# Keeping the cheapest of every kind

A loop over a list that keeps, in a dictionary, the cheapest element seen of
each key, and on a tie the one seen first.
-/

namespace Best

variable {α κ γ : Type} [DecidableEq κ] [LinearOrder γ] {key : α → κ} {cost : α → γ}

/-- One turn of the loop. -/
def keep (key : α → κ) (cost : α → γ) (best : List (κ × α)) (x : α) : List (κ × α) :=
  match Dict.get best (key x) with
  | none => Dict.set best (key x) x
  | some current => if cost x < cost current then Dict.set best (key x) x else best

/-- The first of the cheapest elements of a list. -/
def FirstCheapest (cost : α → γ) (xs : List α) (w : α) : Prop :=
  ∃ before after, xs = before ++ w :: after ∧ (∀ x ∈ before, cost w < cost x) ∧
    ∀ x ∈ after, cost w ≤ cost x

namespace FirstCheapest

variable {xs : List α} {w x : α}

theorem singleton (cost : α → γ) (x : α) : FirstCheapest cost [x] x :=
  ⟨[], [], rfl, by simp, by simp⟩

theorem mem (h : FirstCheapest cost xs w) : w ∈ xs := by
  obtain ⟨before, after, rfl, _, _⟩ := h
  simp

theorem le (h : FirstCheapest cost xs w) (hx : x ∈ xs) : cost w ≤ cost x := by
  obtain ⟨before, after, rfl, hbefore, hafter⟩ := h
  rcases List.mem_append.mp hx with hx | hx
  · exact le_of_lt (hbefore x hx)
  · rcases List.mem_cons.mp hx with rfl | hx
    · exact le_refl _
    · exact hafter x hx

theorem congr {cost' : α → γ} (h : FirstCheapest cost xs w) (heq : ∀ x ∈ xs, cost x = cost' x) :
    FirstCheapest cost' xs w := by
  obtain ⟨before, after, rfl, hbefore, hafter⟩ := h
  refine ⟨before, after, rfl, ?_, ?_⟩
  · intro x hx
    rw [← heq w (by simp), ← heq x (List.mem_append_left _ hx)]
    exact hbefore x hx
  · intro x hx
    rw [← heq w (by simp), ← heq x (List.mem_append_right _ (List.mem_cons_of_mem w hx))]
    exact hafter x hx

theorem of_map {β : Type} {f : β → α} {ys : List β} (h : FirstCheapest cost (ys.map f) w) :
    ∃ y, w = f y ∧ FirstCheapest (fun y => cost (f y)) ys y := by
  obtain ⟨before, after, heq, hbefore, hafter⟩ := h
  obtain ⟨ysBefore, rest, rfl, rfl, hrest⟩ := List.map_eq_append_iff.mp heq
  obtain ⟨y, ysAfter, rfl, rfl, rfl⟩ := List.map_eq_cons_iff.mp hrest
  refine ⟨y, rfl, ysBefore, ysAfter, rfl, ?_, ?_⟩
  · intro x hx
    exact hbefore (f x) (List.mem_map_of_mem hx)
  · intro x hx
    exact hafter (f x) (List.mem_map_of_mem hx)

theorem snoc_lt (h : FirstCheapest cost xs w) (hlt : cost x < cost w) :
    FirstCheapest cost (xs ++ [x]) x :=
  ⟨xs, [], rfl, fun _ hy => lt_of_lt_of_le hlt (h.le hy), by simp⟩

theorem snoc_le (h : FirstCheapest cost xs w) (hle : cost w ≤ cost x) :
    FirstCheapest cost (xs ++ [x]) w := by
  obtain ⟨before, after, rfl, hbefore, hafter⟩ := h
  refine ⟨before, after ++ [x], by simp, hbefore, fun y hy => ?_⟩
  rcases List.mem_append.mp hy with hy | hy
  · exact hafter y hy
  · rw [List.mem_singleton.mp hy]
    exact hle

end FirstCheapest

/-- What the loop has kept for a key, if anything. -/
def Kept (cost : α → γ) (xs : List α) : Option α → Prop
  | none => xs = []
  | some w => FirstCheapest cost xs w

/-- The loop keeps the first of the cheapest elements of every key. -/
theorem get_foldl_keep (xs : List α) (k : κ) :
    Kept cost (xs.filter (key · = k)) (Dict.get (xs.foldl (keep key cost) []) k) := by
  induction xs using List.reverseRecOn with
  | nil => rfl
  | append_singleton xs x ih =>
      rw [List.foldl_append, List.filter_append]
      simp only [List.foldl_cons, List.foldl_nil, keep]
      by_cases hk : key x = k
      · subst hk
        simp only [decide_true, List.filter_cons_of_pos, List.filter_nil]
        cases hget : Dict.get (xs.foldl (keep key cost) []) (key x) with
        | none =>
            rw [hget] at ih
            simp only [Dict.get_set, if_true]
            rw [show xs.filter (key · = key x) = [] from ih]
            exact .singleton cost x
        | some current =>
            rw [hget] at ih
            by_cases hlt : cost x < cost current
            · simp only [hlt, if_true, Dict.get_set]
              exact FirstCheapest.snoc_lt ih hlt
            · simp only [hlt, if_false, hget]
              exact FirstCheapest.snoc_le ih (not_lt.mp hlt)
      · simp only [hk, decide_false, Bool.false_eq_true, not_false_eq_true,
          List.filter_cons_of_neg, List.filter_nil, List.append_nil]
        have hother : ∀ v, Dict.get (Dict.set (xs.foldl (keep key cost) []) (key x) v) k =
            Dict.get (xs.foldl (keep key cost) []) k := by
          intro v
          rw [Dict.get_set, if_neg hk]
        split
        · rw [hother]
          exact ih
        · split
          · rw [hother]
            exact ih
          · exact ih

/-- Every entry stands under its own key, and only once. -/
theorem foldl_keep_unique (xs : List α) :
    Dict.Unique (xs.foldl (keep key cost) []) ∧
      ∀ p ∈ xs.foldl (keep key cost) [], key p.2 = p.1 := by
  induction xs using List.reverseRecOn with
  | nil => exact ⟨List.nodup_nil, by simp⟩
  | append_singleton xs x ih =>
      obtain ⟨hunique, hkeys⟩ := ih
      have hset : Dict.Unique (Dict.set (xs.foldl (keep key cost) []) (key x) x) ∧
          ∀ p ∈ Dict.set (xs.foldl (keep key cost) []) (key x) x, key p.2 = p.1 := by
        refine ⟨hunique.set _ _, fun p hp => ?_⟩
        rcases Dict.mem_set hp with rfl | hp
        · rfl
        · exact hkeys p hp
      rw [List.foldl_append]
      simp only [List.foldl_cons, List.foldl_nil]
      unfold keep
      split
      · exact hset
      · split
        · exact hset
        · exact ⟨hunique, hkeys⟩

end Best
