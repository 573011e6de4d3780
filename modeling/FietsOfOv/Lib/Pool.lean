import Mathlib.Tactic.Common
import Mathlib.Algebra.BigOperators.Group.List.Basic
import Mathlib.Algebra.GroupWithZero.Nat

/-!
# Counting over a pool of tasks

A pool is a list of tasks of which one changes at a time.  `weight f` adds a
number up over the pool: how many tasks hold a permit, stand in a critical
region, carry a given item, or how many steps are still to go.  `weight_set`
says how a single change moves it, whatever is being counted.
-/

namespace Pool

variable {τ : Type*}

def weight (f : τ → Nat) (pool : List τ) : Nat := (pool.map f).sum

@[simp] theorem weight_nil (f : τ → Nat) : weight f [] = 0 := rfl

@[simp] theorem weight_cons (f : τ → Nat) (t : τ) (pool : List τ) :
    weight f (t :: pool) = f t + weight f pool := by
  simp [weight]

/-- One task changes from `t` to `t'`: its own share is exchanged. -/
theorem weight_set (f : τ → Nat) {pool : List τ} {i : Nat} {t : τ} (t' : τ)
    (h : pool[i]? = some t) : weight f (pool.set i t') + f t = weight f pool + f t' := by
  induction pool generalizing i with
  | nil => simp at h
  | cons head pool ih =>
      cases i with
      | zero =>
          simp only [List.getElem?_cons_zero, Option.some.injEq] at h
          simp only [List.set_cons_zero, weight_cons, h]
          omega
      | succ i =>
          have := ih (by simpa using h)
          simp only [List.set_cons_succ, weight_cons]
          omega

theorem le_weight (f : τ → Nat) {pool : List τ} {t : τ} (h : t ∈ pool) :
    f t ≤ weight f pool := by
  induction pool with
  | nil => simp at h
  | cons head pool ih =>
      rcases List.mem_cons.mp h with rfl | h
      · simp
      · have := ih h
        simp only [weight_cons]
        omega

theorem weight_eq_zero {f : τ → Nat} {pool : List τ} :
    weight f pool = 0 ↔ ∀ t ∈ pool, f t = 0 := by
  induction pool with
  | nil => simp
  | cons head pool ih => simp [ih]

/-- Where at most one task counts, the others of a counting task do not. -/
theorem weight_others (f : τ → Nat) {pool : List τ} {i j : Nat} {t u : τ}
    (hle : weight f pool ≤ f t) (hi : pool[i]? = some t) (hj : pool[j]? = some u)
    (hne : i ≠ j) : f u = 0 := by
  induction pool generalizing i j with
  | nil => simp at hi
  | cons head pool ih =>
      simp only [weight_cons] at hle
      cases i with
      | zero =>
          cases j with
          | zero => exact absurd rfl hne
          | succ j =>
              simp only [List.getElem?_cons_zero, Option.some.injEq] at hi
              subst hi
              have hmem : u ∈ pool := List.mem_of_getElem? (by simpa using hj)
              have := le_weight f hmem
              omega
      | succ i =>
          have hi' : pool[i]? = some t := by simpa using hi
          have htail := le_weight f (List.mem_of_getElem? hi')
          cases j with
          | zero =>
              simp only [List.getElem?_cons_zero, Option.some.injEq] at hj
              subst hj
              omega
          | succ j => exact ih (by omega) hi' (by simpa using hj) (by omega)

/-- The weight of tasks that count by one of their parts is that of the parts. -/
theorem weight_map {υ : Type*} (f : υ → Nat) (part : τ → υ) (pool : List τ) :
    weight f (pool.map part) = weight (fun t => f (part t)) pool := by
  rw [weight, weight, List.map_map]
  rfl

theorem weight_congr {f g : τ → Nat} {pool : List τ} (h : ∀ t ∈ pool, f t = g t) :
    weight f pool = weight g pool :=
  congrArg List.sum (List.map_congr_left h)

/-- The first task of a kind. -/
theorem exists_first {p : τ → Prop} {pool : List τ} (h : ∃ t ∈ pool, p t) :
    ∃ (i : Nat) (t : τ), pool[i]? = some t ∧ p t ∧
      ∀ j < i, ∀ u, pool[j]? = some u → ¬ p u := by
  induction pool with
  | nil => simp at h
  | cons head pool ih =>
      by_cases hhead : p head
      · exact ⟨0, head, rfl, hhead, fun j hj => absurd hj (Nat.not_lt_zero j)⟩
      · obtain ⟨t, ht, hp⟩ := h
        have htail : ∃ t ∈ pool, p t := by
          rcases List.mem_cons.mp ht with rfl | ht
          · exact absurd hp hhead
          · exact ⟨t, ht, hp⟩
        obtain ⟨i, t, hi, hp, hfirst⟩ := ih htail
        refine ⟨i + 1, t, by simpa using hi, hp, fun j hj u hu => ?_⟩
        cases j with
        | zero =>
            simp only [List.getElem?_cons_zero, Option.some.injEq] at hu
            exact hu ▸ hhead
        | succ j => exact hfirst j (Nat.lt_of_succ_lt_succ hj) u (by simpa using hu)

/-- A property that some member has, some member keeps, if it is not lost by the one that
changes. -/
theorem exists_mem_set {p : τ → Prop} {pool : List τ} {i : Nat} {t t' : τ}
    (ht : pool[i]? = some t) (hkeep : p t → p t') (h : ∃ u ∈ pool, p u) :
    ∃ u ∈ pool.set i t', p u := by
  obtain ⟨u, hu, hp⟩ := h
  obtain ⟨j, hj⟩ := List.mem_iff_getElem?.mp hu
  by_cases hij : i = j
  · subst hij
    cases ht.symm.trans hj
    exact ⟨t', List.mem_set (List.getElem?_eq_some_iff.mp ht).1 _, hkeep hp⟩
  · exact ⟨u, List.mem_iff_getElem?.mpr ⟨j, (List.getElem?_set_ne hij).trans hj⟩, hp⟩

/-- Collecting from a pool in which only the changed task has something. -/
theorem flatMap_set_of_others_nil {β : Type*} (f : τ → List β) {pool : List τ} {i : Nat}
    {t : τ} (t' : τ) (hi : pool[i]? = some t)
    (hothers : ∀ j u, pool[j]? = some u → i ≠ j → f u = []) :
    (pool.set i t').flatMap f = f t' := by
  induction pool generalizing i with
  | nil => simp at hi
  | cons head pool ih =>
      cases i with
      | zero =>
          have htail : pool.flatMap f = [] := by
            apply List.flatMap_eq_nil_iff.mpr
            intro u hu
            obtain ⟨j, hj⟩ := List.mem_iff_getElem?.mp hu
            exact hothers (j + 1) u (by simpa using hj) (by omega)
          simp [htail]
      | succ i =>
          have hhead : f head = [] := hothers 0 head (by simp) (by omega)
          simp only [List.set_cons_succ, List.flatMap_cons, hhead, List.nil_append]
          apply ih (by simpa using hi)
          intro j u hj hne
          exact hothers (j + 1) u (by simpa using hj) (by omega)

/-- What a pool collects is what one task and all the others collect. -/
theorem flatMap_perm {β : Type*} (f : τ → List β) {pool : List τ} {i : Nat} {t : τ}
    (h : pool[i]? = some t) : (pool.flatMap f).Perm (f t ++ (pool.eraseIdx i).flatMap f) := by
  induction pool generalizing i with
  | nil => simp at h
  | cons head pool ih =>
      cases i with
      | zero =>
          simp only [List.getElem?_cons_zero, Option.some.injEq] at h
          simp [h]
      | succ i =>
          have hrest := ih (by simpa using h)
          simp only [List.flatMap_cons, List.eraseIdx_cons_succ]
          exact (hrest.append_left _).trans (List.perm_append_comm_assoc _ _ _)

theorem flatMap_set_perm {β : Type*} (f : τ → List β) {pool : List τ} {i : Nat} {t : τ}
    (t' : τ) (h : pool[i]? = some t) :
    ((pool.set i t').flatMap f).Perm (f t' ++ (pool.eraseIdx i).flatMap f) := by
  obtain ⟨hlt, _⟩ := List.getElem?_eq_some_iff.mp h
  have hset : (pool.set i t')[i]? = some t' := by simp [hlt]
  have hrest := flatMap_perm f hset
  rwa [List.eraseIdx_set_eq] at hrest

theorem flatMap_set_of_eq {β : Type*} (f : τ → List β) {pool : List τ} {i : Nat}
    {t t' : τ} (hi : pool[i]? = some t) (heq : f t' = f t) :
    (pool.set i t').flatMap f = pool.flatMap f := by
  induction pool generalizing i with
  | nil => simp
  | cons head pool ih =>
      cases i with
      | zero =>
          simp only [List.getElem?_cons_zero, Option.some.injEq] at hi
          subst hi
          simp [heq]
      | succ i =>
          simp only [List.set_cons_succ, List.flatMap_cons]
          rw [ih (by simpa using hi)]

end Pool
