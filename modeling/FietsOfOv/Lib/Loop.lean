import Mathlib.Data.List.Forall2

/-!
# Loops that stop at the first error

A comprehension over a list whose body may raise: it has a value for every
element, or it raises what the first failing element raises.
-/

namespace Loop

variable {ε α β : Type} {f : α → Except ε β} {xs : List α}

theorem bind_eq_ok {x : Except ε α} {b : β} :
    (x >>= f) = .ok b ↔ ∃ a, x = .ok a ∧ f a = .ok b := by
  cases x with
  | error e => simp [bind, Except.bind]
  | ok a => simp [bind, Except.bind]

theorem bind_eq_error {x : Except ε α} {e : ε} :
    (x >>= f) = .error e ↔ x = .error e ∨ ∃ a, x = .ok a ∧ f a = .error e := by
  cases x with
  | error e' => simp [bind, Except.bind]
  | ok a => simp [bind, Except.bind]

theorem bind_isOk {x : Except ε α} :
    (∃ b, (x >>= f) = .ok b) ↔ ∃ a, x = .ok a ∧ ∃ b, f a = .ok b := by
  simp only [bind_eq_ok]
  rw [exists_comm]
  simp only [exists_and_left]

theorem map_isOk {g : α → β} {x : Except ε α} :
    (∃ b, (g <$> x) = .ok b) ↔ ∃ a, x = .ok a := by
  cases x with
  | error e => simp [Functor.map, Except.map]
  | ok a => simp [Functor.map, Except.map]

theorem map_eq_error {g : α → β} {x : Except ε α} {e : ε} :
    (g <$> x) = .error e ↔ x = .error e := by
  cases x with
  | error e' => simp [Functor.map, Except.map]
  | ok a => simp [Functor.map, Except.map]

theorem mapM_eq_ok {ys : List β} :
    xs.mapM f = .ok ys ↔ List.Forall₂ (fun x y => f x = .ok y) xs ys := by
  induction xs generalizing ys with
  | nil =>
      rw [List.mapM_nil, List.forall₂_nil_left_iff]
      constructor
      · rintro ⟨⟩
        rfl
      · rintro rfl
        rfl
  | cons x xs ih =>
      rw [List.mapM_cons, bind_eq_ok]
      simp only [bind_eq_ok, ih, List.forall₂_cons_left_iff]
      constructor
      · rintro ⟨y, hy, ys', hys, heq⟩
        cases heq
        exact ⟨y, ys', hy, hys, rfl⟩
      · rintro ⟨y, ys', hy, hys, rfl⟩
        exact ⟨y, hy, ys', hys, rfl⟩

/-- What a loop raises, the first failing element raises. -/
theorem mapM_eq_error {e : ε} :
    xs.mapM f = .error e ↔ ∃ before x after, xs = before ++ x :: after ∧
      (∀ y ∈ before, ∃ b, f y = .ok b) ∧ f x = .error e := by
  induction xs with
  | nil =>
      rw [List.mapM_nil]
      constructor
      · rintro ⟨⟩
      · rintro ⟨before, x, after, heq, _⟩
        simp at heq
  | cons x xs ih =>
      rw [List.mapM_cons, bind_eq_error]
      simp only [bind_eq_error, ih]
      constructor
      · rintro (herror | ⟨b, hb, ⟨before, y, after, rfl, hbefore, herror⟩ | ⟨_, _, hpure⟩⟩)
        · exact ⟨[], x, xs, rfl, by simp, herror⟩
        · refine ⟨x :: before, y, after, rfl, ?_, herror⟩
          intro z hz
          rcases List.mem_cons.mp hz with rfl | hz
          · exact ⟨b, hb⟩
          · exact hbefore z hz
        · cases hpure
      · rintro ⟨before, y, after, heq, hbefore, herror⟩
        cases before with
        | nil =>
            cases heq
            exact Or.inl herror
        | cons z before =>
            cases heq
            obtain ⟨b, hb⟩ := hbefore x List.mem_cons_self
            have hrest : ∀ y ∈ before, ∃ b, f y = .ok b :=
              fun y hy => hbefore y (List.mem_cons_of_mem _ hy)
            exact Or.inr ⟨b, hb, Or.inl ⟨before, y, after, rfl, hrest, herror⟩⟩

/-- A loop comes to its end exactly if the body has a value for every element. -/
theorem mapM_isOk :
    (∃ ys, xs.mapM f = .ok ys) ↔ ∀ x ∈ xs, ∃ y, f x = .ok y := by
  induction xs with
  | nil => simp [List.mapM_nil, pure, Except.pure]
  | cons x xs ih =>
      simp only [List.mapM_cons, bind_eq_ok, List.forall_mem_cons, ← ih]
      constructor
      · rintro ⟨_, y, hy, ys, hys, _⟩
        exact ⟨⟨y, hy⟩, ys, hys⟩
      · rintro ⟨⟨y, hy⟩, ys, hys⟩
        exact ⟨y :: ys, y, hy, ys, hys, rfl⟩

/-- An element fails, and all before it pass. -/
def FirstFails (passes fails : α → Prop) (xs : List α) : Prop :=
  ∃ before x after, xs = before ++ x :: after ∧ (∀ y ∈ before, passes y) ∧ fails x

theorem mapM_eq_error_iff {passes fails : α → Prop} {e : ε}
    (hpasses : ∀ x, (∃ y, f x = .ok y) ↔ passes x) (hfails : ∀ x, f x = .error e ↔ fails x) :
    xs.mapM f = .error e ↔ FirstFails passes fails xs := by
  simp only [mapM_eq_error, FirstFails, hpasses, hfails]

theorem guard_bind_eq_some {p : Prop} [Decidable p] {a : α} {g : α → Option β} {b : β} :
    ((if p then some a else none) >>= g) = some b ↔ p ∧ g a = some b := by
  by_cases hp : p <;> simp [hp]

/-- A loop with an accumulator whose body raises by the element alone. -/
theorem foldlM_guarded {p : β → Prop} [DecidablePred p] {g : α → β → Option α} {f : α → β → α}
    (hg : ∀ a b, g a b = if p b then some (f a b) else none) (ys : List β) (a : α) :
    ys.foldlM g a = if ∀ y ∈ ys, p y then some (ys.foldl f a) else none := by
  induction ys generalizing a with
  | nil => simp
  | cons y ys ih =>
      rw [List.foldlM_cons, hg]
      by_cases hy : p y
      · simp [hy, ih]
      · simp [hy]

end Loop
