import Mathlib.Tactic.Common

/-!
# Runs of a partial step function

A machine is a partial function `step : σ → α → Option σ`: the action says which
component moves and with what outcome, and `none` means that it cannot move so
in this state.  A run is a list of actions.  `Meets` restricts a run to actions
that a condition allows in the state where they are taken; an invariant only has
to be kept by such steps.
-/

namespace Run

variable {σ α : Type*} {step : σ → α → Option σ} {ok : σ → α → Prop}

/-- The state a list of actions leads to, if every one of them can be taken. -/
def exec (step : σ → α → Option σ) : σ → List α → Option σ
  | s, [] => some s
  | s, a :: as => (step s a).bind fun s' => exec step s' as

/-- Each action is one `ok` allows in the state where it is taken. -/
def Meets (step : σ → α → Option σ) (ok : σ → α → Prop) : σ → List α → Prop
  | _, [] => True
  | s, a :: as => ok s a ∧ ∀ s', step s a = some s' → Meets step ok s' as

instance decidableMeets [∀ s a, Decidable (ok s a)] :
    (s : σ) → (as : List α) → Decidable (Meets step ok s as)
  | _, [] => isTrue trivial
  | s, a :: as =>
      match h : step s a with
      | none => decidable_of_iff (ok s a) ⟨fun hok => ⟨hok, by simp [h]⟩, And.left⟩
      | some s' =>
          have := decidableMeets s' as
          decidable_of_iff (ok s a ∧ Meets step ok s' as)
            ⟨fun hok => ⟨hok.1, fun _ h' => Option.some.inj (h.symm.trans h') ▸ hok.2⟩,
              fun hok => ⟨hok.1, hok.2 s' h⟩⟩

/-- No action that `ok` allows can be taken. -/
def Stuck (step : σ → α → Option σ) (ok : σ → α → Prop) (s : σ) : Prop :=
  ∀ a, ok s a → step s a = none

theorem exec_cons_eq_some {s t : σ} {a : α} {as : List α} :
    exec step s (a :: as) = some t ↔ ∃ s', step s a = some s' ∧ exec step s' as = some t :=
  Option.bind_eq_some_iff

theorem exec_append {s s' t : σ} {as bs : List α} (h : exec step s as = some s')
    (h' : exec step s' bs = some t) : exec step s (as ++ bs) = some t := by
  induction as generalizing s with
  | nil =>
      cases h
      exact h'
  | cons a as ih =>
      obtain ⟨u, hu, hrest⟩ := exec_cons_eq_some.mp h
      exact exec_cons_eq_some.mpr ⟨u, hu, ih hrest⟩

theorem exec_append_eq_some {s t : σ} {as bs : List α} :
    exec step s (as ++ bs) = some t ↔ ∃ u, exec step s as = some u ∧ exec step u bs = some t := by
  constructor
  · intro h
    induction as generalizing s with
    | nil => exact ⟨s, rfl, h⟩
    | cons a as ih =>
        obtain ⟨s', hs', hrest⟩ := exec_cons_eq_some.mp h
        obtain ⟨u, hu, hbs⟩ := ih hrest
        exact ⟨u, exec_cons_eq_some.mpr ⟨s', hs', hu⟩, hbs⟩
  · rintro ⟨u, hu, hbs⟩
    exact exec_append hu hbs

theorem meets_true (s : σ) (as : List α) : Meets step (fun _ _ => True) s as := by
  induction as generalizing s with
  | nil => trivial
  | cons a as ih => exact ⟨trivial, fun s' _ => ih s'⟩

theorem meets_of_forall {p : α → Prop} {as : List α} (h : ∀ a ∈ as, p a) (s : σ) :
    Meets step (fun _ a => p a) s as := by
  induction as generalizing s with
  | nil => trivial
  | cons a as ih =>
      rw [List.forall_mem_cons] at h
      exact ⟨h.1, fun s' _ => ih h.2 s'⟩

/-- A run meets a condition if it does up to its last action, and there. -/
theorem meets_snoc {s : σ} {as : List α} {a : α} :
    Meets step ok s (as ++ [a]) ↔
      Meets step ok s as ∧ ∀ t, exec step s as = some t → ok t a := by
  induction as generalizing s with
  | nil =>
      refine ⟨fun h => ⟨trivial, ?_⟩, fun h => ⟨h.2 s rfl, fun _ _ => trivial⟩⟩
      intro t ht
      cases ht
      exact h.1
  | cons b as ih =>
      constructor
      · rintro ⟨hb, hrest⟩
        refine ⟨⟨hb, fun s' hs' => (ih.mp (hrest s' hs')).1⟩, fun t ht => ?_⟩
        obtain ⟨s', hs', hexec⟩ := exec_cons_eq_some.mp ht
        exact (ih.mp (hrest s' hs')).2 t hexec
      · rintro ⟨⟨hb, hrest⟩, hlast⟩
        refine ⟨hb, fun s' hs' => ih.mpr ⟨hrest s' hs', fun t ht => ?_⟩⟩
        exact hlast t (exec_cons_eq_some.mpr ⟨s', hs', ht⟩)

/-- A run meets a condition if every action does in the state it is taken in. -/
theorem meets_iff {s : σ} {as : List α} :
    Meets step ok s as ↔ ∀ before a after t, as = before ++ a :: after →
      exec step s before = some t → ok t a := by
  induction as generalizing s with
  | nil => simp [Meets]
  | cons b as ih =>
      constructor
      · rintro ⟨hb, hrest⟩ before a after t heq hexec
        cases before with
        | nil =>
            cases heq
            cases hexec
            exact hb
        | cons c before =>
            cases heq
            obtain ⟨s', hs', hbefore⟩ := exec_cons_eq_some.mp hexec
            exact ih.mp (hrest s' hs') before a after t rfl hbefore
      · intro h
        refine ⟨h [] b as s rfl rfl, fun s' hs' => ih.mpr ?_⟩
        intro before a after t heq hexec
        exact h (b :: before) a after t (heq ▸ rfl) (exec_cons_eq_some.mpr ⟨s', hs', hexec⟩)

theorem meets_of_append {s : σ} {as bs : List α} (h : Meets step ok s (as ++ bs)) :
    Meets step ok s as := by
  rw [meets_iff] at h ⊢
  intro before a after t heq hexec
  exact h before a (after ++ bs) t (by rw [heq, List.append_assoc, List.cons_append]) hexec

/-- What every allowed step keeps, every run of allowed steps keeps. -/
theorem exec_invariant {P : σ → Prop}
    (hstep : ∀ s a s', P s → ok s a → step s a = some s' → P s')
    {s t : σ} {as : List α} (hs : P s) (hok : Meets step ok s as)
    (hexec : exec step s as = some t) : P t := by
  induction as generalizing s with
  | nil =>
      cases hexec
      exact hs
  | cons a as ih =>
      obtain ⟨u, hu, hrest⟩ := exec_cons_eq_some.mp hexec
      exact ih (hstep s a u hs hok.1 hu) (hok.2 u hu) hrest

/-- A run of allowed steps that all lower a measure is no longer than the measure says. -/
theorem length_add_le {P : σ → Prop} (measure : σ → Nat)
    (hstep : ∀ s a s', P s → ok s a → step s a = some s' → P s' ∧ measure s' < measure s)
    {s t : σ} {as : List α} (hs : P s) (hok : Meets step ok s as)
    (hexec : exec step s as = some t) : as.length + measure t ≤ measure s := by
  induction as generalizing s with
  | nil =>
      cases hexec
      simp
  | cons a as ih =>
      obtain ⟨u, hu, hrest⟩ := exec_cons_eq_some.mp hexec
      obtain ⟨hP, hlt⟩ := hstep s a u hs hok.1 hu
      have hle := ih hP (hok.2 u hu) hrest
      rw [List.length_cons]
      omega

/-- Allowed steps that all lower a measure end in a stuck state. -/
theorem exists_stuck {P : σ → Prop} (measure : σ → Nat)
    (hstep : ∀ s a s', P s → ok s a → step s a = some s' → P s' ∧ measure s' < measure s)
    (s : σ) (hs : P s) :
    ∃ as t, Meets step ok s as ∧ exec step s as = some t ∧ Stuck step ok t := by
  induction hn : measure s using Nat.strongRecOn generalizing s with
  | ind n ih =>
      by_cases hstuck : Stuck step ok s
      · exact ⟨[], s, trivial, rfl, hstuck⟩
      · obtain ⟨a, hok, hmoves⟩ : ∃ a, ok s a ∧ step s a ≠ none := by
          simpa [Stuck] using hstuck
        obtain ⟨s', hs'⟩ := Option.ne_none_iff_exists'.mp hmoves
        obtain ⟨hP, hlt⟩ := hstep s a s' hs hok hs'
        obtain ⟨as, t, hmeets, hexec, hend⟩ := ih (measure s') (hn ▸ hlt) s' hP rfl
        refine ⟨a :: as, t, ⟨hok, fun u hu => ?_⟩, exec_cons_eq_some.mpr ⟨s', hs', hexec⟩, hend⟩
        cases hs'.symm.trans hu
        exact hmeets

end Run
