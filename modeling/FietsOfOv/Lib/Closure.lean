import Mathlib.Data.Finset.Card
import Mathlib.Data.Finset.Union
import Mathlib.Order.FixedPoints
import Mathlib.Order.CompletePartialOrder
import Mathlib.Tactic.Common

/-!
# Closing a set under successors, one frontier at a time

The frontier is what the last round added; a round adds the successors of the frontier
that are not there yet, and the search is over when there are none.  Where all successors
lie in a finite set, the search ends, with the least set that holds the start and the
successors of its members: the least fixed point of adding the successors to the start.
-/

namespace Closure

structure Search (α : Type) where
  keep : Finset α
  frontier : Finset α

variable {α : Type} [DecidableEq α] (next : α → Finset α)

def step (s : Search α) : Search α :=
  let found := s.frontier.biUnion next \ s.keep
  ⟨s.keep ∪ found, found⟩

/-- `while frontier`, for at most so many rounds. -/
def run : Nat → Search α → Search α
  | 0, s => s
  | rounds + 1, s => if s.frontier = ∅ then s else run rounds (step next s)

def search (rounds : Nat) (start : Finset α) : Search α := run next rounds ⟨start, start⟩

/-- `while frontier`, for as many rounds as it takes: the loop ends in the second state. -/
inductive Ends : Search α → Search α → Prop where
  | done {s : Search α} : s.frontier = ∅ → Ends s s
  | round {s s' : Search α} : s.frontier ≠ ∅ → Ends (step next s) s' → Ends s s'

/-- The members of the closure of a set. -/
inductive Reaches (start : Finset α) : α → Prop where
  | start {x : α} : x ∈ start → Reaches start x
  | next {x y : α} : Reaches start x → y ∈ next x → Reaches start y

/-- The start, with the successors of a set. -/
def grow (start : Finset α) : Set α →o Set α where
  toFun S := {y | y ∈ start ∨ ∃ x ∈ S, y ∈ next x}
  monotone' _ _ hST _ hy := hy.imp_right fun ⟨x, hx, hnext⟩ => ⟨x, hST hx, hnext⟩

/-- The successors of all members but the last found are there. -/
structure Explored (s : Search α) : Prop where
  frontier_subset : s.frontier ⊆ s.keep
  closed : ∀ x ∈ s.keep, x ∉ s.frontier → next x ⊆ s.keep

variable {next} {s : Search α} {start : Finset α}

theorem keep_subset_step : s.keep ⊆ (step next s).keep := Finset.subset_union_left

/-- A round finds the successors of its frontier that are not there yet. -/
theorem mem_frontier_step {y : α} :
    y ∈ (step next s).frontier ↔ (∃ x ∈ s.frontier, y ∈ next x) ∧ y ∉ s.keep := by
  rw [step, Finset.mem_sdiff, Finset.mem_biUnion]

theorem run_of_done (hdone : s.frontier = ∅) (rounds : Nat) : run next rounds s = s := by
  cases rounds with
  | zero => rfl
  | succ rounds => exact if_pos hdone

/-- A round that finds something leaves less of the successors to be found. -/
theorem card_unfound_step (bound : Finset α) (hbound : ∀ x, next x ⊆ bound)
    (hfound : (step next s).frontier ≠ ∅) :
    (bound \ (step next s).keep).card < (bound \ s.keep).card := by
  obtain ⟨y, hy⟩ := Finset.nonempty_iff_ne_empty.mpr hfound
  obtain ⟨⟨x, -, hxy⟩, hnew⟩ := mem_frontier_step.mp hy
  apply Finset.card_lt_card
  rw [Finset.ssubset_iff_of_subset (Finset.sdiff_subset_sdiff le_rfl keep_subset_step)]
  refine ⟨y, Finset.mem_sdiff.mpr ⟨hbound x hxy, hnew⟩, fun hy' => ?_⟩
  exact (Finset.mem_sdiff.mp hy').2 (Finset.mem_union_right _ hy)

/-- A search ends within as many rounds as there are successors left to find. -/
theorem run_done (bound : Finset α) (hbound : ∀ x, next x ⊆ bound) {rounds : Nat}
    (hrounds : (bound \ s.keep).card < rounds) : (run next rounds s).frontier = ∅ := by
  induction rounds generalizing s with
  | zero => exact absurd hrounds (Nat.not_lt_zero _)
  | succ rounds ih =>
      rw [run]
      split
      · assumption
      by_cases hfound : (step next s).frontier = ∅
      · rw [run_of_done hfound]
        exact hfound
      · have hless := card_unfound_step bound hbound hfound
        exact ih (by omega)

/-- Rounds enough are as many as it takes. -/
theorem ends_run {rounds : Nat} (hdone : (run next rounds s).frontier = ∅) :
    Ends next s (run next rounds s) := by
  induction rounds generalizing s with
  | zero => exact Ends.done hdone
  | succ rounds ih =>
      rw [run] at hdone ⊢
      split at hdone
      · rename_i hempty
        rw [if_pos hempty]
        exact Ends.done hempty
      · rename_i hmore
        rw [if_neg hmore]
        exact Ends.round hmore (ih hdone)

theorem Ends.unique {s₁ s₂ : Search α} (h₁ : Ends next s s₁) (h₂ : Ends next s s₂) : s₁ = s₂ := by
  induction h₁ with
  | done hdone =>
      cases h₂ with
      | done _ => rfl
      | round hmore _ => exact absurd hdone hmore
  | round hmore _ ih =>
      cases h₂ with
      | done hdone => exact absurd hdone hmore
      | round _ hrest => exact ih hrest

theorem Explored.step (h : Explored next s) : Explored next (step next s) where
  frontier_subset := Finset.subset_union_right
  closed := by
    intro x hx hlast y hy
    have hold : x ∈ s.keep := (Finset.mem_union.mp hx).resolve_right hlast
    by_cases hfrontier : x ∈ s.frontier
    · by_cases hkept : y ∈ s.keep
      · exact keep_subset_step hkept
      · apply Finset.mem_union_right
        exact mem_frontier_step.mpr ⟨⟨x, hfrontier, hy⟩, hkept⟩
    · exact keep_subset_step (h.closed x hold hfrontier hy)

theorem Explored.run (h : Explored next s) (rounds : Nat) : Explored next (run next rounds s) := by
  induction rounds generalizing s with
  | zero => exact h
  | succ rounds ih =>
      rw [Closure.run]
      split
      · exact h
      · exact ih h.step

theorem keep_subset_run (rounds : Nat) : s.keep ⊆ (run next rounds s).keep := by
  induction rounds generalizing s with
  | zero => exact Finset.Subset.refl _
  | succ rounds ih =>
      rw [run]
      split
      · exact Finset.Subset.refl _
      · exact keep_subset_step.trans ih

/-- Nothing is found that cannot be reached. -/
theorem reaches_run (hkeep : ∀ x ∈ s.keep, Reaches next start x) (hfrontier : s.frontier ⊆ s.keep)
    (rounds : Nat) : ∀ x ∈ (run next rounds s).keep, Reaches next start x := by
  induction rounds generalizing s with
  | zero => exact hkeep
  | succ rounds ih =>
      rw [run]
      split
      · exact hkeep
      · refine ih ?_ Finset.subset_union_right
        intro x hx
        rcases Finset.mem_union.mp hx with hx | hx
        · exact hkeep x hx
        · obtain ⟨⟨y, hy, hxy⟩, -⟩ := mem_frontier_step.mp hx
          exact Reaches.next (hkeep y (hfrontier hy)) hxy

/-- A search that ended found the closure of its start. -/
theorem mem_search_iff {rounds : Nat} (hdone : (search next rounds start).frontier = ∅) {x : α} :
    x ∈ (search next rounds start).keep ↔ Reaches next start x := by
  have hexplored : Explored next (search next rounds start) :=
    Explored.run ⟨Finset.Subset.refl _, fun x hx hlast => absurd hx hlast⟩ rounds
  constructor
  · exact reaches_run (fun _ hx => Reaches.start hx) (Finset.Subset.refl _) rounds x
  · intro hreach
    induction hreach with
    | start hx => exact keep_subset_run rounds hx
    | next _ hy ih => exact hexplored.closed _ ih (by simp [hdone]) hy

omit [DecidableEq α] in
/-- The closure is the least fixed point of adding the successors to the start. -/
theorem lfp_grow : (grow next start).lfp = {x | Reaches next start x} := by
  apply le_antisymm
  · apply OrderHom.lfp_le
    rintro y (hy | ⟨x, hx, hy⟩)
    · exact Reaches.start hy
    · exact Reaches.next hx hy
  · apply OrderHom.le_lfp
    intro S hS x hreach
    induction hreach with
    | start hx => exact hS (Or.inl hx)
    | next _ hy ih => exact hS (Or.inr ⟨_, ih, hy⟩)

omit [DecidableEq α] in
/-- Successors need only agree on what is reached. -/
theorem Reaches.congr {next' : α → Finset α} (hagree : ∀ x, Reaches next start x → next' x = next x)
    {x : α} : Reaches next' start x ↔ Reaches next start x := by
  constructor
  · intro hreach
    induction hreach with
    | start hx => exact Reaches.start hx
    | next _ hy ih => exact Reaches.next ih (hagree _ ih ▸ hy)
  · intro hreach
    induction hreach with
    | start hx => exact Reaches.start hx
    | next hx hy ih => exact Reaches.next ih ((hagree _ hx).symm ▸ hy)

end Closure
