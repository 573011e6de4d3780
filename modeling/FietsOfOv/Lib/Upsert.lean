import FietsOfOv.Lib.Loop
import Mathlib.Logic.Function.Basic

/-!
# Rows inserted or updated, all or none

`INSERT … ON CONFLICT DO UPDATE` with several rows of values.  Each row goes in under its
key, or updates the row that has the key.  The statement fails as a whole where values
break a constraint of the table, and where it would touch one row twice.
-/

namespace Upsert

structure Statement (ν κ ρ ε : Type) where
  /-- The key and the row that some values make, if the constraints accept them. -/
  accept : ν → Except ε (κ × ρ)
  /-- The row that is there and the one that was to be inserted. -/
  merge : ρ → ρ → ρ
  /-- What touching a row twice raises. -/
  twice : ε

variable {ν κ ρ ε : Type} [DecidableEq κ]

/-- The table with one more row. -/
def put (merge : ρ → ρ → ρ) (table : κ → Option ρ) (row : κ × ρ) : κ → Option ρ :=
  Function.update table row.1 (some ((table row.1).elim row.2 (merge · row.2)))

def putAll (merge : ρ → ρ → ρ) (rows : List (κ × ρ)) (table : κ → Option ρ) : κ → Option ρ :=
  rows.foldl (put merge) table

/-- The rest of the statement, after these keys. -/
def run (S : Statement ν κ ρ ε) (touched : List κ) (values : List ν) (table : κ → Option ρ) :
    Except ε (κ → Option ρ) :=
  match values with
  | [] => .ok table
  | v :: values => do
      let row ← S.accept v
      if row.1 ∈ touched then throw S.twice
      else run S (row.1 :: touched) values (put S.merge table row)

def execute (S : Statement ν κ ρ ε) (values : List ν) (table : κ → Option ρ) :
    Except ε (κ → Option ρ) :=
  run S [] values table

variable {S : Statement ν κ ρ ε} {merge : ρ → ρ → ρ} {touched : List κ} {values : List ν}
  {table table' : κ → Option ρ} {rows : List (κ × ρ)} {k : κ} {r : ρ}

/-! ## When a statement succeeds -/

theorem run_eq_ok : run S touched values table = .ok table' ↔
    ∃ rows, List.Forall₂ (fun v row => S.accept v = .ok row) values rows ∧
      (rows.map (·.1)).Nodup ∧ (∀ row ∈ rows, row.1 ∉ touched) ∧
      table' = putAll S.merge rows table := by
  induction values generalizing touched table with
  | nil =>
      rw [run, Except.ok.injEq]
      constructor
      · rintro rfl
        exact ⟨[], .nil, List.nodup_nil, by simp, rfl⟩
      · rintro ⟨rows, hrows, -, -, rfl⟩
        cases hrows
        rfl
  | cons v values ih =>
      rw [run, Loop.bind_eq_ok]
      constructor
      · rintro ⟨row, hrow, hrest⟩
        split at hrest
        · cases hrest
        · rename_i hnew
          obtain ⟨rows, hrows, hnodup, htouched, rfl⟩ := ih.mp hrest
          refine ⟨row :: rows, .cons hrow hrows, ?_, ?_, rfl⟩
          · rw [List.map_cons, List.nodup_cons]
            refine ⟨fun hmem => ?_, hnodup⟩
            obtain ⟨row', hrow', heq⟩ := List.mem_map.mp hmem
            exact htouched row' hrow' (heq ▸ List.mem_cons_self)
          · rw [List.forall_mem_cons]
            exact ⟨hnew, fun row' hrow' hold => htouched row' hrow' (List.mem_cons_of_mem _ hold)⟩
      · rintro ⟨rows, hrows, hnodup, htouched, rfl⟩
        cases hrows with
        | @cons _ row _ rows hrow hrows =>
            rw [List.forall_mem_cons] at htouched
            rw [List.map_cons, List.nodup_cons] at hnodup
            refine ⟨row, hrow, ?_⟩
            rw [if_neg htouched.1, ih]
            refine ⟨rows, hrows, hnodup.2, fun row' hrow' hmem => ?_, rfl⟩
            rcases List.mem_cons.mp hmem with heq | hold
            · exact hnodup.1 (heq ▸ List.mem_map_of_mem hrow')
            · exact htouched.2 row' hrow' hold

/-- A statement succeeds if all values are accepted, under keys of their own. -/
theorem execute_eq_ok : execute S values table = .ok table' ↔
    ∃ rows, List.Forall₂ (fun v row => S.accept v = .ok row) values rows ∧
      (rows.map (·.1)).Nodup ∧ table' = putAll S.merge rows table := by
  rw [execute, run_eq_ok]
  simp

/-! ## What it leaves behind -/

theorem putAll_of_not_mem (h : k ∉ rows.map (·.1)) : putAll merge rows table k = table k := by
  induction rows generalizing table with
  | nil => rfl
  | cons row rows ih =>
      rw [List.map_cons, List.mem_cons, not_or] at h
      rw [putAll, List.foldl_cons, ← putAll, ih h.2, put, Function.update_of_ne h.1]

theorem putAll_of_mem (hnodup : (rows.map (·.1)).Nodup) (h : (k, r) ∈ rows) :
    putAll merge rows table k = some ((table k).elim r (merge · r)) := by
  induction rows generalizing table with
  | nil => cases h
  | cons row rows ih =>
      rw [List.map_cons, List.nodup_cons] at hnodup
      rw [putAll, List.foldl_cons, ← putAll]
      rcases List.mem_cons.mp h with rfl | h
      · rw [putAll_of_not_mem hnodup.1, put, Function.update_self]
      · have hne : k ≠ row.1 := by
          rintro rfl
          exact hnodup.1 (List.mem_map.mpr ⟨_, h, rfl⟩)
        rw [ih hnodup.2 h, put, Function.update_of_ne hne]

/-- Where a merged row is the new one, the same rows put in again change nothing. -/
theorem putAll_again (hmerge : ∀ old new, merge old new = new)
    (hnodup : (rows.map (·.1)).Nodup) :
    putAll merge rows (putAll merge rows table) = putAll merge rows table := by
  funext k
  by_cases hk : k ∈ rows.map (·.1)
  · obtain ⟨⟨k, r⟩, hrow, rfl⟩ := List.mem_map.mp hk
    rw [putAll_of_mem hnodup hrow, putAll_of_mem hnodup hrow, Option.elim_some, hmerge]
    cases table k with
    | none => rfl
    | some old => rw [Option.elim_some, hmerge]
  · rw [putAll_of_not_mem hk]

end Upsert
