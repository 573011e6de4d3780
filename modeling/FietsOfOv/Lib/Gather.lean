import Mathlib.Data.List.Basic
import Mathlib.Tactic.Common

/-!
# Calls made together

A list of calls is started at once and they complete in any order; when the last one
has, the results are read off in the order of the calls.
-/

namespace Gather

variable {α β : Type}

/-- The calls, none of which has completed. -/
def start (calls : List α) : List (α × Option β) := calls.map fun call => (call, none)

/-- The call at an index completes, if it has not before. -/
def complete (tasks : List (α × Option β)) (index : Nat) (result : β) :
    Option (List (α × Option β)) :=
  match tasks[index]? with
  | some (call, none) => some (tasks.set index (call, some result))
  | _ => none

/-- The calls with their results, once all have completed. -/
def finished : List (α × Option β) → Option (List (α × β))
  | [] => some []
  | (_, none) :: _ => none
  | (call, some result) :: tasks => (finished tasks).map ((call, result) :: ·)

/-- How many calls have not completed. -/
def pending (tasks : List (α × Option β)) : Nat := tasks.countP (·.2.isNone)

/-- Every result so far is the one a function gives for its call. -/
def Agrees (f : α → β) (tasks : List (α × Option β)) : Prop :=
  ∀ task ∈ tasks, ∀ result, task.2 = some result → result = f task.1

variable {tasks tasks' : List (α × Option β)} {index : Nat} {result : β} {f : α → β}

@[simp] theorem start_calls (calls : List α) :
    (start calls : List (α × Option β)).map (·.1) = calls := by
  simp [start, Function.comp_def]

theorem start_agrees (f : α → β) (calls : List α) : Agrees f (start calls) := by
  intro task htask result hresult
  obtain ⟨call, _, rfl⟩ := List.mem_map.mp htask
  cases hresult

@[simp] theorem pending_start (calls : List α) :
    pending (start calls : List (α × Option β)) = calls.length := by
  simp [pending, start, List.countP_map, Function.comp_def]

/-- A call that completes was pending, and only its own result is new. -/
theorem complete_cases (h : complete tasks index result = some tasks') :
    ∃ before call after, tasks = before ++ (call, none) :: after ∧ before.length = index ∧
      tasks' = before ++ (call, some result) :: after := by
  unfold complete at h
  split at h
  · rename_i call hget
    obtain ⟨hlt, hget⟩ := List.getElem?_eq_some_iff.mp hget
    refine ⟨tasks.take index, call, tasks.drop (index + 1), ?_, ?_, ?_⟩
    · rw [← hget, ← List.drop_eq_getElem_cons hlt, List.take_append_drop]
    · rw [List.length_take]
      omega
    · rw [← Option.some.inj h, List.set_eq_take_append_cons_drop, if_pos hlt]
  · cases h

theorem complete_calls (h : complete tasks index result = some tasks') :
    tasks'.map (·.1) = tasks.map (·.1) := by
  obtain ⟨before, call, after, rfl, _, rfl⟩ := complete_cases h
  simp

theorem complete_pending (h : complete tasks index result = some tasks') :
    pending tasks' + 1 = pending tasks := by
  obtain ⟨before, call, after, rfl, _, rfl⟩ := complete_cases h
  simp [pending, List.countP_append]
  omega

theorem complete_agrees (htasks : Agrees f tasks) (h : complete tasks index result = some tasks')
    (hresult : ∀ call, (tasks[index]?).map (·.1) = some call → result = f call) :
    Agrees f tasks' := by
  obtain ⟨before, call, after, rfl, hindex, rfl⟩ := complete_cases h
  have hcall : result = f call := by
    apply hresult
    subst hindex
    simp
  intro task htask found hfound
  rcases List.mem_append.mp htask with hbefore | htask
  · exact htasks task (List.mem_append_left _ hbefore) found hfound
  · rcases List.mem_cons.mp htask with rfl | hafter
    · rw [← hcall]
      exact (Option.some.inj hfound).symm
    · exact htasks task (List.mem_append_right _ (List.mem_cons_of_mem _ hafter)) found hfound

/-- While a call is pending, it can complete. -/
theorem exists_complete (h : pending tasks ≠ 0) (results : α → β) :
    ∃ index call tasks', (tasks[index]?).map (·.1) = some call ∧
      complete tasks index (results call) = some tasks' := by
  obtain ⟨task, htask, hnone⟩ := List.countP_pos_iff.mp (Nat.pos_of_ne_zero h)
  obtain ⟨index, hlt, hget⟩ := List.mem_iff_getElem.mp htask
  have hget' : tasks[index]? = some (task.1, none) := by
    rw [List.getElem?_eq_getElem hlt, hget, ← Option.isNone_iff_eq_none.mp hnone]
  refine ⟨index, task.1, tasks.set index (task.1, some (results task.1)), ?_, ?_⟩
  · rw [hget']
    rfl
  · simp [complete, hget']

theorem finished_eq_none_iff : finished tasks = none ↔ pending tasks ≠ 0 := by
  induction tasks with
  | nil => simp [finished, pending]
  | cons task tasks ih =>
      obtain ⟨call, result⟩ := task
      cases result with
      | none => simp [finished, pending]
      | some result => simpa [finished, pending] using ih

/-- **The results come in the order of the calls**, whatever order they completed in. -/
theorem finished_eq_map (htasks : Agrees f tasks) {results : List (α × β)}
    (h : finished tasks = some results) :
    results = (tasks.map (·.1)).map fun call => (call, f call) := by
  induction tasks generalizing results with
  | nil =>
      cases h
      rfl
  | cons task tasks ih =>
      obtain ⟨call, result⟩ := task
      cases result with
      | none => cases h
      | some result =>
          obtain ⟨rest, hrest, rfl⟩ := Option.map_eq_some_iff.mp h
          have hfirst := htasks (call, some result) List.mem_cons_self result rfl
          rw [ih (fun t ht => htasks t (List.mem_cons_of_mem _ ht)) hrest, hfirst]
          rfl

end Gather
