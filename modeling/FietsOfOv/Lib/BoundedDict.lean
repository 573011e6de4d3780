import FietsOfOv.Lib.Dict
import Mathlib.Data.List.DropRight

/-!
# A dictionary that forgets its oldest entries

An insertion-ordered dictionary with a capacity: an assignment that makes it too long drops
the first entry.  What such a dictionary holds is a function of the assignments so far: a key
enters when it is not among the keys that entered last, the last keys to enter are the ones
held, and each of them has the value it was assigned last.
-/

namespace BoundedDict

variable {κ ν : Type}

theorem length_rtake_le (n : Nat) (ks : List κ) : (ks.rtake n).length ≤ n := by
  rw [List.rtake, List.length_drop]
  omega

/-- Eviction keeps the last keys. -/
theorem tail_rtake_concat {ks : List κ} (hfull : capacity ≤ ks.length) (k : κ) :
    (ks.rtake capacity ++ [k]).tail = (ks ++ [k]).rtake capacity := by
  have hpast : ks.length - capacity ≤ ks.length := Nat.sub_le _ _
  rw [List.rtake, List.rtake, ← List.drop_append_of_le_length hpast, List.tail_drop,
    List.length_append, List.length_singleton]
  congr 1
  omega

variable [DecidableEq κ]

/-- An assignment, and the eviction it may cause. -/
def put (capacity : Nat) (d : List (κ × ν)) (k : κ) (v : ν) : List (κ × ν) :=
  if capacity < (Dict.set d k v).length then (Dict.set d k v).tail else Dict.set d k v

/-- The dictionary after a sequence of assignments. -/
def replay (capacity : Nat) (history : List (κ × ν)) : List (κ × ν) :=
  history.foldl (fun d p => put capacity d p.1 p.2) []

/-! ## What it remembers -/

/-- One more assigned key, after those that have entered. -/
def enter (capacity : Nat) (entered : List κ) (k : κ) : List κ :=
  if k ∈ entered.rtake capacity then entered else entered ++ [k]

/-- The keys in the order they entered; an evicted key can enter again. -/
def entered (capacity : Nat) (ks : List κ) : List κ := ks.foldl (enter capacity) []

/-- The keys that have not been evicted. -/
def held (capacity : Nat) (history : List (κ × ν)) : List κ :=
  (entered capacity (history.map (·.1))).rtake capacity

/-- The last value assigned to a key. -/
def lastValue (history : List (κ × ν)) (k : κ) : Option ν := Dict.get history.reverse k

/-- What a look-up finds after a sequence of assignments. -/
def recalled (capacity : Nat) (history : List (κ × ν)) (k : κ) : Option ν :=
  if k ∈ held capacity history then lastValue history k else none

variable {capacity : Nat} {d history : List (κ × ν)} {k k' : κ} {v : ν}

theorem replay_concat (history : List (κ × ν)) (p : κ × ν) :
    replay capacity (history ++ [p]) = put capacity (replay capacity history) p.1 p.2 := by
  rw [replay, List.foldl_append]
  rfl

theorem entered_concat (ks : List κ) (k : κ) :
    entered capacity (ks ++ [k]) = enter capacity (entered capacity ks) k := by
  rw [entered, List.foldl_append]
  rfl

theorem keys_set (d : List (κ × ν)) (k : κ) (v : ν) :
    (Dict.set d k v).map (·.1) =
      if k ∈ d.map (·.1) then d.map (·.1) else d.map (·.1) ++ [k] := by
  induction d with
  | nil => rfl
  | cons p d ih =>
      obtain ⟨k₀, v₀⟩ := p
      by_cases hk : k₀ = k
      · subst hk
        simp [Dict.set]
      · rw [Dict.set, if_neg hk, List.map_cons, List.map_cons, ih]
        by_cases hmem : k ∈ d.map (·.1)
        · rw [if_pos hmem, if_pos (List.mem_cons_of_mem _ hmem)]
        · have hout : k ∉ k₀ :: d.map (·.1) := by
            intro h
            rcases List.mem_cons.mp h with heq | h
            · exact hk heq.symm
            · exact hmem h
          rw [if_neg hmem, if_neg hout]
          rfl

/-- The keys of a dictionary that holds the last keys to enter, after one more assignment. -/
theorem keys_put {ks : List κ} (hkeys : d.map (·.1) = ks.rtake capacity) (k : κ) (v : ν) :
    (put capacity d k v).map (·.1) = (enter capacity ks k).rtake capacity := by
  have hset := keys_set d k v
  have hlength := congrArg List.length hset
  have hroom := length_rtake_le capacity ks
  rw [List.length_map] at hlength
  rw [hkeys] at hset hlength
  by_cases hmem : k ∈ ks.rtake capacity
  · rw [if_pos hmem] at hset hlength
    rw [put, if_neg (by omega), hset, enter, if_pos hmem]
  · rw [if_neg hmem] at hset hlength
    rw [List.length_append, List.length_singleton] at hlength
    rw [enter, if_neg hmem]
    by_cases hfull : capacity ≤ ks.length
    · have hlong : capacity < (Dict.set d k v).length := by
        rw [hlength, List.rtake, List.length_drop]
        omega
      rw [put, if_pos hlong, List.map_tail, hset, tail_rtake_concat hfull]
    · have hall : ks.rtake capacity = ks := by
        rw [List.rtake, Nat.sub_eq_zero_of_le (by omega), List.drop_zero]
      have hshort : ¬ capacity < (Dict.set d k v).length := by
        rw [hlength, hall]
        omega
      rw [put, if_neg hshort, hset, hall, List.rtake,
        Nat.sub_eq_zero_of_le (by rw [List.length_append, List.length_singleton]; omega),
        List.drop_zero]

/-- The dictionary holds the keys that entered last. -/
theorem keys_replay (capacity : Nat) (history : List (κ × ν)) :
    (replay capacity history).map (·.1) = held capacity history := by
  induction history using List.reverseRecOn with
  | nil => simp [replay, held, entered]
  | append_singleton history p ih =>
      rw [replay_concat, keys_put ih, held, List.map_append, List.map_singleton, entered_concat]

theorem length_replay_le (capacity : Nat) (history : List (κ × ν)) :
    (replay capacity history).length ≤ capacity := by
  rw [← List.length_map, keys_replay]
  exact length_rtake_le _ _

theorem unique_put (h : Dict.Unique d) (k : κ) (v : ν) : Dict.Unique (put capacity d k v) := by
  rw [put]
  split
  · have hset := h.set k v
    rw [Dict.Unique, List.map_tail]
    exact hset.sublist (List.tail_sublist _)
  · exact h.set k v

theorem unique_replay (capacity : Nat) (history : List (κ × ν)) :
    Dict.Unique (replay capacity history) := by
  induction history using List.reverseRecOn with
  | nil => exact List.nodup_nil
  | append_singleton history p ih =>
      rw [replay_concat]
      exact unique_put ih _ _

/-- What an assignment leaves behind is what was there, with the new value under its key. -/
theorem get_of_mem_put {w : ν} (hunique : Dict.Unique d)
    (hmem : (k', w) ∈ put capacity d k v) :
    Dict.get (Dict.set d k v) k' = some w := by
  have hset : (k', w) ∈ Dict.set d k v := by
    rw [put] at hmem
    split at hmem
    · exact List.mem_of_mem_tail hmem
    · exact hmem
  exact (hunique.set k v).get_of_mem hset

theorem lastValue_concat (history : List (κ × ν)) (p : κ × ν) :
    lastValue (history ++ [p]) k = if p.1 = k then some p.2 else lastValue history k := by
  rw [lastValue, List.reverse_append, List.reverse_singleton, List.singleton_append, Dict.get]
  rfl

theorem lastValue_of_mem (hmem : (k, v) ∈ replay capacity history) :
    lastValue history k = some v := by
  induction history using List.reverseRecOn generalizing v with
  | nil => cases hmem
  | append_singleton history p ih =>
      rw [replay_concat] at hmem
      have hget := get_of_mem_put (unique_replay capacity history) hmem
      rw [Dict.get_set] at hget
      rw [lastValue_concat]
      by_cases hk : p.1 = k
      · rw [if_pos hk] at hget ⊢
        exact hget
      · rw [if_neg hk] at hget ⊢
        exact ih (Dict.mem_of_get hget)

/-- A look-up finds exactly what the history says. -/
theorem get_replay (capacity : Nat) (history : List (κ × ν)) (k : κ) :
    Dict.get (replay capacity history) k = recalled capacity history k := by
  by_cases hheld : k ∈ held capacity history
  · rw [recalled, if_pos hheld]
    rw [← keys_replay] at hheld
    obtain ⟨⟨k', v⟩, hmem, rfl⟩ := List.mem_map.mp hheld
    rw [(unique_replay capacity history).get_of_mem hmem, lastValue_of_mem hmem]
  · rw [recalled, if_neg hheld, Dict.get_eq_none, keys_replay]
    exact hheld

/-! ## What it has forgotten -/

theorem recalled_eq_none : recalled capacity history k = none ↔ k ∉ held capacity history := by
  rw [← get_replay, Dict.get_eq_none, keys_replay]

theorem mem_entered (ks : List κ) : k ∈ entered capacity ks ↔ k ∈ ks := by
  induction ks using List.reverseRecOn with
  | nil => rfl
  | append_singleton ks k₀ ih =>
      rw [entered_concat, enter]
      split
      · rename_i hmem
        rw [ih, List.mem_append, List.mem_singleton]
        refine ⟨Or.inl, ?_⟩
        rintro (h | rfl)
        · exact h
        · exact ih.mp (List.mem_of_mem_drop hmem)
      · rw [List.mem_append, List.mem_append, ih]

/-- A key that was assigned and is not held has been pushed out by as many other keys as
    there is room for. -/
theorem capacity_lt_of_forgotten (hassigned : k ∈ history.map (·.1))
    (hforgotten : k ∉ held capacity history) :
    capacity < (history.map (·.1)).dedup.length := by
  have hentered : k ∈ entered capacity (history.map (·.1)) := (mem_entered _).mpr hassigned
  have hfull : (held capacity history).length = capacity := by
    by_contra hne
    refine hforgotten ?_
    rw [held, List.rtake, List.length_drop] at hne
    rw [held, List.rtake, Nat.sub_eq_zero_of_le (by omega), List.drop_zero]
    exact hentered
  have hnodup : (k :: held capacity history).Nodup := by
    refine List.nodup_cons.mpr ⟨hforgotten, ?_⟩
    rw [← keys_replay]
    exact unique_replay capacity history
  have hsub : k :: held capacity history ⊆ (history.map (·.1)).dedup := by
    intro k' hk'
    rw [List.mem_dedup]
    rcases List.mem_cons.mp hk' with rfl | hk'
    · exact hassigned
    · exact (mem_entered _).mp (List.mem_of_mem_drop hk')
  have hlength := hnodup.length_le_of_subset hsub
  rw [List.length_cons, hfull] at hlength
  exact hlength

end BoundedDict
