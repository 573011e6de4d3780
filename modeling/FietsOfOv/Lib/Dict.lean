import Mathlib.Data.List.Dedup
import Mathlib.Data.List.Induction

/-!
# Insertion-ordered dictionaries

Python's `dict`: assigning to a key that is present replaces its value in
place, a new key goes to the end, and iteration follows insertion order.
-/

namespace Dict

variable {κ ν : Type} [DecidableEq κ]

def get (d : List (κ × ν)) (k : κ) : Option ν :=
  match d with
  | [] => none
  | (k', v) :: d => if k' = k then some v else get d k

def set (d : List (κ × ν)) (k : κ) (v : ν) : List (κ × ν) :=
  match d with
  | [] => [(k, v)]
  | (k', v') :: d => if k' = k then (k, v) :: d else (k', v') :: set d k v

@[simp] theorem get_nil (k : κ) : get ([] : List (κ × ν)) k = none := rfl

theorem get_set (d : List (κ × ν)) (k k' : κ) (v : ν) :
    get (set d k v) k' = if k = k' then some v else get d k' := by
  induction d with
  | nil => simp [get, set]
  | cons p d ih =>
      obtain ⟨k₀, v₀⟩ := p
      by_cases hk : k₀ = k
      · subst hk
        by_cases hk' : k₀ = k' <;> simp [get, set, hk']
      · by_cases hk' : k₀ = k'
        · subst hk'
          simp [get, set, hk, Ne.symm hk]
        · simp [get, set, hk, hk', ih]

theorem mem_of_get {d : List (κ × ν)} {k : κ} {v : ν} (h : get d k = some v) : (k, v) ∈ d := by
  induction d with
  | nil => simp at h
  | cons p d ih =>
      obtain ⟨k₀, v₀⟩ := p
      by_cases hk : k₀ = k
      · simp only [get, hk, if_true, Option.some.injEq] at h
        simp [hk, h]
      · simp only [get, hk, if_false] at h
        exact List.mem_cons_of_mem _ (ih h)

theorem mem_set {d : List (κ × ν)} {k : κ} {v : ν} {p : κ × ν} (h : p ∈ set d k v) :
    p = (k, v) ∨ p ∈ d := by
  induction d with
  | nil => simpa [set] using h
  | cons q d ih =>
      obtain ⟨k₀, v₀⟩ := q
      by_cases hk : k₀ = k
      · simp only [set, hk, if_true, List.mem_cons] at h
        exact h.imp_right fun h => List.mem_cons_of_mem _ h
      · simp only [set, hk, if_false, List.mem_cons] at h
        rcases h with rfl | h
        · exact Or.inr (by simp)
        · exact (ih h).imp_right fun h => List.mem_cons_of_mem _ h

/-! ## Keys stay unique -/

/-- No key occurs twice. -/
def Unique (d : List (κ × ν)) : Prop := (d.map (·.1)).Nodup

theorem Unique.set {d : List (κ × ν)} (h : Unique d) (k : κ) (v : ν) : Unique (set d k v) := by
  induction d with
  | nil => exact List.nodup_singleton k
  | cons p d ih =>
      obtain ⟨k₀, v₀⟩ := p
      obtain ⟨hnew, hrest⟩ := List.nodup_cons.mp h
      by_cases hk : k₀ = k
      · rw [Dict.set, if_pos hk]
        exact List.nodup_cons.mpr ⟨hk ▸ hnew, hrest⟩
      · rw [Dict.set, if_neg hk]
        refine List.nodup_cons.mpr ⟨fun hmem => ?_, ih hrest⟩
        obtain ⟨q, hq, heq⟩ := List.mem_map.mp hmem
        rcases mem_set hq with rfl | hq
        · exact hk heq.symm
        · exact hnew (List.mem_map.mpr ⟨q, hq, heq⟩)

theorem Unique.get_of_mem {d : List (κ × ν)} (h : Unique d) {k : κ} {v : ν} (hmem : (k, v) ∈ d) :
    get d k = some v := by
  induction d with
  | nil => cases hmem
  | cons p d ih =>
      obtain ⟨hnew, hrest⟩ := List.nodup_cons.mp h
      rcases List.mem_cons.mp hmem with rfl | hmem
      · rw [get, if_pos rfl]
      · have hne : p.1 ≠ k := fun heq => hnew (List.mem_map.mpr ⟨(k, v), hmem, heq.symm⟩)
        rw [get, if_neg hne]
        exact ih hrest hmem

theorem get_eq_none {d : List (κ × ν)} {k : κ} : get d k = none ↔ k ∉ d.map (·.1) := by
  induction d with
  | nil => simp
  | cons p d ih => by_cases hk : p.1 = k <;> simp [get, hk, ih, Ne.symm]

/-! ## A comprehension -/

/-- `{key(v): v for v in vs}`. -/
def collect (key : ν → κ) (vs : List ν) : List (κ × ν) :=
  vs.foldl (fun d v => set d (key v) v) []

variable {key : ν → κ} {vs : List ν} {k : κ} {v : ν}

theorem collect_concat (vs : List ν) (v : ν) :
    collect key (vs ++ [v]) = set (collect key vs) (key v) v := by
  rw [collect, List.foldl_append]
  rfl

theorem unique_collect (key : ν → κ) (vs : List ν) : Unique (collect key vs) := by
  induction vs using List.reverseRecOn with
  | nil => exact List.nodup_nil
  | append_singleton vs v ih =>
      rw [collect_concat]
      exact ih.set _ _

/-- Of the values with one key the last is kept. -/
theorem get_collect : get (collect key vs) k = vs.reverse.find? (key · = k) := by
  induction vs using List.reverseRecOn with
  | nil => rfl
  | append_singleton vs v ih =>
      rw [collect_concat, get_set, List.reverse_append, List.reverse_singleton,
        List.singleton_append]
      by_cases hk : key v = k
      · rw [if_pos hk, List.find?_cons_of_pos (by simpa using hk)]
      · rw [if_neg hk, List.find?_cons_of_neg (by simpa using hk), ih]

theorem mem_collect : (k, v) ∈ collect key vs ↔ vs.reverse.find? (key · = k) = some v := by
  rw [← get_collect]
  exact ⟨(unique_collect key vs).get_of_mem, mem_of_get⟩

/-- There is one entry for every key. -/
theorem length_collect (key : ν → κ) (vs : List ν) :
    (collect key vs).length = (vs.map key).dedup.length := by
  have hkeys : ((collect key vs).map (·.1)).Perm (vs.map key).dedup := by
    rw [List.perm_ext_iff_of_nodup (unique_collect key vs) (List.nodup_dedup _)]
    intro k
    rw [List.mem_dedup, ← not_iff_not, ← get_eq_none, get_collect, List.find?_eq_none]
    simp
  rw [← hkeys.length_eq, List.length_map]

end Dict
