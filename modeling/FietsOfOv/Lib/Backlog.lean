import Mathlib.Data.List.Sort
import Mathlib.Data.List.Dedup

/-!
# A backlog served oldest first

Items wait until they are settled, and stay settled.  A round serves a batch: it settles
items that were not settled before, up to a limit, the older ones first.  Between rounds
anything may happen.  An item with fewer than `limit * m` items as old as itself is settled
after `m` rounds, whatever arrives in the meantime.
-/

namespace Backlog

variable {σ ι : Type*}

/-- A number of rounds, with anything that `reach` allows before, between and after them. -/
inductive Rounds (reach round : σ → σ → Prop) : Nat → σ → σ → Prop
  | rest {s t : σ} (hrest : reach s t) : Rounds reach round 0 s t
  | next {m : Nat} {s u v t : σ} (hrest : reach s u) (hround : round u v)
      (hrounds : Rounds reach round m v t) : Rounds reach round (m + 1) s t

/-- What a round has to do for the item `x`: settle it, or else a whole batch of older items. -/
structure Fair (reach round : σ → σ → Prop) (ok : σ → Prop) (settled older : σ → ι → Prop)
    (limit : Nat) (x : ι) : Prop where
  keeps {s t : σ} (h : reach s t ∨ round s t) (hok : ok s) :
    ok t ∧ ∀ i, (settled s i → settled t i) ∧ (older s i → older t i)
  serves {s t : σ} (h : round s t) (hok : ok s) :
    settled t x ∨ ∃ batch : List ι, batch.Nodup ∧ batch.length = limit ∧
      ∀ i ∈ batch, ¬ settled s i ∧ settled t i ∧ older t i

variable {reach round : σ → σ → Prop} {ok : σ → Prop} {settled older : σ → ι → Prop}
  {limit m : Nat} {x : ι} {s t : σ}

theorem Fair.keeps_rounds (h : Fair reach round ok settled older limit x)
    (hrounds : Rounds reach round m s t) (hok : ok s) :
    ok t ∧ ∀ i, (settled s i → settled t i) ∧ (older s i → older t i) := by
  induction hrounds with
  | rest hrest => exact h.keeps (Or.inl hrest) hok
  | next hrest hround _ ih =>
      obtain ⟨hu, hkeep⟩ := h.keeps (Or.inl hrest) hok
      obtain ⟨hv, hkeep'⟩ := h.keeps (Or.inr hround) hu
      obtain ⟨ht, hkeep''⟩ := ih hv
      refine ⟨ht, fun i => ⟨fun hi => ?_, fun hi => ?_⟩⟩
      · exact (hkeep'' i).1 ((hkeep' i).1 ((hkeep i).1 hi))
      · exact (hkeep'' i).2 ((hkeep' i).2 ((hkeep i).2 hi))

/-- As long as the item is not settled, every round settles a batch of older ones. -/
theorem Fair.served (h : Fair reach round ok settled older limit x)
    (hrounds : Rounds reach round m s t) (hok : ok s) (hx : ¬ settled t x) :
    ∃ served : List ι, served.Nodup ∧ served.length = limit * m ∧
      ∀ i ∈ served, ¬ settled s i ∧ settled t i ∧ older t i := by
  induction hrounds with
  | rest hrest => exact ⟨[], List.nodup_nil, rfl, by simp⟩
  | @next m s u v t hrest hround hrounds ih =>
      obtain ⟨hu, hkeep⟩ := h.keeps (Or.inl hrest) hok
      obtain ⟨hv, hkeep'⟩ := h.keeps (Or.inr hround) hu
      obtain ⟨_, hkeep''⟩ := h.keeps_rounds hrounds hv
      obtain ⟨served, hnodup, hlength, hserved⟩ := ih hv hx
      rcases h.serves hround hu with hsettled | ⟨batch, hbatch_nodup, hbatch_length, hbatch⟩
      · exact absurd ((hkeep'' x).1 hsettled) hx
      · refine ⟨batch ++ served, ?_, ?_, ?_⟩
        · refine List.nodup_append.mpr ⟨hbatch_nodup, hnodup, ?_⟩
          rintro i hi _ hi' rfl
          -- an item of the batch is settled before the later rounds begin
          exact (hserved i hi').1 (hbatch i hi).2.1
        · rw [List.length_append, hbatch_length, hlength, Nat.mul_succ, Nat.add_comm]
        · intro i hi
          rcases List.mem_append.mp hi with hi | hi
          · obtain ⟨hbefore, hafter, hold⟩ := hbatch i hi
            exact ⟨fun hs => hbefore ((hkeep i).1 hs), (hkeep'' i).1 hafter, (hkeep'' i).2 hold⟩
          · obtain ⟨hbefore, hafter, hold⟩ := hserved i hi
            exact ⟨fun hs => hbefore ((hkeep' i).1 ((hkeep i).1 hs)), hafter, hold⟩

/-- Once there have been rounds enough for all the items as old as it, an item is settled. -/
theorem Fair.settled_of_le (h : Fair reach round ok settled older limit x)
    (hrounds : Rounds reach round m s t) (hok : ok s) (hx : older s x) {all : List ι}
    (hall : ∀ i, older t i → i ∈ all) (hle : all.length ≤ limit * m) : settled t x := by
  by_contra hunsettled
  obtain ⟨served, hnodup, hlength, hserved⟩ := h.served hrounds hok hunsettled
  have hout : x ∉ served := fun hmem => hunsettled (hserved x hmem).2.1
  have hsub : x :: served ⊆ all := by
    intro i hi
    rcases List.mem_cons.mp hi with rfl | hi
    · exact hall _ (((h.keeps_rounds hrounds hok).2 _).2 hx)
    · exact hall _ (hserved i hi).2.2
  have hcount := (List.nodup_cons.mpr ⟨hout, hnodup⟩).length_le_of_subset hsub
  rw [List.length_cons] at hcount
  omega

/-- What is left out of the first `k` items of a sorted list comes after all of them. -/
theorem mem_take_insertionSort {r : ι → ι → Prop} [DecidableRel r] [Std.Total r] [IsTrans ι r]
    {items : List ι} {k : Nat} (hx : x ∈ items) (hout : x ∉ (items.insertionSort r).take k) :
    ((items.insertionSort r).take k).length = k ∧
      ∀ y ∈ (items.insertionSort r).take k, r y x := by
  have hsorted := List.pairwise_insertionSort r items
  have hmem : x ∈ items.insertionSort r := (List.perm_insertionSort r items).mem_iff.mpr hx
  rw [← List.take_append_drop k (items.insertionSort r)] at hmem hsorted
  have hdrop : x ∈ (items.insertionSort r).drop k := (List.mem_append.mp hmem).resolve_left hout
  have hpos := List.length_pos_of_mem hdrop
  rw [List.length_drop] at hpos
  refine ⟨by rw [List.length_take]; omega, ?_⟩
  intro y hy
  exact (List.pairwise_append.mp hsorted).2.2 y hy x hdrop

end Backlog
