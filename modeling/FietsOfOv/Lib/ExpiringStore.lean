import Mathlib.Logic.Function.Basic
import Mathlib.Tactic.Common

/-!
# A key-value store whose entries expire

Every write names a time to live; a read sees the last value written under the
key until that time has passed.  A client may meet an outage at each access: a
read can fail, miss, or hand back something else, and a write can fail with or
without having taken effect.
-/

namespace ExpiringStore

structure Entry (ν : Type) where
  value : ν
  expires : Int

abbrev Store (κ ν : Type) := κ → Option (Entry ν)

variable {κ ν : Type}

def empty : Store κ ν := fun _ => none

/-- What the backend does on a read. -/
inductive ReadOutcome (ν : Type) where
  | answers
  | fails
  | misses
  | garbles (value : ν)

/-- What the backend does on a write.  A write that raises may have taken effect
    or not, so a client that swallows the error cannot tell these two apart. -/
inductive WriteOutcome where
  | keeps
  | loses

def get (s : Store κ ν) (now : Int) (k : κ) : Option ν :=
  match s k with
  | some entry => if now < entry.expires then some entry.value else none
  | none => none

/-- A read as the client sees it. -/
def read (s : Store κ ν) (now : Int) (k : κ) : ReadOutcome ν → Except Unit (Option ν)
  | .answers => .ok (get s now k)
  | .fails => .error ()
  | .misses => .ok none
  | .garbles value => .ok (some value)

def write [DecidableEq κ] (s : Store κ ν) (now ttl : Int) (k : κ) (value : ν)
    (outcome : WriteOutcome) : Store κ ν :=
  match outcome with
  | .keeps => Function.update s k (some ⟨value, now + ttl⟩)
  | .loses => s

theorem get_eq_some {s : Store κ ν} {now : Int} {k : κ} {v : ν} :
    get s now k = some v ↔ ∃ entry, s k = some entry ∧ now < entry.expires ∧ entry.value = v := by
  unfold get
  cases hk : s k with
  | none => simp
  | some entry =>
      by_cases hlive : now < entry.expires <;> simp [hlive]

/-- Every entry after a write was there before, or is the one written. -/
theorem write_cases [DecidableEq κ] {s : Store κ ν} {now ttl : Int} {k k' : κ} {value : ν}
    {outcome : WriteOutcome} {entry : Entry ν}
    (h : write s now ttl k value outcome k' = some entry) :
    s k' = some entry ∨ k' = k ∧ entry = ⟨value, now + ttl⟩ := by
  cases outcome with
  | keeps =>
      simp only [write] at h
      by_cases hk : k' = k
      · subst hk
        rw [Function.update_self] at h
        exact Or.inr ⟨rfl, (Option.some.inj h).symm⟩
      · rw [Function.update_of_ne hk] at h
        exact Or.inl h
  | loses => exact Or.inl h

end ExpiringStore
