import FietsOfOv.Lib.CacheAside

/-!
# Two cache-aside clients on one store

The requests of both clients interleave, and each client writes under keys of its
own.  Seen from one of them, a run is a run of that client alone, in which the
other one's writes are those of some other program.
-/

namespace CacheAside

open ExpiringStore

variable {ι ι' κ ν φ φ' υ υ' β β' : Type}

structure Pair (ι κ ν φ υ β ι' φ' υ' β' : Type) where
  clock : Int
  store : Store κ ν
  left : List (Request ι ν φ υ β)
  right : List (Request ι' ν φ' υ' β')

def Pair.initial : Pair ι κ ν φ υ β ι' φ' υ' β' := ⟨0, ExpiringStore.empty, [], []⟩

/-- The part of the state that the first client sees. -/
def Pair.first (s : Pair ι κ ν φ υ β ι' φ' υ' β') : System ι κ ν φ υ β :=
  ⟨s.clock, s.store, s.left⟩

def Pair.swap (s : Pair ι κ ν φ υ β ι' φ' υ' β') : Pair ι' κ ν φ' υ' β' ι φ υ β :=
  ⟨s.clock, s.store, s.right, s.left⟩

section Machine

variable [DecidableEq κ] (client : Client ι κ ν φ υ β) (client' : Client ι' κ ν φ' υ' β')

/-- A step of either client; time and other programs may come under either. -/
def Pair.step (s : Pair ι κ ν φ υ β ι' φ' υ' β') :
    Event ι κ ν υ ⊕ Event ι' κ ν υ' → Option (Pair ι κ ν φ υ β ι' φ' υ' β')
  | .inl e => (s.first.step client e).map fun t => ⟨t.clock, t.store, t.requests, s.right⟩
  | .inr e => (s.swap.first.step client' e).map fun t => ⟨t.clock, t.store, s.left, t.requests⟩

end Machine

/-- Other programs keep to keys of their own, and the store hands each client back entries or
    something it cannot use. -/
def PairAllowed (client : Client ι κ ν φ υ β) (client' : Client ι' κ ν φ' υ' β')
    (unusable unusable' : ν → Prop) : Event ι κ ν υ ⊕ Event ι' κ ν υ' → Prop
  | .inl e => e.Allowed client unusable ∧ ∀ key entry, e = .foreign key entry →
      ∀ y, client'.key y ≠ key
  | .inr e => e.Allowed client' unusable' ∧ ∀ key entry, e = .foreign key entry →
      ∀ x, client.key x ≠ key

variable {client : Client ι κ ν φ υ β} {client' : Client ι' κ ν φ' υ' β'}
  {unusable unusable' : ν → Prop}

theorem pairAllowed_swap {e : Event ι κ ν υ ⊕ Event ι' κ ν υ'}
    (h : PairAllowed client client' unusable unusable' e) :
    PairAllowed client' client unusable' unusable e.swap := by
  cases e with
  | inl e => exact h
  | inr e => exact h

variable [DecidableEq κ] {s s' : Pair ι κ ν φ υ β ι' φ' υ' β'}

theorem step_swap {e : Event ι κ ν υ ⊕ Event ι' κ ν υ'}
    (h : s.step client client' e = some s') :
    s.swap.step client' client e.swap = some s'.swap := by
  cases e with
  | inl e =>
      obtain ⟨t, ht, rfl⟩ := Option.map_eq_some_iff.mp h
      exact Option.map_eq_some_iff.mpr ⟨t, ht, rfl⟩
  | inr e =>
      obtain ⟨t, ht, rfl⟩ := Option.map_eq_some_iff.mp h
      exact Option.map_eq_some_iff.mpr ⟨t, ht, rfl⟩

/-- A step of a request writes under its own key only. -/
theorem stored_eq_update (clock : Int) (store : Store κ ν) (r : Request ι ν φ υ β)
    (act : Act ν υ) :
    r.stored client clock store act = Function.update store (client.key r.subject)
      (r.stored client clock store act (client.key r.subject)) := by
  cases act with
  | write outcome =>
      cases hwritten : r.written client with
      | none => simp [Request.stored, hwritten]
      | some value =>
          cases outcome with
          | keeps => simp [Request.stored, hwritten, write]
          | loses => simp [Request.stored, hwritten, write]
  | _ => simp [Request.stored]

/-- What the other client does is nothing to the first one, or something that time or another
    program may do as well. -/
theorem first_of_other (hkeys : ∀ x y, client.key x ≠ client'.key y) {e : Event ι' κ ν υ'}
    (hallowed : PairAllowed client client' unusable unusable' (.inr e : Event ι κ ν υ ⊕ _))
    (h : s.step client client' (.inr e : Event ι κ ν υ ⊕ _) = some s') :
    s'.first = s.first ∨ ∃ e' : Event ι κ ν υ, e'.Allowed client unusable ∧
      s.first.step client e' = some s'.first := by
  obtain ⟨t, ht, rfl⟩ := Option.map_eq_some_iff.mp h
  cases e with
  | elapse duration =>
      cases ht
      exact Or.inr ⟨.elapse duration, trivial, rfl⟩
  | call y =>
      cases ht
      exact Or.inl rfl
  | foreign key entry =>
      cases ht
      exact Or.inr ⟨.foreign key entry, hallowed.2 key entry rfl, rfl⟩
  | act i act =>
      obtain ⟨r, _, _, _, rfl⟩ := step_act.mp ht
      have hkey : ∀ x, client.key x ≠ client'.key r.subject := fun x => hkeys x r.subject
      refine Or.inr ⟨.foreign (client'.key r.subject)
        (r.stored client' s.clock s.store act (client'.key r.subject)), hkey, ?_⟩
      exact congrArg (fun store => some (System.mk s.clock store s.left))
        (stored_eq_update s.clock s.store r act).symm

/-- Each step keeps what is sound for the first client. -/
theorem first_sound_step (hkeys : ∀ x y, client.key x ≠ client'.key y)
    {e : Event ι κ ν υ ⊕ Event ι' κ ν υ'}
    (hallowed : PairAllowed client client' unusable unusable' e)
    (hs : s.first.Sound client unusable) (h : s.step client client' e = some s') :
    s'.first.Sound client unusable := by
  cases e with
  | inl e =>
      obtain ⟨t, ht, rfl⟩ := Option.map_eq_some_iff.mp h
      exact hs.step hallowed.1 ht
  | inr e =>
      rcases first_of_other hkeys hallowed h with hsame | ⟨e', he', hstep⟩
      · rw [hsame]
        exact hs
      · exact hs.step he' hstep

/-- **Two clients on one store are sound side by side.** -/
theorem pair_sound_run (hkeys : ∀ x y, client.key x ≠ client'.key y)
    {es : List (Event ι κ ν υ ⊕ Event ι' κ ν υ')}
    (hallowed : ∀ e ∈ es, PairAllowed client client' unusable unusable' e)
    (hexec : Run.exec (Pair.step client client') .initial es = some s) :
    s.first.Sound client unusable ∧ s.swap.first.Sound client' unusable' := by
  apply Run.exec_invariant (P := fun s : Pair ι κ ν φ υ β ι' φ' υ' β' =>
    s.first.Sound client unusable ∧ s.swap.first.Sound client' unusable') _
    ⟨System.initial_sound unusable, System.initial_sound unusable'⟩
    (Run.meets_of_forall hallowed _) hexec
  intro s e s' hs hok hstep
  constructor
  · exact first_sound_step hkeys hok hs.1 hstep
  · exact first_sound_step (fun y x => (hkeys x y).symm) (pairAllowed_swap hok) hs.2
      (step_swap hstep)

end CacheAside
