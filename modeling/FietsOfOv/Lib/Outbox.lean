import Mathlib.Logic.Relation
import Mathlib.Tactic.Common

/-!
# The life of one row of a transactional outbox

An outbox records a message in a committed row first and hands it to a channel
afterwards; only a successful hand-over stamps the row, and unstamped rows are
picked up again later.  `Life` counts what happened to a single row: how many
workers are about to send it (`waiting`) or have sent it without having stamped
it yet (`sent`), and how many successful sends, stamps and failed stamps there
were.  Nothing is assumed about the order in which different workers move.

A *careful* outbox only picks a row up while nobody else works on it.
-/

namespace Outbox

@[ext] structure Life where
  recorded : Bool
  stored : Bool
  delivered : Bool
  waiting : Nat
  sent : Nat
  sends : Nat
  stamps : Nat
  failed : Nat
deriving DecidableEq, Repr

/-- A row number that nothing has happened to yet. -/
def Life.unborn : Life := ⟨false, false, false, 0, 0, 0, 0, 0⟩

inductive Step (careful : Prop) : Life → Life → Prop
  /-- The row is committed, and the worker that recorded it will send it. -/
  | record : Step careful .unborn ⟨true, true, false, 1, 0, 0, 0, 0⟩
  /-- A worker selects the unstamped row for another attempt. -/
  | pick {w s n k f : Nat} (hfree : careful → w = 0 ∧ s = 0) :
      Step careful ⟨true, true, false, w, s, n, k, f⟩ ⟨true, true, false, w + 1, s, n, k, f⟩
  /-- An attempt ends without a successful send. -/
  | giveUp {b r d : Bool} {w s n k f : Nat} :
      Step careful ⟨b, r, d, w + 1, s, n, k, f⟩ ⟨b, r, d, w, s, n, k, f⟩
  | send {b r d : Bool} {w s n k f : Nat} :
      Step careful ⟨b, r, d, w + 1, s, n, k, f⟩ ⟨b, r, d, w, s + 1, n + 1, k, f⟩
  | stamp {b r d : Bool} {w s n k f : Nat} :
      Step careful ⟨b, r, d, w, s + 1, n, k, f⟩ ⟨b, r, r, w, s, n, k + 1, f⟩
  | stampFails {b r d : Bool} {w s n k f : Nat} :
      Step careful ⟨b, r, d, w, s + 1, n, k, f⟩ ⟨b, r, d, w, s, n, k, f + 1⟩
  | delete {b r d : Bool} {w s n k f : Nat} :
      Step careful ⟨b, r, d, w, s, n, k, f⟩ ⟨b, false, false, w, s, n, k, f⟩

/-- What holds in every life, however many workers race for the row. -/
structure Life.Sound (l : Life) : Prop where
  unrecorded : l.recorded = false → l = .unborn
  /-- Every successful send is stamped, failed to be stamped, or about to be stamped. -/
  accounted : l.sends = l.stamps + l.failed + l.sent
  delivered_stamped : l.delivered = true → l.stored = true ∧ 0 < l.stamps

/-- What a careful outbox keeps on top of that. -/
structure Life.Single (l : Life) : Prop where
  one_worker : l.waiting + l.sent + l.stamps ≤ 1
  stamped_delivered : l.stored = true → 0 < l.stamps → l.delivered = true

theorem Life.unborn_sound : Life.unborn.Sound :=
  ⟨fun _ => rfl, rfl, by simp [Life.unborn]⟩

theorem Life.unborn_single : Life.unborn.Single := ⟨by simp [Life.unborn], by simp [Life.unborn]⟩

theorem Step.sound {careful : Prop} {l l' : Life} (h : Step careful l l') (hl : l.Sound) :
    l'.Sound := by
  obtain ⟨hunborn, haccounted, hdelivered⟩ := hl
  cases h with
  | record => exact ⟨by simp, rfl, by simp⟩
  | pick hfree => exact ⟨by simp, haccounted, by simp⟩
  | giveUp =>
      refine ⟨fun hb => ?_, haccounted, hdelivered⟩
      have := congrArg Life.waiting (hunborn hb)
      simp [Life.unborn] at this
  | send =>
      refine ⟨fun hb => ?_, by simp only at haccounted ⊢; omega, hdelivered⟩
      have := congrArg Life.waiting (hunborn hb)
      simp [Life.unborn] at this
  | stamp =>
      refine ⟨fun hb => ?_, by simp only at haccounted ⊢; omega, fun h => ⟨h, Nat.succ_pos _⟩⟩
      have := congrArg Life.sent (hunborn hb)
      simp [Life.unborn] at this
  | stampFails =>
      refine ⟨fun hb => ?_, by simp only at haccounted ⊢; omega, hdelivered⟩
      have := congrArg Life.sent (hunborn hb)
      simp [Life.unborn] at this
  | delete =>
      refine ⟨fun hb => ?_, haccounted, by simp⟩
      have heq := hunborn hb
      simp only [Life.unborn, Life.mk.injEq] at heq ⊢
      tauto

theorem Step.single {l l' : Life} (h : Step True l l') (hl : l.Single) : l'.Single := by
  obtain ⟨hone, hstamped⟩ := hl
  cases h with
  | record => exact ⟨by simp, by simp⟩
  | @pick w s n k f hfree =>
      obtain ⟨rfl, rfl⟩ := hfree trivial
      -- an unstamped row in the table was never stamped
      have hk : ¬ 0 < k := fun hpos => by simpa using hstamped rfl hpos
      exact ⟨by simp only; omega, fun _ hpos => absurd hpos hk⟩
  | giveUp => exact ⟨by simp only at hone ⊢; omega, hstamped⟩
  | send => exact ⟨by simp only at hone ⊢; omega, hstamped⟩
  | stamp => exact ⟨by simp only at hone ⊢; omega, fun h _ => h⟩
  | stampFails => exact ⟨by simp only at hone ⊢; omega, hstamped⟩
  | delete => exact ⟨hone, by simp⟩

/-- Any number of steps. -/
abbrev Steps (careful : Prop) : Life → Life → Prop := Relation.ReflTransGen (Step careful)

theorem Steps.of_eq {careful : Prop} {l l' : Life} (h : l = l') : Steps careful l l' := h ▸ .refl

theorem Steps.of_step {careful : Prop} {l l' : Life} (h : Step careful l l') :
    Steps careful l l' := Relation.ReflTransGen.single h

theorem Steps.sound {careful : Prop} {l l' : Life} (h : Steps careful l l') (hl : l.Sound) :
    l'.Sound := by
  induction h with
  | refl => exact hl
  | tail _ hstep ih => exact hstep.sound ih

theorem Steps.single {l l' : Life} (h : Steps True l l') (hl : l.Single) : l'.Single := by
  induction h with
  | refl => exact hl
  | tail _ hstep ih => exact hstep.single ih

/-- Attempts that end before the send. -/
theorem Steps.giveUps {careful b r d} {w s n k f : Nat} (m : Nat) :
    Steps careful ⟨b, r, d, m + w, s, n, k, f⟩ ⟨b, r, d, w, s, n, k, f⟩ := by
  induction m with
  | zero => simpa using Relation.ReflTransGen.refl
  | succ m ih =>
      rw [show m + 1 + w = m + w + 1 by omega]
      exact .head .giveUp ih

/-- Nobody has to send the row any more: it is stamped, or gone. -/
def Life.Settled (l : Life) : Prop :=
  l.recorded = true ∧ (l.stored = true → l.delivered = true)

theorem Step.settled {careful : Prop} {l l' : Life} (h : Step careful l l') (hl : l.Settled) :
    l'.Settled := by
  obtain ⟨hrecorded, hdelivered⟩ := hl
  cases h with
  | record => cases hrecorded
  | pick hfree => cases hdelivered rfl
  | giveUp => exact ⟨hrecorded, hdelivered⟩
  | send => exact ⟨hrecorded, hdelivered⟩
  | stamp => exact ⟨hrecorded, fun h => h⟩
  | stampFails => exact ⟨hrecorded, hdelivered⟩
  | delete => exact ⟨hrecorded, fun h => h⟩

theorem Steps.settled {careful : Prop} {l l' : Life} (h : Steps careful l l') (hl : l.Settled) :
    l'.Settled := by
  induction h with
  | refl => exact hl
  | tail _ hstep ih => exact hstep.settled ih

/-- A stamped row was sent. -/
theorem Life.Sound.sends_pos {l : Life} (h : l.Sound) (hdelivered : l.delivered = true) :
    0 < l.sends := by
  have hstamps := (h.delivered_stamped hdelivered).2
  have haccounted := h.accounted
  omega

/-- With one worker at a time, every send past the first follows a failed stamp. -/
theorem Life.Single.sends_le {l : Life} (h : l.Single) (hs : l.Sound) :
    l.sends ≤ l.failed + 1 := by
  have hone := h.one_worker
  have haccounted := hs.accounted
  omega

end Outbox
