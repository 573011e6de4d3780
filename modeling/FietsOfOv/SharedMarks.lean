import FietsOfOv.ExposedMinutes
import FietsOfOv.Lib.Tally
import Mathlib.Algebra.BigOperators.Ring.Finset
import Mathlib.Algebra.BigOperators.Ring.List

/-!
# A wet mark where two legs meet

The windows of `_leg_rain` contain both of their ends, so a mark at the moment one leg
ends and the next begins wets both of them, and each may charge five minutes for it.
-/

namespace FietsOfOv

open WallClock

variable {env : Env} {haversineM : ℚ → ℚ → ℚ → ℚ → ℚ} {offset : Int} {itinerary : Itinerary}
  {legs : List Leg} {rain : RainForecast} {weights : Weights} {threshold : ℚ}

/-- The slots at or above the threshold. -/
def RainForecast.wet (rain : RainForecast) (threshold : ℚ) : List RainSlot :=
  rain.slots.filter (threshold ≤ ·.mmPerH)

/-- The slot's mark lies in the leg's window. -/
def Leg.meets (env : Env) (leg : Leg) (s : RainSlot) : Bool :=
  inTimeWindow s.time (localTime env leg.startTime) (localTime env leg.endTime)

/-- The slot's mark lies in the itinerary's window. -/
def Itinerary.meets (env : Env) (itinerary : Itinerary) (s : RainSlot) : Bool :=
  inTimeWindow s.time (localTime env itinerary.startTime) (localTime env itinerary.endTime)

/-- How many of the exposed legs a slot wets. -/
def wets (env : Env) (legs : List Leg) (s : RainSlot) : Nat :=
  (exposedLegs legs).countP (·.meets env s)

/-- Wet slots in the itinerary's window that meet no exposed leg. -/
def unmet (env : Env) (itinerary : Itinerary) (rain : RainForecast) (threshold : ℚ) : Nat :=
  (rain.wet threshold).countP fun s => itinerary.meets env s ∧ wets env itinerary.legs s = 0

/-- Wet slots that meet an exposed leg but lie outside the itinerary's window. -/
def stray (env : Env) (itinerary : Itinerary) (rain : RainForecast) (threshold : ℚ) : Nat :=
  (rain.wet threshold).countP fun s => ¬ itinerary.meets env s ∧ 0 < wets env itinerary.legs s

/-- The exposed legs a wet slot meets after its first. -/
def repeated (env : Env) (legs : List Leg) (rain : RainForecast) (threshold : ℚ) : Nat :=
  ((rain.wet threshold).map fun s => wets env legs s - 1).sum

/-- The minutes that a leg's slots speak for beyond its duration, so that it is not charged. -/
def cappedOff (env : Env) (leg : Leg) (rain : RainForecast) (threshold : ℚ) : ℚ :=
  if wetSlots env leg rain threshold = [] then 0
  else max 0 (5 * (wetSlots env leg rain threshold).length - leg.duration / 60)

/-- The legs that end on a wet mark from which a later leg starts. -/
def sharedMarks (env : Env) (rain : RainForecast) (threshold : ℚ) : List Leg → Nat
  | [] => 0
  | leg :: later =>
      (if (∃ s ∈ rain.wet threshold, s.time = localTime env leg.endTime) ∧
          ∃ next ∈ later, next.startTime = leg.endTime then 1 else 0) +
        sharedMarks env rain threshold later

/-! ## The account of the minutes -/

theorem legRain_add_cappedOff (leg : Leg) :
    (legRain env leg rain threshold).1 + cappedOff env leg rain threshold =
      5 * (wetSlots env leg rain threshold).length := by
  unfold cappedOff
  by_cases hwet : wetSlots env leg rain threshold = []
  · rw [if_pos hwet, legRain_of_dry hwet, hwet]
    simp
  · rw [if_neg hwet, legRain_of_wet hwet]
    generalize (5 * ((wetSlots env leg rain threshold).length : ℚ)) = marked
    generalize leg.duration / 60 = lasted
    rcases le_total lasted marked with hle | hle
    · rw [min_eq_left hle, max_eq_right (by linarith)]
      ring
    · rw [min_eq_right hle, max_eq_left (by linarith)]
      ring

theorem length_wetSlots (leg : Leg) :
    (wetSlots env leg rain threshold).length = (rain.wet threshold).countP (leg.meets env) := by
  simp only [RainForecast.wet, List.countP_filter, wetSlots, ← List.countP_eq_length_filter,
    Leg.meets, Bool.decide_and, Bool.decide_eq_true]

theorem length_wet_windowSlots :
    ((windowSlots env itinerary rain).filter (threshold ≤ ·.mmPerH)).length =
      (rain.wet threshold).countP (itinerary.meets env) := by
  rw [RainForecast.wet, List.countP_filter, windowSlots, List.filter_filter,
    ← List.countP_eq_length_filter]
  congr 1
  funext s
  exact Bool.and_comm _ _

/-- The minutes charged and those capped off are five for every slot of the window, for
    every further leg it wets and for every stray one, but none for the unmet ones. -/
theorem rainExposure_account (env : Env) (itinerary : Itinerary) (rain : RainForecast)
    (weights : Weights) (threshold : ℚ) :
    (rainExposure env itinerary.legs rain weights threshold).1 +
        ((exposedLegs itinerary.legs).map (cappedOff env · rain threshold)).sum +
        5 * unmet env itinerary rain threshold =
      5 * ((windowSlots env itinerary rain).filter (threshold ≤ ·.mmPerH)).length +
        5 * (repeated env itinerary.legs rain threshold + stray env itinerary rain threshold) := by
  have hcharged : (rainExposure env itinerary.legs rain weights threshold).1 +
      ((exposedLegs itinerary.legs).map (cappedOff env · rain threshold)).sum =
      5 * (((rain.wet threshold).map (wets env itinerary.legs)).sum : Nat) := by
    calc
      (rainExposure env itinerary.legs rain weights threshold).1 +
          ((exposedLegs itinerary.legs).map (cappedOff env · rain threshold)).sum =
          ((exposedLegs itinerary.legs).map fun leg =>
            5 * ((wetSlots env leg rain threshold).length : ℚ)).sum := by
        rw [rainExposure_minutes, ← List.sum_map_add]
        simp only [legRain_add_cappedOff]
      _ = 5 * (((exposedLegs itinerary.legs).map fun leg =>
            (rain.wet threshold).countP (leg.meets env)).sum : Nat) := by
        rw [List.sum_map_mul_left, Nat.cast_list_sum, List.map_map]
        simp only [length_wetSlots, Function.comp_def]
      _ = _ := by
        rw [Tally.sum_countP_comm]
        rfl
  have htally := Tally.sum_add_unmet (wets env itinerary.legs) (itinerary.meets env)
    (rain.wet threshold)
  rw [hcharged, length_wet_windowSlots]
  unfold unmet stray repeated
  have hcast := congrArg (Nat.cast : Nat → ℚ) htally
  push_cast at hcast ⊢
  linarith

/-! ## Legs in order -/

/-- Within a day a leg of the itinerary meets the slots shown between its times. -/
theorem meets_iff_shown {leg : Leg} {s : RainSlot}
    (hday : itinerary.endTime < itinerary.startTime + 86400000)
    (hstart : itinerary.startTime ≤ leg.startTime) (hleg : leg.startTime ≤ leg.endTime)
    (hstop : leg.endTime ≤ itinerary.endTime) :
    leg.meets ⟨haversineM, fun _ => offset⟩ s = true ↔
      (leg.startTime - itinerary.startTime) * 1000 ≤
          untilShown (clockMicros offset itinerary.startTime) s.time.micros ∧
        untilShown (clockMicros offset itinerary.startTime) s.time.micros ≤
          (leg.endTime - itinerary.startTime) * 1000 := by
  rw [Leg.meets, inTimeWindow_local_iff haversineM hleg (by omega)]
  unfold untilShown clockMicros
  omega

/-- The slot's mark is the moment the leg ends. -/
theorem shown_at_end_iff {leg : Leg} {s : RainSlot}
    (hday : itinerary.endTime < itinerary.startTime + 86400000)
    (hstart : itinerary.startTime ≤ leg.endTime) (hstop : leg.endTime ≤ itinerary.endTime) :
    s.time = localTime ⟨haversineM, fun _ => offset⟩ leg.endTime ↔
      untilShown (clockMicros offset itinerary.startTime) s.time.micros =
        (leg.endTime - itinerary.startTime) * 1000 := by
  have hlt := s.time.lt_day
  have hmicros : ((localTime ⟨haversineM, fun _ => offset⟩ leg.endTime).micros : Int) =
      (leg.endTime + offset) * 1000 % 86400000000 := Time.micros_ofMicros _
  simp only [microsPerDay] at hlt
  unfold untilShown clockMicros
  constructor
  · intro htime
    rw [htime]
    omega
  · intro hshown
    apply Time.eq_of_micros
    omega

/-- A slot wets a leg and a later one exactly where it stands between them. -/
theorem meets_both_iff {leg : Leg} {later : List Leg} {s : RainSlot}
    (hday : itinerary.endTime < itinerary.startTime + 86400000)
    (hnested : ∀ l ∈ leg :: later, itinerary.startTime ≤ l.startTime ∧ l.startTime ≤ l.endTime ∧
      l.endTime ≤ itinerary.endTime)
    (hapart : ∀ next ∈ later, leg.endTime ≤ next.startTime) :
    (leg.meets ⟨haversineM, fun _ => offset⟩ s = true ∧
        0 < later.countP (·.meets ⟨haversineM, fun _ => offset⟩ s)) ↔
      s.time = localTime ⟨haversineM, fun _ => offset⟩ leg.endTime ∧
        ∃ next ∈ later, next.startTime = leg.endTime := by
  obtain ⟨hstart, hleg, hstop⟩ := hnested leg List.mem_cons_self
  rw [List.countP_pos_iff, meets_iff_shown hday hstart hleg hstop,
    shown_at_end_iff hday (by omega) hstop]
  constructor
  · rintro ⟨⟨_, hbefore⟩, next, hnext, hmeets⟩
    obtain ⟨hstart', hleg', hstop'⟩ := hnested next (List.mem_cons_of_mem leg hnext)
    have hafter := ((meets_iff_shown hday hstart' hleg' hstop').mp hmeets).1
    have hgap := hapart next hnext
    exact ⟨by omega, next, hnext, by omega⟩
  · rintro ⟨hend, next, hnext, heq⟩
    obtain ⟨hstart', hleg', hstop'⟩ := hnested next (List.mem_cons_of_mem leg hnext)
    refine ⟨by omega, next, hnext, ?_⟩
    rw [meets_iff_shown hday hstart' hleg' hstop']
    omega

/-- Of slots at distinct times, at most one stands at a time. -/
theorem countP_time_eq {slots : List RainSlot} (hdistinct : (slots.map (·.time)).Nodup)
    (t : Time) :
    slots.countP (·.time = t) = if ∃ s ∈ slots, s.time = t then 1 else 0 := by
  calc
    slots.countP (·.time = t) = (slots.map (·.time)).count t := by
      rw [List.count, List.countP_map]
      rfl
    _ = if t ∈ slots.map (·.time) then 1 else 0 := hdistinct.count
    _ = _ := by simp only [List.mem_map]

/-- Along legs in order, every leg a slot wets after its first is one that starts where an
    earlier one ends. -/
theorem sum_repeated_eq {out : List Leg} (hdistinct : (rain.slots.map (·.time)).Nodup)
    (hday : itinerary.endTime < itinerary.startTime + 86400000)
    (hnested : ∀ l ∈ out, itinerary.startTime ≤ l.startTime ∧ l.startTime ≤ l.endTime ∧
      l.endTime ≤ itinerary.endTime)
    (hapart : out.Pairwise fun leg next => leg.endTime ≤ next.startTime) :
    ((rain.wet threshold).map fun s =>
        out.countP (·.meets ⟨haversineM, fun _ => offset⟩ s) - 1).sum =
      sharedMarks ⟨haversineM, fun _ => offset⟩ rain threshold out := by
  induction out with
  | nil => simp [sharedMarks]
  | cons leg later ih =>
      obtain ⟨hgaps, hlater⟩ := List.pairwise_cons.mp hapart
      have hnested' := fun l hl => hnested l (List.mem_cons_of_mem leg hl)
      have hfirst : ∀ s : RainSlot,
          (leg :: later).countP (·.meets ⟨haversineM, fun _ => offset⟩ s) - 1 =
            (if s.time = localTime ⟨haversineM, fun _ => offset⟩ leg.endTime ∧
                ∃ next ∈ later, next.startTime = leg.endTime then 1 else 0) +
              (later.countP (·.meets ⟨haversineM, fun _ => offset⟩ s) - 1) := by
        intro s
        simp only [← meets_both_iff (s := s) hday hnested hgaps, List.countP_cons]
        generalize later.countP (·.meets ⟨haversineM, fun _ => offset⟩ s) = more
        cases leg.meets ⟨haversineM, fun _ => offset⟩ s
        · simp
        · rcases Nat.eq_zero_or_pos more with hzero | hpos
          · simp [hzero]
          · simp only [hpos, and_self, if_true]
            omega
      have hkept : ((rain.wet threshold).map (·.time)).Nodup :=
        (List.filter_sublist.map _).nodup hdistinct
      simp only [hfirst]
      rw [List.sum_map_add, ih hnested' hlater, sharedMarks]
      congr 1
      by_cases hnext : ∃ next ∈ later, next.startTime = leg.endTime
      · simp only [hnext, and_true]
        rw [← countP_time_eq hkept, ← Tally.sum_map_one]
        simp only [decide_eq_true_eq]
      · simp [hnext]

/-- Legs that each start at or after the previous one's end are in order throughout. -/
theorem pairwise_of_isChain (hordered : ∀ leg ∈ legs, leg.startTime ≤ leg.endTime)
    (hchain : legs.IsChain fun leg next => leg.endTime ≤ next.startTime) :
    legs.Pairwise fun leg next => leg.endTime ≤ next.startTime := by
  induction legs with
  | nil => exact .nil
  | cons leg later ih =>
      have hlater := ih (fun l hl => hordered l (List.mem_cons_of_mem leg hl)) hchain.tail
      refine List.pairwise_cons.mpr ⟨?_, hlater⟩
      cases later with
      | nil => simp
      | cons next later =>
          have hnext := (List.isChain_cons_cons.mp hchain).1
          have hnext' := hordered next (List.mem_cons_of_mem leg List.mem_cons_self)
          intro l hl
          rcases List.mem_cons.mp hl with rfl | hl
          · exact hnext
          · have hgap := (List.pairwise_cons.mp hlater).1 l hl
            omega

/-- **When a wet slot is charged at most once.**  The exposed minutes stay within five for
    each wet slot of the itinerary's window exactly if what is charged twice, or for slots
    outside the window, is made up for by slots that meet no exposed leg and by what the
    legs' durations cap off.  In an itinerary whose legs lie in its window, only slots
    that stand where an exposed leg ends and a later one starts are charged twice, and
    none outside. -/
theorem charged_once_iff (haversineM : ℚ → ℚ → ℚ → ℚ → ℚ) (offset : Int) (itinerary : Itinerary)
    (rain : RainForecast) (weights : Weights) (threshold : ℚ)
    (hdistinct : (rain.slots.map (·.time)).Nodup)
    (hday : itinerary.endTime < itinerary.startTime + 86400000)
    (hapart : itinerary.legs.IsChain fun leg next => leg.endTime ≤ next.startTime) :
    ((rainExposure ⟨haversineM, fun _ => offset⟩ itinerary.legs rain weights threshold).1 ≤
        5 * ((windowSlots ⟨haversineM, fun _ => offset⟩ itinerary rain).filter
          (threshold ≤ ·.mmPerH)).length ↔
      5 * ((repeated ⟨haversineM, fun _ => offset⟩ itinerary.legs rain threshold : ℚ) +
          stray ⟨haversineM, fun _ => offset⟩ itinerary rain threshold) ≤
        5 * unmet ⟨haversineM, fun _ => offset⟩ itinerary rain threshold +
          ((exposedLegs itinerary.legs).map
            (cappedOff ⟨haversineM, fun _ => offset⟩ · rain threshold)).sum) ∧
    (itinerary.Nested →
      repeated ⟨haversineM, fun _ => offset⟩ itinerary.legs rain threshold =
          sharedMarks ⟨haversineM, fun _ => offset⟩ rain threshold
            (exposedLegs itinerary.legs) ∧
        stray ⟨haversineM, fun _ => offset⟩ itinerary rain threshold = 0) := by
  constructor
  · have haccount := rainExposure_account ⟨haversineM, fun _ => offset⟩ itinerary rain weights
      threshold
    constructor
    · intro hle
      linarith
    · intro hle
      linarith
  · intro hnested
    have hout : ∀ leg ∈ exposedLegs itinerary.legs, itinerary.startTime ≤ leg.startTime ∧
        leg.startTime ≤ leg.endTime ∧ leg.endTime ≤ itinerary.endTime :=
      fun leg hleg => hnested leg (mem_exposedLegs.mp hleg).1
    constructor
    · have hpairwise := pairwise_of_isChain (fun leg hleg => (hnested leg hleg).2.1) hapart
      exact sum_repeated_eq hdistinct hday hout (hpairwise.filter _)
    · apply List.countP_eq_zero.mpr
      intro s _
      rw [decide_eq_true_eq]
      rintro ⟨houtside, hmet⟩
      obtain ⟨leg, hleg, hmeets⟩ := List.countP_pos_iff.mp hmet
      obtain ⟨hstart, hordered, hstop⟩ := hout leg hleg
      have hshown := (meets_iff_shown hday hstart hordered hstop).mp hmeets
      apply houtside
      rw [Itinerary.meets, inTimeWindow_local_iff haversineM (by omega) hday]
      omega

/-- Two rides of four minutes, the second from where the first ends, at 00:10. -/
def twoRides : Itinerary :=
  ⟨480, 360000, 840000,
    [{ mode := "BICYCLE", startTime := 360000, endTime := 600000, duration := 240 },
      { mode := "BICYCLE", startTime := 600000, endTime := 840000, duration := 240 }]⟩

/-- A shower at 00:10. -/
def tenPastShower : RainForecast := ⟨[⟨Time.ofMicros 600000000, 109, 1⟩]⟩

theorem charged_once_iff_twoRides :
    ((rainExposure flatEnv twoRides.legs tenPastShower defaultWeights
        (1 / 10)).1 ≤
        5 * ((windowSlots flatEnv twoRides tenPastShower).filter
          ((1 / 10 : ℚ) ≤ ·.mmPerH)).length ↔
      5 * ((repeated flatEnv twoRides.legs tenPastShower (1 / 10) : ℚ) +
          stray flatEnv twoRides tenPastShower (1 / 10)) ≤
        5 * unmet flatEnv twoRides tenPastShower (1 / 10) +
          ((exposedLegs twoRides.legs).map
            (cappedOff flatEnv · tenPastShower (1 / 10))).sum) ∧
    (twoRides.Nested →
      repeated flatEnv twoRides.legs tenPastShower (1 / 10) =
          sharedMarks flatEnv tenPastShower (1 / 10)
            (exposedLegs twoRides.legs) ∧
        stray flatEnv twoRides tenPastShower (1 / 10) = 0) :=
  charged_once_iff _ 0 twoRides tenPastShower defaultWeights (1 / 10) (by decide) (by decide)
    (by decide)

/-- Both rides are charged four minutes for the one slot. -/
theorem shower_charged_twice :
    ¬ ∀ (haversineM : ℚ → ℚ → ℚ → ℚ → ℚ) (offset : Int) (itinerary : Itinerary)
        (rain : RainForecast) (weights : Weights) (threshold : ℚ),
      (rain.slots.map (·.time)).Nodup → itinerary.Nested →
      itinerary.endTime < itinerary.startTime + 86400000 →
      (itinerary.legs.IsChain fun leg next => leg.endTime ≤ next.startTime) →
      (rainExposure ⟨haversineM, fun _ => offset⟩ itinerary.legs rain weights threshold).1 ≤
        5 * ((windowSlots ⟨haversineM, fun _ => offset⟩ itinerary rain).filter
          (threshold ≤ ·.mmPerH)).length := by
  intro hall
  have hcharged := hall (fun _ _ _ _ => 1000) 0 twoRides tenPastShower defaultWeights (1 / 10)
    (by decide) (by simp [Itinerary.Nested, twoRides]) (by decide) (by decide)
  exact absurd hcharged (by decide +kernel)

end FietsOfOv
