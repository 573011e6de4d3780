import FietsOfOv.Advice
import FietsOfOv.Lib.Cover
import FietsOfOv.Ranking
import Mathlib.Algebra.Order.Archimedean.Real.Basic

/-!
# When a dry verdict is backed by the forecast

A slot speaks for the five minutes from its time on.  `_rain_summary` looks only at
the slots whose mark lies inside the window, and calls a window without a wet mark
dry, also when no slot speaks for it or a wet slot began just before it.
-/

namespace FietsOfOv

open WallClock

/-- What the Amsterdam clock has counted at an epoch millisecond, in microseconds,
    with a fixed offset. -/
def clockMicros (offset epochMs : Int) : Int := (epochMs + offset) * 1000

/-- The length of a slot in microseconds. -/
def slotWidth : Int := 300000000

/-- The slot's interval, on any day, contains the instant (in epoch milliseconds). -/
def RainSlot.Covers (offset : Int) (s : RainSlot) (t : ℝ) : Prop :=
  ∃ day : Int, ((s.time.micros + day * 86400000000 : Int) : ℝ) ≤ (t + offset) * 1000 ∧
    (t + offset) * 1000 < (s.time.micros + day * 86400000000 : Int) + slotWidth

/-- The forecast speaks for every instant of the window, and calls none of it wet. -/
structure Backed (offset : Int) (itinerary : Itinerary) (rain : RainForecast) : Prop where
  covered : ∀ t : ℝ, itinerary.startTime ≤ t → t ≤ itinerary.endTime →
    ∃ s ∈ rain.slots, s.Covers offset t
  dry : ∀ s ∈ rain.slots,
    (∃ t : ℝ, itinerary.startTime ≤ t ∧ t ≤ itinerary.endTime ∧ s.Covers offset t) →
    s.mmPerH < defaultRainThresholdMmH

/-- The microseconds from one count of the clock until it next shows what it shows at
    the other. -/
def untilShown (now other : Int) : Int := (other - now) % 86400000000

/-- Where a dry verdict can be trusted: some mark inside the window is wet, so there is
    no such verdict; or the window's start lies in some slot, none of the slots it lies
    in is wet, and where a slot ends within the window another goes on. -/
def DryTrusted (offset : Int) (itinerary : Itinerary) (rain : RainForecast) : Prop :=
  let start := clockMicros offset itinerary.startTime
  let length := (itinerary.endTime - itinerary.startTime) * 1000
  0 ≤ length →
    (∃ s ∈ rain.slots, untilShown start s.time.micros ≤ length ∧
      defaultRainThresholdMmH ≤ s.mmPerH) ∨
    ((∃ s ∈ rain.slots, untilShown s.time.micros start < slotWidth) ∧
      (∀ s ∈ rain.slots, untilShown s.time.micros start < slotWidth →
        s.mmPerH < defaultRainThresholdMmH) ∧
      ∀ s ∈ rain.slots, untilShown start (s.time.micros + slotWidth) ≤ length →
        ∃ next ∈ rain.slots, untilShown next.time.micros (s.time.micros + slotWidth) < slotWidth)

instance (offset : Int) (itinerary : Itinerary) (rain : RainForecast) :
    Decidable (DryTrusted offset itinerary rain) := by
  unfold DryTrusted
  infer_instance

/-! ## Marks on the clock -/

/-- Every reading of the clock at which a slot begins. -/
def marks (slots : List RainSlot) : Set ℤ :=
  {m | ∃ s ∈ slots, ∃ day : Int, s.time.micros + day * 86400000000 = m}

theorem exists_day_iff {mark start length : Int} :
    (∃ day : Int, start ≤ mark + day * 86400000000 ∧ mark + day * 86400000000 ≤ start + length) ↔
      untilShown start mark ≤ length := by
  unfold untilShown
  constructor
  · rintro ⟨day, hstart, hstop⟩
    have hshift : (mark - start) % 86400000000 =
        (mark + day * 86400000000 - start) % 86400000000 := by omega
    omega
  · intro hle
    exact ⟨-((mark - start) / 86400000000), by omega, by omega⟩

theorem exists_day_lt_iff {mark now : Int} :
    (∃ day : Int, mark + day * 86400000000 ≤ now ∧ now < mark + day * 86400000000 + slotWidth) ↔
      untilShown mark now < slotWidth := by
  unfold untilShown slotWidth
  constructor
  · rintro ⟨day, hle, hlt⟩
    omega
  · intro hlt
    exact ⟨(now - mark) / 86400000000, by omega, by omega⟩

/-- The test of the source agrees with the clock, for windows within a day. -/
theorem inTimeWindow_iff {time : Time} {start stop : Int} (hle : start ≤ stop)
    (hday : stop < start + 86400000000) :
    inTimeWindow time (Time.ofMicros start) (Time.ofMicros stop) = true ↔
      untilShown start time.micros ≤ stop - start := by
  have htime := time.lt_day
  have hstart := Time.micros_ofMicros start
  have hstop := Time.micros_ofMicros stop
  simp only [inTimeWindow, Time.le_iff, untilShown, microsPerDay] at *
  split <;> simp only [decide_eq_true_eq] <;> omega

variable {offset : Int} {itinerary : Itinerary} {rain : RainForecast}

/-- Instants of a window in milliseconds are readings of the clock in microseconds. -/
theorem forall_instant_iff {start stop : Int} {p : ℝ → Prop} :
    (∀ t : ℝ, start ≤ t → t ≤ stop → p ((t + offset) * 1000)) ↔
      ∀ x : ℝ, clockMicros offset start ≤ x → x ≤ clockMicros offset stop → p x := by
  simp only [clockMicros]
  push_cast
  constructor
  · intro hall x hstart hstop
    have hx := hall (x / 1000 - offset) (by linarith) (by linarith)
    rwa [show (x / 1000 - offset + offset) * 1000 = x by ring] at hx
  · intro hall t hstart hstop
    exact hall _ (by linarith) (by linarith)

theorem exists_instant_iff {start stop : Int} {p : ℝ → Prop} :
    (∃ t : ℝ, start ≤ t ∧ t ≤ stop ∧ p ((t + offset) * 1000)) ↔
      ∃ x : ℝ, clockMicros offset start ≤ x ∧ x ≤ clockMicros offset stop ∧ p x := by
  have hnone := not_congr (@forall_instant_iff offset start stop fun x => ¬ p x)
  push Not at hnone
  exact hnone

theorem exists_covers_iff {slots : List RainSlot} {t : ℝ} :
    (∃ s ∈ slots, s.Covers offset t) ↔
      Cover.At (marks slots) slotWidth ((t + offset) * 1000) := by
  constructor
  · rintro ⟨s, hs, day, hle, hlt⟩
    exact ⟨_, ⟨s, hs, day, rfl⟩, hle, hlt⟩
  · rintro ⟨_, ⟨s, hs, day, rfl⟩, hle, hlt⟩
    exact ⟨s, hs, day, hle, hlt⟩

theorem at_marks_iff {slots : List RainSlot} {n : Int} :
    Cover.At (marks slots) slotWidth (n : ℝ) ↔
      ∃ s ∈ slots, untilShown s.time.micros n < slotWidth := by
  simp only [Cover.at_intCast, ← exists_day_lt_iff]
  constructor
  · rintro ⟨_, ⟨s, hs, day, rfl⟩, hin⟩
    exact ⟨s, hs, day, hin⟩
  · rintro ⟨s, hs, day, hin⟩
    exact ⟨_, ⟨s, hs, day, rfl⟩, hin⟩

/-- The window is covered if its start is and no interval ends in it without a next one. -/
theorem covered_iff (hle : itinerary.startTime ≤ itinerary.endTime) :
    (∀ t : ℝ, itinerary.startTime ≤ t → t ≤ itinerary.endTime →
      ∃ s ∈ rain.slots, s.Covers offset t) ↔
    (∃ s ∈ rain.slots, untilShown s.time.micros (clockMicros offset itinerary.startTime) <
      slotWidth) ∧
    ∀ s ∈ rain.slots,
      untilShown (clockMicros offset itinerary.startTime) (s.time.micros + slotWidth) ≤
        (itinerary.endTime - itinerary.startTime) * 1000 →
      ∃ next ∈ rain.slots, untilShown next.time.micros (s.time.micros + slotWidth) < slotWidth := by
  simp only [exists_covers_iff]
  rw [forall_instant_iff (p := Cover.At (marks rain.slots) slotWidth),
    Cover.window_iff (by unfold clockMicros; omega), at_marks_iff]
  refine and_congr_right fun _ => ?_
  constructor
  · intro hends s hs hend
    obtain ⟨day, hstart, hstop⟩ := exists_day_iff.mpr hend
    have hnext := hends (s.time.micros + day * 86400000000) ⟨s, hs, day, rfl⟩ (by omega)
      (by simp only [clockMicros] at hstart hstop ⊢; omega)
    obtain ⟨next, hmem, hin⟩ := at_marks_iff.mp hnext
    refine ⟨next, hmem, ?_⟩
    unfold untilShown at hin ⊢
    omega
  · rintro hends _ ⟨s, hs, day, rfl⟩ hstart hstop
    have hend : untilShown (clockMicros offset itinerary.startTime) (s.time.micros + slotWidth) ≤
        (itinerary.endTime - itinerary.startTime) * 1000 := by
      refine exists_day_iff.mp ⟨day, by omega, ?_⟩
      simp only [clockMicros] at hstart hstop ⊢
      omega
    obtain ⟨next, hmem, hin⟩ := hends s hs hend
    refine at_marks_iff.mpr ⟨next, hmem, ?_⟩
    unfold untilShown at hin ⊢
    omega

/-- A slot's interval meets the window if its mark lies in it, or the window's start
    lies in the interval. -/
theorem meets_iff {s : RainSlot} (hle : itinerary.startTime ≤ itinerary.endTime) :
    (∃ t : ℝ, itinerary.startTime ≤ t ∧ t ≤ itinerary.endTime ∧ s.Covers offset t) ↔
      untilShown (clockMicros offset itinerary.startTime) s.time.micros ≤
        (itinerary.endTime - itinerary.startTime) * 1000 ∨
      untilShown s.time.micros (clockMicros offset itinerary.startTime) < slotWidth := by
  have hwindow : clockMicros offset itinerary.startTime ≤ clockMicros offset itinerary.endTime := by
    unfold clockMicros
    omega
  have hstop : clockMicros offset itinerary.endTime = clockMicros offset itinerary.startTime +
      (itinerary.endTime - itinerary.startTime) * 1000 := by
    unfold clockMicros
    omega
  calc
    (∃ t : ℝ, itinerary.startTime ≤ t ∧ t ≤ itinerary.endTime ∧ s.Covers offset t) ↔
        ∃ x : ℝ, clockMicros offset itinerary.startTime ≤ x ∧
          x ≤ clockMicros offset itinerary.endTime ∧ ∃ day : Int,
            ((s.time.micros + day * 86400000000 : Int) : ℝ) ≤ x ∧
              x < (s.time.micros + day * 86400000000 : Int) + slotWidth :=
      exists_instant_iff (p := fun x => ∃ day : Int,
        ((s.time.micros + day * 86400000000 : Int) : ℝ) ≤ x ∧
          x < (s.time.micros + day * 86400000000 : Int) + slotWidth)
    _ ↔ ∃ day : Int, ∃ x : ℝ, clockMicros offset itinerary.startTime ≤ x ∧
          x ≤ clockMicros offset itinerary.endTime ∧
            ((s.time.micros + day * 86400000000 : Int) : ℝ) ≤ x ∧
              x < (s.time.micros + day * 86400000000 : Int) + slotWidth := by
      simp only [← exists_and_left]
      exact exists_comm
    _ ↔ ∃ day : Int, _ := exists_congr fun day => Cover.meets_iff hwindow (by decide)
    _ ↔ _ := by rw [exists_or, hstop, exists_day_iff, exists_day_lt_iff]

/-! ## The verdict -/

theorem rainSummary_dry_iff {env : Env} :
    (rainSummary env itinerary (some rain) defaultRainThresholdMmH).1 = some false ↔
      ∀ s ∈ rain.slots, inTimeWindow s.time (localTime env itinerary.startTime)
        (localTime env itinerary.endTime) = true → s.mmPerH < defaultRainThresholdMmH := by
  simp [rainSummary, windowSlots]

variable {env : Env} {candidates : List Candidate}

theorem exists_candidate_of_mem_rank {rain : Option RainForecast} {s : ScoredCandidate}
    (hs : s ∈ rank env candidates rain) : ∃ c ∈ candidates, c.itinerary = s.itinerary := by
  obtain ⟨c, rfl, hcheapest⟩ := exists_cheapest_of_mem_rank hs
  exact ⟨c, (mem_competitors.mp hcheapest.mem).1, by simp⟩

/-- With candidates there is a recommendation, and its verdict is about the window of one
    of them. -/
theorem recommend_summary (env : Env) (rain : Option RainForecast) (hne : candidates ≠ []) :
    ∃ plan itinerary, recommend env candidates rain = some plan ∧
      summaryItinerary env candidates rain = some itinerary ∧
      (∃ c ∈ candidates, c.itinerary = itinerary) ∧
      plan.options = rank env candidates rain ∧
      plan.rainExpected = (rainSummary env itinerary rain defaultRainThresholdMmH).1 ∧
      plan.maxRainMmPerH = (rainSummary env itinerary rain defaultRainThresholdMmH).2 ∧
      (∃ top, plan.reason = reason top plan.rainExpected plan.maxRainMmPerH) ∧
      plan.forecastDegraded = rain.isNone := by
  cases hrank : rank env candidates rain with
  | nil =>
      obtain ⟨c, hc⟩ := List.exists_mem_of_ne_nil candidates hne
      obtain ⟨_, _, _, _, hfind, _⟩ := @exists_winner env _ rain defaultWeights
        defaultRainThresholdMmH c.kind ⟨c, hc, rfl⟩ (by decide)
      rw [hrank] at hfind
      cases hfind
  | cons top rest =>
      simp only [recommend, summaryItinerary, hrank]
      cases hbike : (top :: rest).find? (·.kind = .bike) with
      | none =>
          refine ⟨_, top.itinerary, rfl, rfl, ?_, rfl, rfl, rfl, ⟨top, rfl⟩, rfl⟩
          exact exists_candidate_of_mem_rank (hrank ▸ List.mem_cons_self)
      | some bike =>
          refine ⟨_, bike.itinerary, rfl, rfl, ?_, rfl, rfl, rfl, ⟨top, rfl⟩, rfl⟩
          exact exists_candidate_of_mem_rank (hrank ▸ List.mem_of_find?_eq_some hbike)

/-- A dry verdict is said to be dry. -/
theorem reason_dry (top : ScoredCandidate) (peak : Option ℚ) :
    ∃ rest, reason top (some false) peak = "dry" ++ rest := by
  have hsplit : ∀ mid mins tail : String,
      ∃ rest, "dry" ++ mid ++ mins ++ tail = "dry" ++ rest :=
    fun mid mins tail => ⟨mid ++ mins ++ tail, by simp only [String.append_assoc]⟩
  cases hkind : top.kind with
  | bike =>
      simp only [reason, hkind]
      exact hsplit " during your " _ _
  | transit =>
      simp only [reason, hkind]
      exact hsplit " -> fastest is transit (" _ _
  | bikeAndRide =>
      simp only [reason, hkind]
      exact hsplit " -> fastest is bike and ride (" _ _

/-- Without a wet mark in the window, the check is exactly that the window is backed. -/
theorem backed_iff (hdry : ∀ s ∈ rain.slots,
      untilShown (clockMicros offset itinerary.startTime) s.time.micros ≤
        (itinerary.endTime - itinerary.startTime) * 1000 →
      s.mmPerH < defaultRainThresholdMmH) :
    Backed offset itinerary rain ↔ DryTrusted offset itinerary rain := by
  by_cases hle : itinerary.startTime ≤ itinerary.endTime
  · have hlength : 0 ≤ (itinerary.endTime - itinerary.startTime) * 1000 := by omega
    simp only [DryTrusted, hlength, true_implies]
    constructor
    · rintro ⟨hcovered, hbacked⟩
      obtain ⟨hstart, hends⟩ := (covered_iff hle).mp hcovered
      refine Or.inr ⟨hstart, fun s hs hcovers => ?_, hends⟩
      exact hbacked s hs ((meets_iff hle).mpr (Or.inr hcovers))
    · rintro (⟨s, hs, hmark, hwet⟩ | ⟨hstart, hstartDry, hends⟩)
      · exact absurd (hdry s hs hmark) (not_lt.mpr hwet)
      · refine ⟨(covered_iff hle).mpr ⟨hstart, hends⟩, fun s hs hmeets => ?_⟩
        rcases (meets_iff hle).mp hmeets with hmark | hcovers
        · exact hdry s hs hmark
        · exact hstartDry s hs hcovers
  · have hempty : ∀ t : ℝ, itinerary.startTime ≤ t → ¬ t ≤ itinerary.endTime := by
      intro t hstart hstop
      have hle' : (itinerary.startTime : ℝ) ≤ itinerary.endTime := hstart.trans hstop
      exact hle (by exact_mod_cast hle')
    constructor
    · intro _ hlength
      omega
    · intro _
      exact ⟨fun t hstart hstop => absurd hstop (hempty t hstart),
        fun s _ ⟨t, hstart, hstop, _⟩ => absurd hstop (hempty t hstart)⟩

/-- The window test of the source on the clock with a fixed offset. -/
theorem inTimeWindow_local_iff (haversineM : ℚ → ℚ → ℚ → ℚ → ℚ) {time : Time} {start stop : Int}
    (hle : start ≤ stop) (hday : stop < start + 86400000) :
    inTimeWindow time (localTime ⟨haversineM, fun _ => offset⟩ start)
        (localTime ⟨haversineM, fun _ => offset⟩ stop) = true ↔
      untilShown (clockMicros offset start) time.micros ≤ (stop - start) * 1000 := by
  simp only [localTime, clockMicros]
  rw [inTimeWindow_iff (by omega) (by omega),
    show (stop + offset) * 1000 - (start + offset) * 1000 = (stop - start) * 1000 by omega]

/-- What the summary says of the slots the window shows backs the verdict, or the verdict is
    not given, exactly where it can be trusted. -/
theorem verdict_backed_iff (haversineM : ℚ → ℚ → ℚ → ℚ → ℚ)
    (hday : itinerary.endTime < itinerary.startTime + 86400000) :
    ((rainSummary ⟨haversineM, fun _ => offset⟩ itinerary (some rain)
        defaultRainThresholdMmH).1 = some false → Backed offset itinerary rain) ↔
      DryTrusted offset itinerary rain := by
  rw [rainSummary_dry_iff]
  by_cases hdry : ∀ s ∈ rain.slots,
      untilShown (clockMicros offset itinerary.startTime) s.time.micros ≤
        (itinerary.endTime - itinerary.startTime) * 1000 →
      s.mmPerH < defaultRainThresholdMmH
  · rw [← backed_iff hdry]
    refine ⟨fun hbacked => ?_, fun hbacked _ => hbacked⟩
    by_cases hle : itinerary.startTime ≤ itinerary.endTime
    · apply hbacked
      intro s hs hin
      exact hdry s hs ((inTimeWindow_local_iff haversineM hle hday).mp hin)
    · apply (backed_iff hdry).mpr
      intro hlength
      omega
  · push Not at hdry
    obtain ⟨s, hs, hmark, hwet⟩ := hdry
    have hle : itinerary.startTime ≤ itinerary.endTime := by
      unfold untilShown at hmark
      omega
    constructor
    · intro _ _
      exact Or.inl ⟨s, hs, hmark, hwet⟩
    · intro _ hverdict
      have hin := (inTimeWindow_local_iff haversineM hle hday).mpr hmark
      exact absurd (hverdict s hs hin) (not_lt.mpr hwet)

/-- **A dry verdict is backed exactly where the check says so.**  With a fixed offset and
    windows within a day, the recommendation calls the window of the summarised
    itinerary dry only if the forecast covers it and is dry, precisely under
    `DryTrusted`. -/
theorem dry_verdict_iff (haversineM : ℚ → ℚ → ℚ → ℚ → ℚ) (offset : Int)
    (candidates : List Candidate) (rain : RainForecast) (hne : candidates ≠ [])
    (hday : ∀ c ∈ candidates, c.itinerary.endTime < c.itinerary.startTime + 86400000) :
    ∃ plan itinerary,
      recommend ⟨haversineM, fun _ => offset⟩ candidates (some rain) = some plan ∧
      summaryItinerary ⟨haversineM, fun _ => offset⟩ candidates (some rain) = some itinerary ∧
      plan.forecastDegraded = false ∧
      (plan.rainExpected = some false → ∃ rest, plan.reason = "dry" ++ rest) ∧
      ((plan.rainExpected = some false → Backed offset itinerary rain) ↔
        DryTrusted offset itinerary rain) := by
  obtain ⟨plan, itinerary, hplan, hitinerary, ⟨c, hc, rfl⟩, _, hexpected, _, ⟨top, hreason⟩,
    hdegraded⟩ := recommend_summary ⟨haversineM, fun _ => offset⟩ (some rain) hne
  refine ⟨plan, c.itinerary, hplan, hitinerary, hdegraded, ?_, ?_⟩
  · intro hdry
    rw [hreason, hdry]
    exact reason_dry top _
  · rw [hexpected]
    exact verdict_backed_iff haversineM (hday c hc)

/-- A ride of three minutes from 00:11 on. -/
def shortRide : Candidate := ⟨.bike, ⟨180, 660000, 840000, []⟩⟩

/-- Rain at 00:10 and at 00:15. -/
def steadyRain : RainForecast :=
  ⟨[⟨Time.ofMicros 600000000, 109, 1⟩, ⟨Time.ofMicros 900000000, 109, 1⟩]⟩

theorem dry_verdict_iff_shortRide :
    ∃ plan itinerary,
      recommend flatEnv [shortRide] (some steadyRain) = some plan ∧
      summaryItinerary flatEnv [shortRide] (some steadyRain) =
        some itinerary ∧
      plan.forecastDegraded = false ∧
      (plan.rainExpected = some false → ∃ rest, plan.reason = "dry" ++ rest) ∧
      ((plan.rainExpected = some false → Backed 0 itinerary steadyRain) ↔
        DryTrusted 0 itinerary steadyRain) :=
  dry_verdict_iff _ 0 [shortRide] steadyRain (by decide) (by decide)

/-- The short ride between two wet marks is called dry. -/
theorem short_ride_in_the_rain :
    ¬ ∀ (haversineM : ℚ → ℚ → ℚ → ℚ → ℚ) (offset : Int) (candidates : List Candidate)
        (rain : RainForecast) (plan : RankedPlan) (itinerary : Itinerary),
      candidates ≠ [] → rain.slots ≠ [] →
      (∀ c ∈ candidates, c.itinerary.endTime < c.itinerary.startTime + 86400000) →
      recommend ⟨haversineM, fun _ => offset⟩ candidates (some rain) = some plan →
      summaryItinerary ⟨haversineM, fun _ => offset⟩ candidates (some rain) = some itinerary →
      plan.rainExpected = some false → Backed offset itinerary rain := by
  intro hall
  have hverdict : (recommend flatEnv [shortRide]
      (some steadyRain)).map (·.rainExpected) = some (some false) := by decide +kernel
  have hitinerary : summaryItinerary flatEnv [shortRide]
      (some steadyRain) = some shortRide.itinerary := by decide +kernel
  obtain ⟨plan, hplan, hexpected⟩ := Option.map_eq_some_iff.mp hverdict
  have hbacked := hall _ 0 [shortRide] steadyRain plan _ (by decide) (by decide) (by decide) hplan
    hitinerary hexpected
  have hmark : (Time.ofMicros 600000000).micros = 600000000 := by decide
  have hdry := hbacked.dry _ List.mem_cons_self
    ⟨660000, by norm_num [shortRide], by norm_num [shortRide], 0, by norm_num [hmark], by
      norm_num [slotWidth, hmark]⟩
  exact absurd hdry (by decide +kernel)

end FietsOfOv
