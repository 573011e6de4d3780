import FietsOfOv.DryVerdict
import FietsOfOv.MoreRain

/-!
# The banner and the costs

`_leg_rain` matches slots to each leg, `_rain_summary` to the whole window of the
summarised itinerary.  On a clock with a fixed offset the legs' windows lie inside the
itinerary's, whichever of them wrap past midnight, so what wets a leg wets the banner.
-/

namespace FietsOfOv

open WallClock Decimal

/-- Every leg lies in the itinerary's window. -/
def Itinerary.Nested (itinerary : Itinerary) : Prop :=
  ∀ leg ∈ itinerary.legs, itinerary.startTime ≤ leg.startTime ∧ leg.startTime ≤ leg.endTime ∧
    leg.endTime ≤ itinerary.endTime

variable {haversineM : ℚ → ℚ → ℚ → ℚ → ℚ} {offset : Int} {rain : RainForecast} {threshold : ℚ}

/-- A reading shown within a stretch of time is shown within any longer one around it. -/
theorem untilShown_le_of_within {start length start' length' mark : Int} (hstart : start ≤ start')
    (hstop : start' + length' ≤ start + length) (hshown : untilShown start' mark ≤ length') :
    untilShown start mark ≤ length := by
  obtain ⟨day, hfrom, hto⟩ := exists_day_iff.mpr hshown
  exact exists_day_iff.mp ⟨day, by omega, by omega⟩

theorem mem_wetSlots {env : Env} {leg : Leg} {s : RainSlot} :
    s ∈ wetSlots env leg rain threshold ↔ s ∈ rain.slots ∧
      inTimeWindow s.time (localTime env leg.startTime) (localTime env leg.endTime) = true ∧
      threshold ≤ s.mmPerH := by
  simp [wetSlots]

/-- What wets a leg within an itinerary's window is seen by the summary of that window. -/
theorem mem_windowSlots_of_wet {itinerary : Itinerary} {leg : Leg}
    (hstart : itinerary.startTime ≤ leg.startTime) (hleg : leg.startTime ≤ leg.endTime)
    (hstop : leg.endTime ≤ itinerary.endTime)
    (hday : itinerary.endTime < itinerary.startTime + 86400000) {s : RainSlot}
    (hs : s ∈ wetSlots ⟨haversineM, fun _ => offset⟩ leg rain threshold) :
    s ∈ windowSlots ⟨haversineM, fun _ => offset⟩ itinerary rain ∧ threshold ≤ s.mmPerH := by
  obtain ⟨hmem, hin, hwet⟩ := mem_wetSlots.mp hs
  refine ⟨List.mem_filter.mpr ⟨hmem, ?_⟩, hwet⟩
  rw [inTimeWindow_local_iff haversineM hleg (by omega)] at hin
  rw [inTimeWindow_local_iff haversineM (by omega) hday]
  refine untilShown_le_of_within ?_ ?_ hin
  · unfold clockMicros
    omega
  · unfold clockMicros
    omega

/-- No leg within a window called dry is charged for rain. -/
theorem wetSlots_eq_nil_of_dry {itinerary : Itinerary} {leg : Leg}
    (hstart : itinerary.startTime ≤ leg.startTime) (hleg : leg.startTime ≤ leg.endTime)
    (hstop : leg.endTime ≤ itinerary.endTime)
    (hday : itinerary.endTime < itinerary.startTime + 86400000)
    (hdry : (rainSummary ⟨haversineM, fun _ => offset⟩ itinerary (some rain)
      defaultRainThresholdMmH).1 = some false) :
    wetSlots ⟨haversineM, fun _ => offset⟩ leg rain defaultRainThresholdMmH = [] := by
  apply List.eq_nil_iff_forall_not_mem.mpr
  intro s hs
  obtain ⟨hseen, hwet⟩ := mem_windowSlots_of_wet hstart hleg hstop hday hs
  obtain ⟨hmem, hin⟩ := List.mem_filter.mp hseen
  exact absurd hwet (not_le.mpr (rainSummary_dry_iff.mp hdry s hmem hin))

/-- The summary shows at least the rain that a leg in its window is charged for. -/
theorem rainSummary_of_wet {itinerary : Itinerary} {leg : Leg}
    (hstart : itinerary.startTime ≤ leg.startTime) (hleg : leg.startTime ≤ leg.endTime)
    (hstop : leg.endTime ≤ itinerary.endTime)
    (hday : itinerary.endTime < itinerary.startTime + 86400000)
    (hwet : wetSlots ⟨haversineM, fun _ => offset⟩ leg rain threshold ≠ []) :
    (rainSummary ⟨haversineM, fun _ => offset⟩ itinerary (some rain) threshold).1 = some true ∧
      ∃ peak, (rainSummary ⟨haversineM, fun _ => offset⟩ itinerary (some rain) threshold).2 =
          some peak ∧
        roundTo 4 (legRain ⟨haversineM, fun _ => offset⟩ leg rain threshold).2 ≤ peak := by
  obtain ⟨s, hs, hpeak⟩ := (peakMmPerH_spec hwet).1
  obtain ⟨hseen, hs'⟩ := mem_windowSlots_of_wet hstart hleg hstop hday hs
  constructor
  · simp only [rainSummary, Option.some.injEq, List.any_eq_true, decide_eq_true_eq]
    exact ⟨s, hseen, hs'⟩
  · refine ⟨_, rfl, roundTo_mono 4 ?_⟩
    rw [legRain_of_wet hwet]
    calc
      peakMmPerH (wetSlots ⟨haversineM, fun _ => offset⟩ leg rain threshold) = s.mmPerH :=
        hpeak.symm
      _ ≤ peakMmPerH (windowSlots ⟨haversineM, fun _ => offset⟩ itinerary rain) :=
        (peakMmPerH_spec (List.ne_nil_of_mem hseen)).2 s hseen

/-- **The banner agrees with the costs on the bike option.**  If any exposed leg of the
    winning bike itinerary is charged for rain, the recommendation expects rain, and at
    least as much of it as every leg so charged met. -/
theorem banner_shows_charged_rain (haversineM : ℚ → ℚ → ℚ → ℚ → ℚ) (offset : Int)
    (candidates : List Candidate) (rain : RainForecast)
    (hbike : ∃ c ∈ candidates, c.kind = .bike) :
    ∃ plan bike,
      recommend ⟨haversineM, fun _ => offset⟩ candidates (some rain) = some plan ∧
      plan.options.find? (·.kind = .bike) = some bike ∧
      (bike.itinerary.Nested →
        bike.itinerary.endTime < bike.itinerary.startTime + 86400000 →
        ∀ leg ∈ bike.itinerary.legs, leg.mode ∈ exposedModes →
          0 < (legRain ⟨haversineM, fun _ => offset⟩ leg rain defaultRainThresholdMmH).1 →
          plan.rainExpected = some true ∧
            ∃ peak, plan.maxRainMmPerH = some peak ∧
              roundTo 4 (legRain ⟨haversineM, fun _ => offset⟩ leg rain
                defaultRainThresholdMmH).2 ≤ peak) := by
  have hne : candidates ≠ [] := by
    obtain ⟨c, hc, _⟩ := hbike
    exact List.ne_nil_of_mem hc
  obtain ⟨plan, itinerary, hplan, hitinerary, _, hoptions, hexpected, hpeak, _⟩ :=
    recommend_summary ⟨haversineM, fun _ => offset⟩ (some rain) hne
  obtain ⟨c, _, _, _, hfind, _⟩ := @exists_winner ⟨haversineM, fun _ => offset⟩ _ (some rain)
    defaultWeights defaultRainThresholdMmH .bike hbike (by decide)
  refine ⟨plan, _, hplan, by rw [hoptions, hfind], ?_⟩
  have hsummarised : itinerary = (priced ⟨haversineM, fun _ => offset⟩ candidates (some rain)
      defaultWeights defaultRainThresholdMmH c).itinerary := by
    simpa [summaryItinerary, hfind] using hitinerary.symm
  rw [← hsummarised]
  intro hnested hday leg hleg _ hcharged
  have hwet : wetSlots ⟨haversineM, fun _ => offset⟩ leg rain defaultRainThresholdMmH ≠ [] := by
    intro hdry
    rw [legRain_of_dry hdry] at hcharged
    exact lt_irrefl _ hcharged
  obtain ⟨hstart, horder, hstop⟩ := hnested leg hleg
  rw [hexpected, hpeak]
  exact rainSummary_of_wet hstart horder hstop hday hwet

def lastMile : Leg :=
  { mode := "BICYCLE", startTime := 86760000, endTime := 87600000, duration := 840 }

/-- Over midnight by bike, ferry and bike, wet on the ferry and a little on the last leg. -/
def ferryRide : Candidate :=
  ⟨.bike, ⟨1800, 85800000, 87600000,
    [{ mode := "BICYCLE", startTime := 85800000, endTime := 86280000, duration := 480 },
      { mode := "FERRY", startTime := 86280000, endTime := 86760000, duration := 480 }, lastMile]⟩⟩

def ferryRain : RainForecast :=
  ⟨[⟨midnight, 141, 10⟩, ⟨Time.ofMicros 600000000, 77, 1 / 10⟩]⟩

theorem banner_shows_charged_rain_ferryRide :
    ∃ plan peak, recommend flatEnv [ferryRide] (some ferryRain) = some plan ∧
      plan.rainExpected = some true ∧ plan.maxRainMmPerH = some peak ∧
      roundTo 4 (legRain flatEnv lastMile ferryRain defaultRainThresholdMmH).2 ≤ peak := by
  obtain ⟨plan, bike, hplan, hbike, hshows⟩ :=
    banner_shows_charged_rain _ 0 [ferryRide] ferryRain (by decide)
  have hride : ((recommend flatEnv [ferryRide] (some ferryRain)).bind fun plan =>
      (plan.options.find? (·.kind = .bike)).map (·.itinerary)) = some ferryRide.itinerary := by
    decide +kernel
  have hitinerary : bike.itinerary = ferryRide.itinerary := by
    rw [flatEnv, hplan, Option.bind_some, hbike, Option.map_some] at hride
    exact Option.some.inj hride
  rw [hitinerary] at hshows
  obtain ⟨hexpected, peak, hpeak, hle⟩ := hshows
    (by simp [Itinerary.Nested, ferryRide, lastMile]) (by decide) lastMile (by simp [ferryRide])
    (by decide) (by decide +kernel)
  exact ⟨plan, peak, hplan, hexpected, hpeak, hle⟩

/-- Nobody is charged for rain on legs within a window called dry. -/
theorem rainMinutes_eq_zero_of_dry {candidates : List Candidate} {itinerary : Itinerary}
    {s : ScoredCandidate} (hday : itinerary.endTime < itinerary.startTime + 86400000)
    (hdry : (rainSummary ⟨haversineM, fun _ => offset⟩ itinerary (some rain)
      defaultRainThresholdMmH).1 = some false)
    (hs : s ∈ rank ⟨haversineM, fun _ => offset⟩ candidates (some rain))
    (hwithin : ∀ leg ∈ s.itinerary.legs, leg.mode ∈ exposedModes →
      itinerary.startTime ≤ leg.startTime ∧ leg.startTime ≤ leg.endTime ∧
        leg.endTime ≤ itinerary.endTime) :
    s.rainMinutes = 0 := by
  obtain ⟨c, rfl, _⟩ := exists_cheapest_of_mem_rank hs
  rw [priced_itinerary] at hwithin
  have hzero : rainExposure ⟨haversineM, fun _ => offset⟩ c.itinerary.legs rain defaultWeights
      defaultRainThresholdMmH = (0, 0) := by
    apply rainExposure_eq_zero
    intro leg hleg hmode
    obtain ⟨hstart, horder, hstop⟩ := hwithin leg hleg hmode
    exact wetSlots_eq_nil_of_dry hstart horder hstop hday hdry
  rw [priced_rainMinutes]
  simp only [score, hzero]
  exact roundHalfEven_intCast 0

/-- The top option is the one summarised if it is the bike, or nothing else is. -/
theorem summaryItinerary_of_top {env : Env} {candidates : List Candidate}
    {rain : Option RainForecast} {top : ScoredCandidate} {rest : List ScoredCandidate}
    (hrank : rank env candidates rain = top :: rest)
    (hsummarised : top.kind = .bike ∨ ∀ s ∈ top :: rest, s.kind ≠ .bike) :
    summaryItinerary env candidates rain = some top.itinerary := by
  unfold summaryItinerary
  rw [hrank]
  rcases hsummarised with hbike | hnone
  · rw [List.find?_cons_of_pos (by simpa using hbike)]
  · rw [List.find?_eq_none.mpr (by simpa using hnone)]
    rfl

/-- **A dry verdict frees the legs within its window of rain.**  The verdict is about the
    window of the bike winner, or of the top option without one; whatever option is
    travelled within that window has no minute in the rain, so the top option has none
    where it is itself the one summarised. -/
theorem dry_verdict_frees_its_window (haversineM : ℚ → ℚ → ℚ → ℚ → ℚ) (offset : Int)
    (candidates : List Candidate) (rain : Option RainForecast) (hne : candidates ≠ [])
    (hday : ∀ c ∈ candidates, c.itinerary.endTime < c.itinerary.startTime + 86400000)
    (hnested : ∀ c ∈ candidates, c.itinerary.Nested) :
    ∃ plan top rest itinerary,
      recommend ⟨haversineM, fun _ => offset⟩ candidates rain = some plan ∧
      plan.options = top :: rest ∧
      summaryItinerary ⟨haversineM, fun _ => offset⟩ candidates rain = some itinerary ∧
      (plan.rainExpected = some false →
        (∃ said, plan.reason = "dry" ++ said) ∧
        (∀ s ∈ plan.options,
          (∀ leg ∈ s.itinerary.legs, leg.mode ∈ exposedModes →
            itinerary.startTime ≤ leg.startTime ∧ leg.endTime ≤ itinerary.endTime) →
          s.rainMinutes = 0) ∧
        ((top.kind = .bike ∨ ∀ s ∈ plan.options, s.kind ≠ .bike) → top.rainMinutes = 0)) := by
  obtain ⟨plan, itinerary, hplan, hitinerary, ⟨c, hc, rfl⟩, hoptions, hexpected, _,
    ⟨said, hreason⟩, _⟩ := recommend_summary ⟨haversineM, fun _ => offset⟩ rain hne
  obtain ⟨top, rest, htop⟩ : ∃ top rest, plan.options = top :: rest := by
    rw [hoptions]
    apply List.exists_cons_of_ne_nil
    intro hnil
    simp [summaryItinerary, hnil] at hitinerary
  refine ⟨plan, top, rest, c.itinerary, hplan, htop, hitinerary, ?_⟩
  intro hdry
  cases rain with
  | none =>
      rw [hexpected] at hdry
      cases hdry
  | some rain =>
      have hlegs : ∀ s ∈ plan.options, s.itinerary.Nested := by
        intro s hs
        rw [hoptions] at hs
        obtain ⟨c', hc', heq⟩ := exists_candidate_of_mem_rank hs
        rw [← heq]
        exact hnested c' hc'
      have hfree : ∀ s ∈ plan.options,
          (∀ leg ∈ s.itinerary.legs, leg.mode ∈ exposedModes →
            c.itinerary.startTime ≤ leg.startTime ∧ leg.endTime ≤ c.itinerary.endTime) →
          s.rainMinutes = 0 := by
        intro s hs hwithin
        apply rainMinutes_eq_zero_of_dry (hday c hc) (hexpected.symm.trans hdry) (hoptions ▸ hs)
        intro leg hleg hmode
        obtain ⟨hstart, hstop⟩ := hwithin leg hleg hmode
        exact ⟨hstart, (hlegs s hs leg hleg).2.1, hstop⟩
      refine ⟨?_, hfree, ?_⟩
      · rw [hreason, hdry]
        exact reason_dry said _
      · intro hsummarised
        have hmem : top ∈ plan.options := htop ▸ List.mem_cons_self
        have heq : top.itinerary = c.itinerary := by
          have htop' := summaryItinerary_of_top (hoptions.symm.trans htop) (htop ▸ hsummarised)
          rw [hitinerary] at htop'
          exact (Option.some.inj htop').symm
        apply hfree top hmem
        intro leg hleg _
        obtain ⟨hstart, _, hstop⟩ := hlegs top hmem leg hleg
        rw [← heq]
        exact ⟨hstart, hstop⟩

/-- A ride of forty minutes from midnight, and a walk to a metro at a quarter to one. -/
def slowRide : Candidate :=
  ⟨.bike, ⟨2400, 0, 2400000,
    [{ mode := "BICYCLE", startTime := 0, endTime := 2400000, duration := 2400 }]⟩⟩

def laterMetro : Candidate :=
  ⟨.transit, ⟨900, 2700000, 3600000,
    [{ mode := "WALK", startTime := 2700000, endTime := 3000000, duration := 300 },
      { mode := "SUBWAY", startTime := 3000000, endTime := 3600000, duration := 600 }]⟩⟩

/-- It begins to rain at a quarter to one. -/
def laterRain : RainForecast := ⟨[⟨Time.ofMicros 2700000000, 77, 1 / 10⟩]⟩

theorem dry_verdict_frees_its_window_slowRide :
    ∃ plan, recommend flatEnv [slowRide, laterMetro] (some laterRain) = some plan ∧
      plan.rainExpected = some false ∧ (∃ said, plan.reason = "dry" ++ said) ∧
      (∀ s ∈ plan.options, s.kind = .bike → s.rainMinutes = 0) ∧
      ∃ s ∈ plan.options, s.kind = .transit ∧ s.rainMinutes = 5 := by
  obtain ⟨plan, top, rest, itinerary, hplan, _, hsummary, hfrees⟩ :=
    dry_verdict_frees_its_window _ 0 [slowRide, laterMetro] (some laterRain) (by decide)
      (by decide) (by simp [slowRide, laterMetro, Itinerary.Nested])
  have hride : summaryItinerary flatEnv [slowRide, laterMetro] (some laterRain) =
      some slowRide.itinerary := by decide +kernel
  have hoptions : (recommend flatEnv [slowRide, laterMetro] (some laterRain)).map (fun plan =>
      (plan.rainExpected, plan.options.map fun s => (s.kind, s.itinerary, s.rainMinutes))) =
      some (some false, [(.transit, laterMetro.itinerary, 5), (.bike, slowRide.itinerary, 0)]) := by
    decide +kernel
  cases hride.symm.trans hsummary
  rw [flatEnv, hplan, Option.map_some, Option.some.injEq, Prod.mk.injEq] at hoptions
  obtain ⟨hexpected, hoptions⟩ := hoptions
  obtain ⟨hreason, hwindow, _⟩ := hfrees hexpected
  refine ⟨plan, hplan, hexpected, hreason, ?_, ?_⟩
  · intro s hs hkind
    -- the ride lies in its own window, the metro does not
    have hmem := List.mem_map_of_mem (f := fun s => (s.kind, s.itinerary, s.rainMinutes)) hs
    rw [hoptions] at hmem
    rcases List.mem_cons.mp hmem with hmetro | hmem
    · cases hkind.symm.trans (Prod.mk.inj hmetro).1
    · obtain ⟨_, hrest⟩ := Prod.mk.inj (List.mem_singleton.mp hmem)
      apply hwindow s hs
      rw [(Prod.mk.inj hrest).1]
      decide
  · have hmem : (.transit, laterMetro.itinerary, 5) ∈
        plan.options.map fun s => (s.kind, s.itinerary, s.rainMinutes) := by
      rw [hoptions]
      exact List.mem_cons_self
    obtain ⟨s, hs, heq⟩ := List.mem_map.mp hmem
    exact ⟨s, hs, congrArg (·.1) heq, congrArg (·.2.2) heq⟩

/-- The ride is dry, the metro is still the faster option, and the walk to it is wet. -/
theorem dry_verdict_for_a_wet_walk :
    ¬ ∀ (haversineM : ℚ → ℚ → ℚ → ℚ → ℚ) (offset : Int) (candidates : List Candidate)
        (rain : Option RainForecast) (plan : RankedPlan) (top : ScoredCandidate),
      candidates ≠ [] →
      (∀ c ∈ candidates, c.itinerary.endTime < c.itinerary.startTime + 86400000) →
      (∀ c ∈ candidates, c.itinerary.Nested) →
      (∀ c ∈ candidates, c.itinerary.legs.Pairwise fun leg next => leg.endTime ≤ next.startTime) →
      recommend ⟨haversineM, fun _ => offset⟩ candidates rain = some plan →
      plan.options.head? = some top → plan.rainExpected = some false → top.rainMinutes = 0 := by
  intro hall
  have hverdict : (recommend flatEnv [slowRide, laterMetro]
      (some laterRain)).map (fun plan =>
        (plan.rainExpected, plan.options.head?.map (·.rainMinutes))) =
      some (some false, some 5) := by decide +kernel
  obtain ⟨plan, hplan, hboth⟩ := Option.map_eq_some_iff.mp hverdict
  obtain ⟨hexpected, hminutes⟩ := Prod.mk.inj hboth
  obtain ⟨top, htop, hfive⟩ := Option.map_eq_some_iff.mp hminutes
  have hzero := hall _ 0 [slowRide, laterMetro] _ plan top (by decide) (by decide)
    (by simp [slowRide, laterMetro, Itinerary.Nested]) (by simp [slowRide, laterMetro]) hplan htop
    hexpected
  rw [hzero] at hfive
  exact absurd hfive (by decide)

end FietsOfOv
