import FietsOfOv.Advice
import FietsOfOv.Lib.Loop

/-!
# What a ranking raises

`datetime.fromtimestamp` knows the years 1 to 9999, and the quotient of two integers has to
be one of the floats.  Beyond that the functions of `scoring.py` and `advice.py` raise.
Here they are once more with their exceptions: `recommend` has a value where every time it
reads is on the calendar, and it is then the one in exact numbers.
-/

namespace FietsOfOv

open WallClock

/-! ## Times and quotients -/

/-- The years 1 to 9999, in epoch milliseconds. -/
def OnCalendar (epochMs : Int) : Prop := -62135596800000 ≤ epochMs ∧ epochMs < 253402300800000

instance (epochMs : Int) : Decidable (OnCalendar epochMs) :=
  inferInstanceAs (Decidable (_ ∧ _))

variable (env : Env)

/-- The moment is on the calendar in UTC, and on the Amsterdam clock. -/
def Datable (epochMs : Int) : Prop :=
  OnCalendar epochMs ∧ OnCalendar (epochMs + env.utcOffset epochMs)

instance (epochMs : Int) : Decidable (Datable env epochMs) := inferInstanceAs (Decidable (_ ∧ _))

example : Datable flatEnv 1780000000000 ∧ ¬ Datable flatEnv (10 ^ 17) := by decide

/-- From half a unit beyond the largest double on, a quotient is no float. -/
def quotientLimit : Nat := 2 ^ 1024 - 2 ^ 970

/-- The milliseconds a candidate leaves after its kind's earliest one. -/
def waitedMs (earliest : List (OptionKind × Int)) (c : Candidate) : Int :=
  c.itinerary.startTime - (Dict.get earliest c.kind).getD c.itinerary.startTime

namespace Raising

/-! ## The functions with their exceptions -/

/-- `local_time`. -/
def localTime (epochMs : Int) : Option Time :=
  if Datable env epochMs then some (FietsOfOv.localTime env epochMs) else none

/-- `_leg_rain`: both ends are read before anything else. -/
def legRain (leg : Leg) (rain : RainForecast) (threshold : ℚ) : Option (ℚ × ℚ) := do
  let _ ← localTime env leg.startTime
  let _ ← localTime env leg.endTime
  return FietsOfOv.legRain env leg rain threshold

/-- The loop of `score` over the legs. -/
def rainExposure (legs : List Leg) (rain : RainForecast) (weights : Weights) (threshold : ℚ) :
    Option (ℚ × ℚ) :=
  legs.foldlM (fun total leg =>
    if leg.mode ∈ exposedModes then do
      let (exposed, peak) ← legRain env leg rain threshold
      return (total.1 + exposed, total.2 + exposed * rainPenalty peak weights)
    else some total) (0, 0)

/-- `score`, in which nothing but the loop over the legs can raise. -/
def score (candidate : Candidate) (rain : Option RainForecast) (weights : Weights)
    (threshold : ℚ) : Option ScoredCandidate := do
  if let some rain := rain then
    let _ ← rainExposure env candidate.itinerary.legs rain weights threshold
  return FietsOfOv.score env candidate rain weights threshold

/-- `delay_min`, a quotient of integers. -/
def delayMin (earliest : List (OptionKind × Int)) (c : Candidate) : Option ℚ :=
  if (waitedMs earliest c).natAbs < 60000 * quotientLimit then
    some (FietsOfOv.delayMin earliest c)
  else none

/-- One turn of the second loop of `rank`. -/
def consider (earliest : List (OptionKind × Int)) (rain : Option RainForecast) (weights : Weights)
    (threshold : ℚ) (best : List (OptionKind × ScoredCandidate)) (c : Candidate) :
    Option (List (OptionKind × ScoredCandidate)) := do
  let delay ← delayMin earliest c
  if weights.maxDepartWaitMin < delay then return best
  else
    let scored ← score env c rain weights threshold
    let scored := if delay ≠ 0 then
      { scored with
        cost := Decimal.roundTo 4 (scored.cost + delay * weights.departDelayFactor) }
      else scored
    return match Dict.get best scored.kind with
    | none => Dict.set best scored.kind scored
    | some current =>
        if scored.cost < current.cost then Dict.set best scored.kind scored else best

def rank (candidates : List Candidate) (rain : Option RainForecast)
    (weights : Weights := defaultWeights) (threshold : ℚ := defaultRainThresholdMmH) :
    Option (List ScoredCandidate) := do
  let best ← candidates.foldlM (consider env (earliestMs candidates) rain weights threshold) []
  return (best.map (·.2)).insertionSort comesFirst

/-- `_rain_summary`. -/
def rainSummary (itinerary : Itinerary) (rain : Option RainForecast) (threshold : ℚ) :
    Option (Option Bool × Option ℚ) := do
  if rain.isSome then
    let _ ← localTime env itinerary.startTime
    let _ ← localTime env itinerary.endTime
  return FietsOfOv.rainSummary env itinerary rain threshold

/-- `recommend`; `none` is whatever it raises. -/
def recommend (candidates : List Candidate) (rain : Option RainForecast) : Option RankedPlan := do
  let ordered ← rank env candidates rain
  let top ← ordered.head?
  let summaryItin := match ordered.find? (·.kind = .bike) with
    | some bike => bike.itinerary
    | none => top.itinerary
  let (rainExpected, peak) ← rainSummary env summaryItin rain defaultRainThresholdMmH
  return {
    options := ordered
    recommendation := top.kind
    reason := reason top rainExpected peak
    maxRainMmPerH := peak
    rainExpected := rainExpected
    bikeMinutes := (ordered.find? (·.kind = .bike)).map (minutes ·.itinerary.duration)
    transitMinutes := (ordered.find? (·.kind = .transit)).map (minutes ·.itinerary.duration)
    forecastDegraded := rain.isNone }

end Raising

/-! ## What has to be on the calendar -/

/-- Every leg in the open begins and ends on the calendar. -/
def LegsDatable (legs : List Leg) : Prop :=
  ∀ leg ∈ legs, leg.mode ∈ exposedModes → Datable env leg.startTime ∧ Datable env leg.endTime

instance (legs : List Leg) : Decidable (LegsDatable env legs) :=
  inferInstanceAs (Decidable (∀ leg ∈ legs, _ → _))

/-- The times that a ranking reads: all departures, and with a forecast the legs in the open
    of the candidates that compete. -/
structure RankDated (candidates : List Candidate) (rain : Option RainForecast)
    (weights : Weights := defaultWeights) : Prop where
  delays : ∀ c ∈ candidates,
    (waitedMs (earliestMs candidates) c).natAbs < 60000 * quotientLimit
  legs : rain.isSome = true → ∀ c ∈ candidates,
    delayMin (earliestMs candidates) c ≤ weights.maxDepartWaitMin →
      LegsDatable env c.itinerary.legs

/-- The times that a recommendation reads: those of the ranking, and with a forecast the
    window that it summarises. -/
structure Dated (candidates : List Candidate) (rain : Option RainForecast) : Prop
    extends RankDated env candidates rain where
  summary : rain.isSome = true → ∀ itinerary,
    summaryItinerary env candidates rain = some itinerary →
      Datable env itinerary.startTime ∧ Datable env itinerary.endTime

variable {env} {candidates : List Candidate} {rain : Option RainForecast} {weights : Weights}
  {threshold : ℚ} {earliest : List (OptionKind × Int)}

namespace Raising

theorem legRain_eq (leg : Leg) (forecast : RainForecast) :
    legRain env leg forecast threshold =
      if Datable env leg.startTime ∧ Datable env leg.endTime then
        some (FietsOfOv.legRain env leg forecast threshold)
      else none := by
  unfold legRain localTime
  by_cases hstart : Datable env leg.startTime
  · by_cases hstop : Datable env leg.endTime <;> simp [hstart, hstop]
  · simp [hstart]

theorem rainExposure_eq (legs : List Leg) (forecast : RainForecast) :
    rainExposure env legs forecast weights threshold =
      if LegsDatable env legs then
        some (FietsOfOv.rainExposure env legs forecast weights threshold)
      else none := by
  unfold rainExposure FietsOfOv.rainExposure
  apply Loop.foldlM_guarded
  intro total leg
  rw [legRain_eq]
  by_cases hmode : leg.mode ∈ exposedModes
  · by_cases hdated : Datable env leg.startTime ∧ Datable env leg.endTime <;> simp [hmode, hdated]
  · simp [hmode]

theorem score_eq (c : Candidate) :
    score env c rain weights threshold =
      if rain.isSome = true → LegsDatable env c.itinerary.legs then
        some (FietsOfOv.score env c rain weights threshold)
      else none := by
  unfold score
  cases rain with
  | none => simp
  | some forecast =>
      simp only [rainExposure_eq]
      by_cases hdated : LegsDatable env c.itinerary.legs <;> simp [hdated]

/-- A turn of the loop raises by its candidate alone. -/
theorem foldlM_consider (candidates : List Candidate) :
    candidates.foldlM (consider env (earliestMs candidates) rain weights threshold) [] =
      if ∀ c ∈ candidates,
          (waitedMs (earliestMs candidates) c).natAbs < 60000 * quotientLimit ∧
            (rain.isSome = true →
              FietsOfOv.delayMin (earliestMs candidates) c ≤ weights.maxDepartWaitMin →
                LegsDatable env c.itinerary.legs) then
        some (bestPerKind env candidates rain weights threshold)
      else none := by
  unfold bestPerKind
  apply Loop.foldlM_guarded
  intro best c
  unfold consider delayMin adjustedScore
  by_cases hquotient : (waitedMs (earliestMs candidates) c).natAbs < 60000 * quotientLimit
  · by_cases hlate : weights.maxDepartWaitMin < FietsOfOv.delayMin (earliestMs candidates) c
    · simp [hquotient, hlate]
    · have hcompetes := not_lt.mp hlate
      by_cases hlegs : rain.isSome = true → LegsDatable env c.itinerary.legs
      · refine Eq.trans ?_ (if_pos ⟨hquotient, fun hrain _ => hlegs hrain⟩).symm
        rw [score_eq, if_pos hlegs, if_pos hquotient]
        simp only [Option.bind_eq_bind, Option.bind_some, if_neg hlate]
        rfl
      · refine Eq.trans ?_ (if_neg fun h => hlegs fun hrain => h.2 hrain hcompetes).symm
        rw [score_eq, if_neg hlegs]
        simp [hquotient, hlate]
  · simp [hquotient]

theorem rank_eq_some {ordered : List ScoredCandidate} :
    rank env candidates rain weights threshold = some ordered ↔
      RankDated env candidates rain weights ∧
        ordered = FietsOfOv.rank env candidates rain weights threshold := by
  unfold rank FietsOfOv.rank
  rw [foldlM_consider]
  split
  · rename_i hdated
    have hranks : RankDated env candidates rain weights :=
      ⟨fun c hc => (hdated c hc).1, fun hrain c hc => (hdated c hc).2 hrain⟩
    simp [hranks, eq_comm]
  · rename_i hundated
    have hraises : ¬ RankDated env candidates rain weights := by
      intro h
      exact hundated fun c hc => ⟨h.delays c hc, fun hrain => h.legs hrain c hc⟩
    simp [hraises]

theorem rainSummary_eq (itinerary : Itinerary) :
    rainSummary env itinerary rain threshold =
      if rain.isSome = true →
          Datable env itinerary.startTime ∧ Datable env itinerary.endTime then
        some (FietsOfOv.rainSummary env itinerary rain threshold)
      else none := by
  unfold rainSummary localTime
  by_cases hrain : rain.isSome = true
  · by_cases hstart : Datable env itinerary.startTime
    · by_cases hstop : Datable env itinerary.endTime <;> simp [hrain, hstart, hstop]
    · simp [hrain, hstart]
  · simp [hrain]

theorem dated_of_summary (hranks : RankDated env candidates rain) {itinerary : Itinerary}
    (hsummary : summaryItinerary env candidates rain = some itinerary) :
    Dated env candidates rain ↔
      (rain.isSome = true → Datable env itinerary.startTime ∧ Datable env itinerary.endTime) := by
  constructor
  · intro h hrain
    exact h.summary hrain itinerary hsummary
  · intro h
    refine ⟨hranks, fun hrain other hother => ?_⟩
    cases hsummary.symm.trans hother
    exact h hrain

/-- **When `recommend` has a value**: every time that it reads is on the calendar, and there
    is a candidate.  The value is the one in exact numbers. -/
theorem recommend_eq_some {plan : RankedPlan} :
    recommend env candidates rain = some plan ↔
      Dated env candidates rain ∧ FietsOfOv.recommend env candidates rain = some plan := by
  unfold recommend
  by_cases hranks : RankDated env candidates rain
  · have hordered : rank env candidates rain = some (FietsOfOv.rank env candidates rain) :=
      rank_eq_some.mpr ⟨hranks, rfl⟩
    rw [hordered, Option.bind_eq_bind, Option.bind_some]
    cases hrank : FietsOfOv.rank env candidates rain with
    | nil => simp [FietsOfOv.recommend, hrank]
    | cons top rest =>
        have hfirst : summaryItinerary env candidates rain =
            some (match (top :: rest).find? (·.kind = .bike) with
              | some bike => bike.itinerary
              | none => top.itinerary) := by
          unfold summaryItinerary
          rw [hrank]
          cases (top :: rest).find? (·.kind = .bike) <;> rfl
        rw [dated_of_summary hranks hfirst]
        simp only [List.head?_cons, rainSummary_eq, FietsOfOv.recommend, hrank]
        cases (top :: rest).find? (·.kind = .bike) with
        | none => exact Loop.guard_bind_eq_some
        | some bike => exact Loop.guard_bind_eq_some
  · have hraises : rank env candidates rain = none := by
      rw [Option.eq_none_iff_forall_ne_some]
      intro ordered hordered
      exact hranks (rank_eq_some.mp hordered).1
    rw [hraises]
    constructor
    · intro h
      cases h
    · rintro ⟨hdated, _⟩
      exact absurd hdated.toRankDated hranks

end Raising

end FietsOfOv
