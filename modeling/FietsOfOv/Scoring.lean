import FietsOfOv.Itinerary
import FietsOfOv.Lib.Dict
import Mathlib.Data.List.Sort

/-!
# Rain-aware generalized cost

`app/services/scoring.py` with the helpers it uses of `app/services/amsterdam.py`:
each candidate gets a cost in minutes, and `rank` keeps the cheapest candidate
of every kind.  Costs are exact rationals, rounded where the source rounds.
-/

namespace FietsOfOv

open WallClock Decimal

/-! ## Kinds of candidates -/

inductive OptionKind where
  | bike
  | transit
  | bikeAndRide
deriving DecidableEq, Repr

/-- The literal the source uses for the kind. -/
def OptionKind.name : OptionKind → String
  | .bike => "bike"
  | .transit => "transit"
  | .bikeAndRide => "bike_and_ride"

/-- `_EXPOSED_MODES`, which are also the `_STREET_MODES` of `amsterdam.py`. -/
def exposedModes : List String := ["BICYCLE", "WALK"]

/-- `classify_kind`; `none` is a walk-only trip. -/
def classifyKind (itinerary : Itinerary) : Option OptionKind :=
  let hasBike := itinerary.legs.any (·.mode = "BICYCLE")
  let transitModes := (itinerary.legs.map (·.mode)).filter (· ∉ exposedModes)
  if hasBike ∧ transitModes.filter (· ≠ "FERRY") ≠ [] then some .bikeAndRide
  else if hasBike then some .bike
  else if transitModes ≠ [] then some .transit
  else none

structure Candidate where
  kind : OptionKind
  itinerary : Itinerary
deriving DecidableEq

structure Weights where
  rainBands : List (ℚ × ℚ) := [(1 / 10, 0), (1 / 2, 1 / 2), (3 / 2, 3 / 2), (4, 3)]
  heavyPenalty : ℚ := 6
  transferPenaltyMin : ℚ := 5
  hubTransferPenaltyMin : ℚ := 2
  ferryBonusMin : ℚ := 3
  stationAccessBonusMin : ℚ := 2
  transitBiasMin : ℚ := 10
  departDelayFactor : ℚ := 1
  maxDepartWaitMin : ℚ := 30

def defaultWeights : Weights := {}

/-- `DEFAULT_RAIN_THRESHOLD_MM_H`. -/
def defaultRainThresholdMmH : ℚ := 1 / 10

structure ScoredCandidate where
  kind : OptionKind
  itinerary : Itinerary
  cost : ℚ
  rainMinutes : Int
deriving DecidableEq

/-! ## Local knowledge (`amsterdam.py`) -/

/-- `HUB_RADIUS_M`. -/
def hubRadiusM : ℚ := 250

/-- The coordinates of `MAJOR_HUBS`. -/
def majorHubs : List (ℚ × ℚ) :=
  [(523791 / 10000, 49003 / 10000), (523389 / 10000, 48730 / 10000),
   (523467 / 10000, 49177 / 10000), (523889 / 10000, 48375 / 10000),
   (523576 / 10000, 48378 / 10000), (523122 / 10000, 49471 / 10000),
   (523268 / 10000, 49370 / 10000), (523376 / 10000, 48896 / 10000),
   (523603 / 10000, 49280 / 10000)]

variable (env : Env)

/-- `is_near_hub`, `False` at once where a coordinate is missing. -/
def isNearHub : Option ℚ → Option ℚ → Bool
  | some lat, some lon => majorHubs.any fun hub => env.haversineM lat lon hub.1 hub.2 ≤ hubRadiusM
  | _, _ => false

/-- `transfer_points`: where every transit leg after the first is boarded. -/
def transferPoints (itinerary : Itinerary) : List (ℚ × ℚ) :=
  ((itinerary.legs.filter (·.mode ∉ exposedModes)).drop 1).filterMap fun leg =>
    match leg.fromLat, leg.fromLon with
    | some lat, some lon => some (lat, lon)
    | _, _ => none

def hasFerry (itinerary : Itinerary) : Bool := itinerary.legs.any (·.mode = "FERRY")

/-- `bike_handoff_point`: where the first bicycle leg ends. -/
def bikeHandoffPoint (itinerary : Itinerary) : Option (ℚ × ℚ) :=
  match itinerary.legs.find? (·.mode = "BICYCLE") with
  | none => none
  | some leg =>
      match leg.toLat, leg.toLon with
      | some lat, some lon => some (lat, lon)
      | _, _ => none

/-! ## Rain on a leg -/

/-- `local_time`: an epoch millisecond on the Amsterdam clock.  `Raising.localTime` adds that
    `datetime` raises beyond the years it knows. -/
def localTime (epochMs : Int) : Time := Time.ofMicros ((epochMs + env.utcOffset epochMs) * 1000)

/-- `in_time_window`, with a window that may wrap past midnight. -/
def inTimeWindow (t start stop : Time) : Bool :=
  if start ≤ stop then start ≤ t ∧ t ≤ stop else start ≤ t ∨ t ≤ stop

/-- `max(s.mm_per_h for s in slots)`, or `0.0` without slots. -/
def peakMmPerH : List RainSlot → ℚ
  | [] => 0
  | slot :: slots => slots.foldl (fun peak s => max peak s.mmPerH) slot.mmPerH

/-- `_rain_penalty`: the first band the peak lies strictly below. -/
def rainPenalty (peak : ℚ) (weights : Weights) : ℚ :=
  match weights.rainBands.find? (fun band => peak < band.1) with
  | some band => band.2
  | none => weights.heavyPenalty

/-- `_leg_rain`: the exposed minutes and the peak over the leg's window. -/
def legRain (leg : Leg) (rain : RainForecast) (threshold : ℚ) : ℚ × ℚ :=
  let start := localTime env leg.startTime
  let stop := localTime env leg.endTime
  let wet := rain.slots.filter fun s => inTimeWindow s.time start stop ∧ threshold ≤ s.mmPerH
  if wet = [] then (0, 0)
  else (min (leg.duration / 60) (5 * wet.length), peakMmPerH wet)

/-- The loop of `score` over the legs: exposed minutes and their cost so far. -/
def rainExposure (legs : List Leg) (rain : RainForecast) (weights : Weights) (threshold : ℚ) :
    ℚ × ℚ :=
  legs.foldl (fun total leg =>
    if leg.mode ∈ exposedModes then
      let (exposed, peak) := legRain env leg rain threshold
      (total.1 + exposed, total.2 + exposed * rainPenalty peak weights)
    else total) (0, 0)

/-! ## Cost and ranking -/

def score (candidate : Candidate) (rain : Option RainForecast) (weights : Weights)
    (threshold : ℚ) : ScoredCandidate :=
  let itin := candidate.itinerary
  let (rainMinutes, rainCost) :=
    match rain with
    | some rain => rainExposure env itin.legs rain weights threshold
    | none => (0, 0)
  let transferCost := ((transferPoints itin).map fun p =>
    if isNearHub env (some p.1) (some p.2) then weights.hubTransferPenaltyMin
    else weights.transferPenaltyMin).sum
  let ferryBonus := if hasFerry itin then weights.ferryBonusMin else 0
  let stationBonus :=
    if candidate.kind = .bikeAndRide ∧
        isNearHub env ((bikeHandoffPoint itin).map (·.1)) ((bikeHandoffPoint itin).map (·.2))
    then weights.stationAccessBonusMin else 0
  let bias := if candidate.kind ≠ .bike then weights.transitBiasMin else 0
  { kind := candidate.kind
    itinerary := itin
    cost := roundTo 4
      (itin.duration / 60 + rainCost + transferCost + bias - ferryBonus - stationBonus)
    rainMinutes := roundHalfEven rainMinutes }

/-- The first loop of `rank`: each kind's earliest departure. -/
def earliestMs (candidates : List Candidate) : List (OptionKind × Int) :=
  candidates.foldl (fun earliest c =>
    let start := c.itinerary.startTime
    Dict.set earliest c.kind
      (match Dict.get earliest c.kind with
      | none => start
      | some prior => min prior start)) []

/-- `delay_min`: the minutes a candidate leaves after its kind's earliest one. -/
def delayMin (earliest : List (OptionKind × Int)) (c : Candidate) : ℚ :=
  (c.itinerary.startTime - (Dict.get earliest c.kind).getD c.itinerary.startTime : ℚ) / 60000

/-- A candidate's score with the minutes waited for it priced in. -/
def adjustedScore (candidate : Candidate) (delay : ℚ) (rain : Option RainForecast)
    (weights : Weights) (threshold : ℚ) : ScoredCandidate :=
  let scored := score env candidate rain weights threshold
  if delay ≠ 0 then
    { scored with cost := roundTo 4 (scored.cost + delay * weights.departDelayFactor) }
  else scored

/-- The second loop of `rank`: each kind's best candidate within the departure cap. -/
def bestPerKind (candidates : List Candidate) (rain : Option RainForecast) (weights : Weights)
    (threshold : ℚ) : List (OptionKind × ScoredCandidate) :=
  let earliest := earliestMs candidates
  candidates.foldl (fun best c =>
    let delay := delayMin earliest c
    if weights.maxDepartWaitMin < delay then best
    else
      let scored := adjustedScore env c delay rain weights threshold
      match Dict.get best scored.kind with
      | none => Dict.set best scored.kind scored
      | some current =>
          if scored.cost < current.cost then Dict.set best scored.kind scored else best) []

/-- The sort key of `rank`: `(cost, itinerary.duration, kind)`. -/
def comesFirst (s t : ScoredCandidate) : Prop :=
  s.cost < t.cost ∨ s.cost = t.cost ∧
    (s.itinerary.duration < t.itinerary.duration ∨
      s.itinerary.duration = t.itinerary.duration ∧ s.kind.name ≤ t.kind.name)

instance : DecidableRel comesFirst := fun s t => by
  unfold comesFirst
  infer_instance

def rank (candidates : List Candidate) (rain : Option RainForecast)
    (weights : Weights := defaultWeights) (threshold : ℚ := defaultRainThresholdMmH) :
    List ScoredCandidate :=
  ((bestPerKind env candidates rain weights threshold).map (·.2)).insertionSort comesFirst

end FietsOfOv
