import FietsOfOv.Scoring

/-!
# The recommendation

`app/services/advice.py`: the ranked options, the rain summary over the bike
winner's window (or over the top option's, without a bike), and the sentence
that explains the choice.
-/

namespace FietsOfOv

open WallClock Decimal

/-- `_minutes`. -/
def minutes (seconds : ℚ) : Int := roundHalfEven (seconds / 60)

structure RankedPlan where
  options : List ScoredCandidate
  recommendation : OptionKind
  reason : String
  maxRainMmPerH : Option ℚ
  rainExpected : Option Bool
  bikeMinutes : Option Int
  transitMinutes : Option Int
  forecastDegraded : Bool

variable (env : Env)

/-- The forecast slots inside an itinerary's window. -/
def windowSlots (itinerary : Itinerary) (rain : RainForecast) : List RainSlot :=
  rain.slots.filter fun s =>
    inTimeWindow s.time (localTime env itinerary.startTime) (localTime env itinerary.endTime)

/-- `_rain_summary`: wet or dry, and the peak, `(none, none)` without a forecast. -/
def rainSummary (itinerary : Itinerary) (rain : Option RainForecast) (threshold : ℚ) :
    Option Bool × Option ℚ :=
  match rain with
  | none => (none, none)
  | some rain =>
      let window := windowSlots env itinerary rain
      (some (window.any (threshold ≤ ·.mmPerH)), some (roundTo 4 (peakMmPerH window)))

/-- `_boarding_line`; `toLower` is `str.lower` on ASCII, which the modes of OTP are. -/
def boardingLine (itinerary : Itinerary) : Option String :=
  itinerary.legs.findSome? fun leg =>
    match leg.routeShortName with
    | some route =>
        if leg.mode ∉ exposedModes ∧ route ≠ "" then some (leg.mode.toLower ++ " " ++ route)
        else none
    | none => none

/-- `_bike_handoff_stop`. -/
def bikeHandoffStop (itinerary : Itinerary) : Option String :=
  (itinerary.legs.find? (·.mode = "BICYCLE")).bind (·.toName)

/-- Python's `value or default` on an optional string. -/
def orElseText (value : Option String) (default : String) : String :=
  match value with
  | some text => if text = "" then default else text
  | none => default

/-- `_reason`. -/
def reason (top : ScoredCandidate) (rainExpected : Option Bool) (peak : Option ℚ) : String :=
  let mins := toString (minutes top.itinerary.duration)
  let wet := match peak with
    | some peak => "~" ++ formatG peak ++ " mm/h"
    | none => "rain"
  match rainExpected, top.kind with
  | none, .bike => "rain forecast unavailable -> fastest is bike (" ++ mins ++ " min)"
  | none, .transit => "rain forecast unavailable -> fastest is transit (" ++ mins ++ " min)"
  | none, .bikeAndRide =>
      "rain forecast unavailable -> fastest is bike + transit (" ++ mins ++ " min)"
  | some false, .bike => "dry during your " ++ mins ++ "-min ride -> bike"
  | some false, .transit => "dry -> fastest is transit (" ++ mins ++ " min)"
  | some false, .bikeAndRide => "dry -> fastest is bike and ride (" ++ mins ++ " min)"
  | some true, .transit =>
      "rain (" ++ wet ++ ") -> take " ++ orElseText (boardingLine top.itinerary) "public transport"
        ++ " (" ++ mins ++ " min)"
  | some true, .bikeAndRide =>
      "rain (" ++ wet ++ ") -> bike to " ++ orElseText (bikeHandoffStop top.itinerary) "the stop"
        ++ ", then " ++ orElseText (boardingLine top.itinerary) "public transport"
        ++ " (" ++ mins ++ " min)"
  | some true, .bike =>
      "rain (" ++ wet ++ ") but bike is still fastest -> bike (" ++ mins
        ++ " min), bring a raincoat"

/-- `recommend`; `none` is the `IndexError` of `ordered[0]` without candidates. -/
def recommend (candidates : List Candidate) (rain : Option RainForecast) : Option RankedPlan :=
  let ordered := rank env candidates rain
  match ordered with
  | [] => none
  | top :: _ =>
      let bike := ordered.find? (·.kind = .bike)
      let transit := ordered.find? (·.kind = .transit)
      let summaryItin := match bike with
        | some bike => bike.itinerary
        | none => top.itinerary
      let (rainExpected, peak) := rainSummary env summaryItin rain defaultRainThresholdMmH
      some {
        options := ordered
        recommendation := top.kind
        reason := reason top rainExpected peak
        maxRainMmPerH := peak
        rainExpected := rainExpected
        bikeMinutes := bike.map fun bike => minutes bike.itinerary.duration
        transitMinutes := transit.map fun transit => minutes transit.itinerary.duration
        forecastDegraded := rain.isNone }

/-- The itinerary whose window `recommend` summarises. -/
def summaryItinerary (candidates : List Candidate) (rain : Option RainForecast) :
    Option Itinerary :=
  match (rank env candidates rain).find? (·.kind = .bike) with
  | some bike => some bike.itinerary
  | none => (rank env candidates rain).head?.map (·.itinerary)

end FietsOfOv
