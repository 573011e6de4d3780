import FietsOfOv.Lib.Decimal
import FietsOfOv.Lib.WallClock

/-!
# What the two upstreams answer

The parsed answers of OpenTripPlanner (`app/clients/otp.py`) and Buienradar
(`app/clients/buienradar.py`).  Floats are read as exact rationals.  `Env` holds
the two things the code takes from outside its own text: the great-circle
distance, which `geo.haversine_m` computes with the `math` library, and the
Amsterdam clock, which comes from the time zone database.
-/

namespace FietsOfOv

open WallClock

/-- `LegStep`. -/
structure LegStep where
  distance : Option ℚ := none
  relativeDirection : Option String := none
  streetName : Option String := none
deriving DecidableEq

/-- `Leg`: one mode between two points. -/
structure Leg where
  mode : String
  startTime : Int
  endTime : Int
  duration : ℚ
  distance : Option ℚ := none
  routeShortName : Option String := none
  routeLongName : Option String := none
  headsign : Option String := none
  fromName : Option String := none
  fromLat : Option ℚ := none
  fromLon : Option ℚ := none
  toName : Option String := none
  toLat : Option ℚ := none
  toLon : Option ℚ := none
  geometry : Option String := none
  steps : List LegStep := []
deriving DecidableEq

/-- `Itinerary`: times in epoch milliseconds, durations in seconds. -/
structure Itinerary where
  duration : ℚ
  startTime : Int
  endTime : Int
  legs : List Leg
deriving DecidableEq

/-- `RainSlot`. -/
structure RainSlot where
  time : Time
  intensity : Int
  mmPerH : ℚ
deriving DecidableEq

/-- `RainForecast`. -/
structure RainForecast where
  slots : List RainSlot
deriving DecidableEq

structure Env where
  /-- `geo.haversine_m(lat1, lon1, lat2, lon2)` in metres. -/
  haversineM : ℚ → ℚ → ℚ → ℚ → ℚ
  /-- The offset of the Amsterdam clock from UTC at an epoch millisecond, in milliseconds. -/
  utcOffset : Int → Int

/-- A flat world, a kilometre from everywhere to everywhere, on Amsterdam time zero. -/
def flatEnv : Env := ⟨fun _ _ _ _ => 1000, fun _ => 0⟩

end FietsOfOv
