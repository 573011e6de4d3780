import FietsOfOv.Notify.Database
import FietsOfOv.Raising

/-!
# Evaluating one alert

`evaluate_trip_alert` of `app/services/notify.py`, and the decision that
`process_trip_alert` takes on its answer.  What OpenTripPlanner and the rain
service answer for the alert are parameters: `gather_candidates` returns the
pooled candidates, raises `OTPError`, or raises something else.
-/

namespace FietsOfOv

open WallClock

/-- What `gather_candidates` can raise. -/
inductive PlanError where
  | otpError
  | other
deriving DecidableEq

/-- `AdviceResponse`. -/
structure AdviceResponse where
  recommendation : OptionKind
  reason : String
  bikeMinutes : Option Int
  transitMinutes : Option Int
  maxRainMmPerH : Option ℚ
  rainExpected : Option Bool
  forecastDegraded : Bool

variable (env : Env)

/-- `any(c.kind == "bike" for c in candidates)`. -/
def hasBike (candidates : List Candidate) : Bool := candidates.any (·.kind = .bike)

/-- The last step of `evaluate_trip_alert`; `none` is an exception of `recommend`. -/
def assess (candidates : List Candidate) (rain : Option RainForecast) : Option AdviceResponse :=
  (Raising.recommend env candidates rain).map fun plan => {
    recommendation := plan.recommendation
    reason := plan.reason
    bikeMinutes := plan.bikeMinutes
    transitMinutes := plan.transitMinutes
    maxRainMmPerH := plan.maxRainMmPerH
    rainExpected := plan.rainExpected
    forecastDegraded := plan.forecastDegraded }

/-- `evaluate_trip_alert`; an error is an exception that its callers see. -/
def evaluateTripAlert (planned : Except PlanError (List Candidate))
    (forecast : Except Unit (Option RainForecast)) : Except Unit (Option AdviceResponse) :=
  match planned with
  | .error .otpError => .ok none
  | .error .other => .error ()
  | .ok candidates =>
      if hasBike candidates then
        match forecast with
        | .error _ => .error ()
        | .ok rain =>
            match assess env candidates rain with
            | none => .error ()
            | some advice => .ok (some advice)
      else .ok none

/-- The values `process_trip_alert` inserts. -/
def insertStmt (alert : TripAlert) (now : DateTime) (advice : AdviceResponse) : InsertStmt where
  tripAlertId := alert.id
  userId := alert.userId
  recommendation := advice.recommendation
  reason := advice.reason
  departureDate := (nextDeparture alert now).date

/-- The outbox key of the departure an alert has at `now`. -/
def departureKey (alert : TripAlert) (now : DateTime) : Nat × Int :=
  (alert.id, (nextDeparture alert now).date)

/-- The guards of `process_trip_alert`: it warns on a confirmed forecast of rain only. -/
def warrants (advice : AdviceResponse) : Bool :=
  !advice.forecastDegraded && advice.rainExpected == some true

/-- The insert that an evaluation leads to, if it leads to one. -/
def warning (alert : TripAlert) (now : DateTime) (planned : Except PlanError (List Candidate))
    (forecast : Except Unit (Option RainForecast)) : Option InsertStmt :=
  match evaluateTripAlert env planned forecast with
  | .ok (some advice) => if warrants advice then some (insertStmt alert now advice) else none
  | _ => none

variable {env}

theorem warning_eq_some {alert : TripAlert} {now : DateTime}
    {planned : Except PlanError (List Candidate)} {forecast : Except Unit (Option RainForecast)}
    {stmt : InsertStmt} (h : warning env alert now planned forecast = some stmt) :
    ∃ candidates rain advice, planned = .ok candidates ∧ hasBike candidates = true ∧
      forecast = .ok rain ∧ assess env candidates rain = some advice ∧ warrants advice = true ∧
      stmt = insertStmt alert now advice := by
  unfold warning evaluateTripAlert at h
  cases planned with
  | error e => cases e <;> simp at h
  | ok candidates =>
      cases hbike : hasBike candidates with
      | false => simp [hbike] at h
      | true =>
          cases forecast with
          | error e => simp [hbike] at h
          | ok rain =>
              cases hassess : assess env candidates rain with
              | none => simp [hbike, hassess] at h
              | some advice =>
                  simp only [hbike, hassess, if_true] at h
                  split at h
                  · rename_i hwarrants
                    cases h
                    exact ⟨candidates, rain, advice, rfl, hbike, rfl, hassess, hwarrants, rfl⟩
                  · cases h

theorem warning_key {alert : TripAlert} {now : DateTime}
    {planned : Except PlanError (List Candidate)} {forecast : Except Unit (Option RainForecast)}
    {stmt : InsertStmt} (h : warning env alert now planned forecast = some stmt) :
    stmt.key = departureKey alert now := by
  obtain ⟨_, _, _, _, _, _, _, _, rfl⟩ := warning_eq_some h
  rfl

end FietsOfOv
