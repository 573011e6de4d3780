import FietsOfOv.DryVerdict
import FietsOfOv.Notify.Evaluate
import FietsOfOv.Planner
import FietsOfOv.TripAlerts

/-!
# The two trip endpoints

`GET /v1/advice` and `GET /v1/plan` (`app/api/advice.py`, `app/api/plan.py`): both resolve
the two places, gather the candidates with the forecast, and present one recommendation,
the first as its numbers, the second as options a map can draw.
-/

namespace FietsOfOv

open Decimal

/-! ## The responses -/

structure PlaceOut where
  name : Option String := none
  lat : Option ℚ := none
  lon : Option ℚ := none
deriving DecidableEq

structure StepOut where
  distanceM : Option ℚ
  direction : Option String
  street : Option String
deriving DecidableEq

structure LegOut where
  mode : String
  minutes : Int
  distanceM : Option ℚ
  route : Option String
  routeLongName : Option String
  headsign : Option String
  origin : PlaceOut
  toPlace : PlaceOut
  geometry : Option String
  startTime : Int
  endTime : Int
  steps : List StepOut
deriving DecidableEq

structure ItineraryOut where
  minutes : Int
  distanceM : ℚ
  startTime : Int
  endTime : Int
  legs : List LegOut
deriving DecidableEq

structure OptionOut where
  kind : OptionKind
  recommended : Bool
  score : ℚ
  rainMinutes : Int
  itinerary : ItineraryOut
deriving DecidableEq

structure PlanResponse where
  recommendation : OptionKind
  reason : String
  maxRainMmPerH : Option ℚ
  rainExpected : Option Bool
  forecastDegraded : Bool
  origin : PlaceOut
  destination : PlaceOut
  options : List OptionOut
deriving DecidableEq

def LegStep.out (step : LegStep) : StepOut :=
  ⟨step.distance, step.relativeDirection, step.streetName⟩

/-- `_leg_out`. -/
def legOut (leg : Leg) : LegOut where
  mode := leg.mode
  minutes := minutes leg.duration
  distanceM := leg.distance.map (roundTo 1)
  route := leg.routeShortName
  routeLongName := leg.routeLongName
  headsign := leg.headsign
  origin := ⟨leg.fromName, leg.fromLat, leg.fromLon⟩
  toPlace := ⟨leg.toName, leg.toLat, leg.toLon⟩
  geometry := leg.geometry
  startTime := leg.startTime
  endTime := leg.endTime
  steps := leg.steps.map LegStep.out

/-- `_itinerary_out`. -/
def itineraryOut (itin : Itinerary) : ItineraryOut where
  minutes := minutes itin.duration
  distanceM := roundTo 1 (itin.legs.map fun leg => leg.distance.getD 0).sum
  startTime := itin.startTime
  endTime := itin.endTime
  legs := itin.legs.map legOut

def optionOut (recommended : Bool) (opt : ScoredCandidate) : OptionOut where
  kind := opt.kind
  recommended := recommended
  score := opt.cost
  rainMinutes := opt.rainMinutes
  itinerary := itineraryOut opt.itinerary

/-- What `get_plan` returns. -/
def planResponse (fromPlace toPlace : ℚ × ℚ) (plan : RankedPlan) : PlanResponse where
  recommendation := plan.recommendation
  reason := plan.reason
  maxRainMmPerH := plan.maxRainMmPerH
  rainExpected := plan.rainExpected
  forecastDegraded := plan.forecastDegraded
  origin := { lat := some fromPlace.1, lon := some fromPlace.2 }
  destination := { lat := some toPlace.1, lon := some toPlace.2 }
  options := plan.options.mapIdx fun i opt => optionOut (i == 0) opt

/-- What `get_advice` returns. -/
def adviceResponse (_ _ : ℚ × ℚ) (plan : RankedPlan) : AdviceResponse where
  recommendation := plan.recommendation
  reason := plan.reason
  bikeMinutes := plan.bikeMinutes
  transitMinutes := plan.transitMinutes
  maxRainMmPerH := plan.maxRainMmPerH
  rainExpected := plan.rainExpected
  forecastDegraded := plan.forecastDegraded

/-! ## A request -/

/-- The two query parameters. -/
structure TripQuery where
  origin : String
  destination : String

/-- What the services a request uses come to: the two lookups, of which one ends first, and
    then the candidates and the forecast, of which one ends first.  `get_forecast` raises
    what it does not catch, such as the `OverflowError` of an intensity code. -/
structure TripServices where
  origin : Geocoded
  destination : Geocoded
  destinationFirst : Bool
  candidates : Except PlanException (List Candidate)
  rain : Except Unit (Option RainForecast)
  rainFirst : Bool

section Routes

variable (env : Env) (repr : String → String)

/-- `asyncio.gather` of the two places: of two failures the one that came first. -/
def gatherPlaces (query : TripQuery) (services : TripServices) :
    Except Refusal ((ℚ × ℚ) × (ℚ × ℚ)) :=
  let origin := resolvePlaceHttp repr query.origin services.origin
  let destination := resolvePlaceHttp repr query.destination services.destination
  if services.destinationFirst then do
    let toPlace ← destination
    let fromPlace ← origin
    return (fromPlace, toPlace)
  else do
    let fromPlace ← origin
    let toPlace ← destination
    return (fromPlace, toPlace)

/-- `Query(min_length=1, max_length=200)`. -/
def validQuery (value : String) : Bool := 1 ≤ value.length ∧ value.length ≤ 200

/-- `asyncio.gather` of the candidates and the forecast, of which an `OTPError` is caught. -/
def gatherTrip (services : TripServices) :
    Except Refusal (List Candidate × Option RainForecast) :=
  let gathered := match services.candidates with
    | .ok candidates => .ok candidates
    | .error (.otpError _) => .error (.http 502 "routing upstream unavailable")
    | .error (.other _) => .error (.http 500 "Internal Server Error")
  let forecast := match services.rain with
    | .ok rain => .ok rain
    | .error _ => .error (.http 500 "Internal Server Error")
  if services.rainFirst then do
    let rain ← forecast
    let candidates ← gathered
    return (candidates, rain)
  else do
    let candidates ← gathered
    let rain ← forecast
    return (candidates, rain)

/-- Both endpoints from the candidates to the recommendation. -/
def plannedTrip (services : TripServices) : Except Refusal RankedPlan := do
  let (candidates, rain) ← gatherTrip services
  if candidates = [] then .error (.http 404 "no route found for this trip")
  else
    match Raising.recommend env candidates rain with
    | none => .error (.http 500 "Internal Server Error")
    | some plan => .ok plan

/-- Both endpoints, which differ in what they present. -/
def serveTrip {α : Type} (present : ℚ × ℚ → ℚ × ℚ → RankedPlan → α) (query : TripQuery)
    (services : TripServices) : Except Refusal α :=
  if ¬ (validQuery query.origin ∧ validQuery query.destination) then .error .unprocessable
  else do
    let (fromPlace, toPlace) ← gatherPlaces repr query services
    let plan ← plannedTrip env services
    return present fromPlace toPlace plan

/-- `get_plan`. -/
def getPlan (query : TripQuery) (services : TripServices) : Except Refusal PlanResponse :=
  serveTrip env repr planResponse query services

/-- `get_advice`. -/
def getAdvice (query : TripQuery) (services : TripServices) : Except Refusal AdviceResponse :=
  serveTrip env repr adviceResponse query services

end Routes

/-! ## What a client can rely on -/

/-- The sum of the distances shown for the legs, nothing for a leg without one. -/
def ItineraryOut.shownDistance (itinerary : ItineraryOut) : ℚ :=
  (itinerary.legs.map fun leg => leg.distanceM.getD 0).sum

/-- A plan over candidates: one option for each kind that occurs, cheapest first, and only
    the first recommended; totals that differ from the legs shown by their rounding only; and
    no fact about rain without a forecast. -/
structure PlanResponse.Sound (response : PlanResponse) (candidates : List Candidate) : Prop where
  kinds : (response.options.map (·.kind)).Nodup
  covers : ∀ kind, (∃ option ∈ response.options, option.kind = kind) ↔
    ∃ c ∈ candidates, c.kind = kind
  sorted : response.options.Pairwise (·.score ≤ ·.score)
  recommended : ∃ first rest, response.options = first :: rest ∧ first.recommended = true ∧
    first.kind = response.recommendation ∧ ∀ option ∈ rest, option.recommended = false
  travelled : ∀ option ∈ response.options,
    ∃ c ∈ candidates, c.kind = option.kind ∧ option.itinerary = itineraryOut c.itinerary
  distances : ∀ option ∈ response.options,
    |option.itinerary.distanceM - option.itinerary.shownDistance| ≤
      (option.itinerary.legs.length + 1) / 20
  degraded : response.forecastDegraded = true → response.rainExpected = none ∧
    response.maxRainMmPerH = none ∧ ∀ option ∈ response.options, option.rainMinutes = 0
  informed : response.forecastDegraded = false →
    response.rainExpected.isSome ∧ response.maxRainMmPerH.isSome

/-- The advice says what the plan shows. -/
structure PlanResponse.Agrees (response : PlanResponse) (advice : AdviceResponse) : Prop where
  recommendation : advice.recommendation = response.recommendation
  reason : advice.reason = response.reason
  maxRain : advice.maxRainMmPerH = response.maxRainMmPerH
  rainExpected : advice.rainExpected = response.rainExpected
  degraded : advice.forecastDegraded = response.forecastDegraded
  bike : advice.bikeMinutes =
    (response.options.find? (·.kind = .bike)).map (·.itinerary.minutes)
  transit : advice.transitMinutes =
    (response.options.find? (·.kind = .transit)).map (·.itinerary.minutes)

variable {env : Env} {candidates : List Candidate} {rain : Option RainForecast}
  {plan : RankedPlan} {fromPlace toPlace : ℚ × ℚ}

theorem planResponse_options {top : ScoredCandidate} {rest : List ScoredCandidate}
    (hoptions : plan.options = top :: rest) :
    (planResponse fromPlace toPlace plan).options =
      optionOut true top :: rest.map (optionOut false) := by
  have hrest : rest.mapIdx (fun _ opt => optionOut false opt) = rest.map (optionOut false) := by
    apply List.ext_getElem <;> simp
  simpa [planResponse, hoptions, List.mapIdx_cons] using hrest

/-- The fields of a recommendation, by the ranking and the forecast. -/
theorem recommend_cases (h : recommend env candidates rain = some plan) :
    ∃ top rest, rank env candidates rain = top :: rest ∧ plan.options = top :: rest ∧
      plan.recommendation = top.kind ∧
      plan.bikeMinutes =
        ((top :: rest).find? (·.kind = .bike)).map (minutes ·.itinerary.duration) ∧
      plan.transitMinutes =
        ((top :: rest).find? (·.kind = .transit)).map (minutes ·.itinerary.duration) ∧
      plan.forecastDegraded = rain.isNone ∧ plan.rainExpected.isSome = rain.isSome ∧
      plan.maxRainMmPerH.isSome = rain.isSome := by
  cases hrank : rank env candidates rain with
  | nil =>
      rw [recommend, hrank] at h
      cases h
  | cons top rest =>
      simp only [recommend, hrank, Option.some.injEq] at h
      subst h
      refine ⟨top, rest, rfl, rfl, rfl, rfl, rfl, rfl, ?_, ?_⟩
      · cases rain <;> rfl
      · cases rain <;> rfl

theorem exists_of_mem_options {top : ScoredCandidate} {rest : List ScoredCandidate}
    {option : OptionOut} (hmem : option ∈ optionOut true top :: rest.map (optionOut false)) :
    ∃ opt ∈ top :: rest, ∃ recommended, option = optionOut recommended opt := by
  rcases List.mem_cons.mp hmem with rfl | hmem
  · exact ⟨top, List.mem_cons_self, true, rfl⟩
  · obtain ⟨opt, hopt, rfl⟩ := List.mem_map.mp hmem
    exact ⟨opt, List.mem_cons_of_mem _ hopt, false, rfl⟩

theorem shownDistance_itineraryOut (itin : Itinerary) :
    (itineraryOut itin).shownDistance =
      ((itin.legs.map fun leg => leg.distance.getD 0).map (roundTo 1)).sum := by
  have hzero : roundTo 1 0 = 0 := by decide +kernel
  rw [ItineraryOut.shownDistance, itineraryOut, List.map_map, List.map_map]
  congr 1
  apply List.map_congr_left
  intro leg _
  cases hdistance : leg.distance with
  | none => simp [legOut, hdistance, hzero]
  | some distance => simp [legOut, hdistance]

theorem distances_itineraryOut (itin : Itinerary) :
    |(itineraryOut itin).distanceM - (itineraryOut itin).shownDistance| ≤
      ((itineraryOut itin).legs.length + 1) / 20 := by
  have hsum := abs_roundTo_sum_sub_le 1 (itin.legs.map fun leg => leg.distance.getD 0)
  rw [shownDistance_itineraryOut]
  rw [List.length_map] at hsum
  simp only [itineraryOut, List.length_map]
  linarith

/-- Without a forecast no option has a minute in the rain. -/
theorem rainMinutes_of_no_forecast {s : ScoredCandidate} (hs : s ∈ rank env candidates none) :
    s.rainMinutes = 0 := by
  obtain ⟨c, rfl, _⟩ := exists_cheapest_of_mem_rank hs
  rw [priced_rainMinutes]
  have hzero : roundHalfEven 0 = 0 := by decide +kernel
  exact hzero

theorem planResponse_sound (h : recommend env candidates rain = some plan) :
    (planResponse fromPlace toPlace plan).Sound candidates := by
  obtain ⟨top, rest, hrank, hoptions, hrecommended, _, _, hdegraded, hexpected, hmax⟩ :=
    recommend_cases h
  have hkinds := @rank_nodup_kind env candidates rain defaultWeights defaultRainThresholdMmH
  have hsorted := @rank_sorted env candidates rain defaultWeights defaultRainThresholdMmH
  have hmem : ∀ {s}, s ∈ top :: rest ↔ s ∈ rank env candidates rain := by
    intro s
    rw [hrank]
  rw [hrank] at hkinds hsorted
  have hout := @planResponse_options plan fromPlace toPlace top rest hoptions
  constructor
  case kinds =>
    rw [hout]
    simpa [optionOut, Function.comp_def] using hkinds
  case covers =>
    intro kind
    rw [hout]
    constructor
    · rintro ⟨option, hoption, rfl⟩
      obtain ⟨opt, hopt, _, rfl⟩ := exists_of_mem_options hoption
      obtain ⟨c, rfl, hcheapest⟩ := exists_cheapest_of_mem_rank (hmem.mp hopt)
      exact ⟨c, (mem_competitors.mp hcheapest.mem).1, (priced_kind c).symm⟩
    · intro hkind
      obtain ⟨c, _, rfl, _, hfind, _⟩ := @exists_winner env candidates rain defaultWeights
        defaultRainThresholdMmH kind hkind (by decide)
      have hopt := hmem.mpr (List.mem_of_find?_eq_some hfind)
      rcases List.mem_cons.mp hopt with heq | hopt
      · exact ⟨_, List.mem_cons_self, by rw [optionOut, ← heq, priced_kind]⟩
      · exact ⟨_, List.mem_cons_of_mem _ (List.mem_map_of_mem hopt), priced_kind c⟩
  case sorted =>
    rw [hout]
    have hcosts : (top :: rest).Pairwise (·.cost ≤ ·.cost) := hsorted.imp fun hfirst => by
      rcases hfirst with hlt | ⟨heq, _⟩
      · exact hlt.le
      · exact heq.le
    rw [List.pairwise_cons] at hcosts ⊢
    refine ⟨?_, ?_⟩
    · intro option hoption
      obtain ⟨opt, hopt, rfl⟩ := List.mem_map.mp hoption
      exact hcosts.1 opt hopt
    · exact List.pairwise_map.mpr hcosts.2
  case recommended =>
    refine ⟨_, _, hout, rfl, hrecommended.symm, ?_⟩
    intro option hoption
    obtain ⟨opt, _, rfl⟩ := List.mem_map.mp hoption
    rfl
  case travelled =>
    rw [hout]
    intro option hoption
    obtain ⟨opt, hopt, _, rfl⟩ := exists_of_mem_options hoption
    obtain ⟨c, rfl, hcheapest⟩ := exists_cheapest_of_mem_rank (hmem.mp hopt)
    refine ⟨c, (mem_competitors.mp hcheapest.mem).1, (priced_kind c).symm, ?_⟩
    rw [optionOut, priced_itinerary]
  case distances =>
    rw [hout]
    intro option hoption
    obtain ⟨opt, _, _, rfl⟩ := exists_of_mem_options hoption
    exact distances_itineraryOut opt.itinerary
  case degraded =>
    intro hnone
    have hrain : rain = none := Option.isNone_iff_eq_none.mp (hdegraded.symm.trans hnone)
    subst hrain
    refine ⟨Option.not_isSome_iff_eq_none.mp (by rw [planResponse, hexpected]; decide),
      Option.not_isSome_iff_eq_none.mp (by rw [planResponse, hmax]; decide), ?_⟩
    rw [hout]
    intro option hoption
    obtain ⟨opt, hopt, _, rfl⟩ := exists_of_mem_options hoption
    exact rainMinutes_of_no_forecast (hmem.mp hopt)
  case informed =>
    intro hsome
    have hrain : rain.isSome = true := by
      rw [← Option.not_isNone, ← hdegraded]
      exact congrArg _ hsome
    exact ⟨hexpected.trans hrain, hmax.trans hrain⟩

/-- The first option of a kind shows the minutes of the first of that kind ranked. -/
theorem find?_options (kind : OptionKind) {top : ScoredCandidate} {rest : List ScoredCandidate} :
    ((optionOut true top :: rest.map (optionOut false)).find? (·.kind = kind)).map
        (·.itinerary.minutes) =
      ((top :: rest).find? (·.kind = kind)).map (minutes ·.itinerary.duration) := by
  by_cases htop : top.kind = kind
  · have hfirst : decide ((optionOut true top).kind = kind) = true := decide_eq_true htop
    simp only [List.find?_cons, hfirst, decide_eq_true htop]
    rfl
  · have hfirst : decide ((optionOut true top).kind = kind) = false := decide_eq_false htop
    simp only [List.find?_cons, hfirst, decide_eq_false htop, List.find?_map, Option.map_map]
    rfl

theorem planResponse_agrees (h : recommend env candidates rain = some plan) :
    (planResponse fromPlace toPlace plan).Agrees (adviceResponse fromPlace toPlace plan) := by
  obtain ⟨top, rest, _, hoptions, _, hbike, htransit, _⟩ := recommend_cases h
  have hout := @planResponse_options plan fromPlace toPlace top rest hoptions
  constructor
  case bike => rw [hout, find?_options]; exact hbike
  case transit => rw [hout, find?_options]; exact htransit
  all_goals rfl

/-- Both parameters are accepted, both places are found, the candidates and the forecast come
    back, there is a candidate, and every time that the recommendation reads is on the
    calendar. -/
structure TripQuery.Answerable (env : Env) (repr : String → String) (query : TripQuery)
    (services : TripServices) (candidates : List Candidate) (rain : Option RainForecast) :
    Prop where
  origin : validQuery query.origin = true
  destination : validQuery query.destination = true
  places : ∃ places, gatherPlaces repr query services = .ok places
  gathered : services.candidates = .ok candidates
  forecast : services.rain = .ok rain
  nonempty : candidates ≠ []
  dated : Dated env candidates rain

variable {α : Type} {repr : String → String} {query : TripQuery} {services : TripServices}

theorem gatherTrip_eq_ok : gatherTrip services = .ok (candidates, rain) ↔
    services.candidates = .ok candidates ∧ services.rain = .ok rain := by
  obtain ⟨_, _, _, gathered, forecast, rainFirst⟩ := services
  unfold gatherTrip
  cases gathered with
  | error e => cases e <;> cases forecast <;> cases rainFirst <;> simp [bind, Except.bind]
  | ok candidates' =>
      cases forecast <;> cases rainFirst <;> simp [bind, Except.bind, pure, Except.pure]

theorem plannedTrip_eq_ok (h : plannedTrip env services = .ok plan) :
    ∃ candidates rain, services.candidates = .ok candidates ∧ services.rain = .ok rain ∧
      candidates ≠ [] ∧ Dated env candidates rain ∧ recommend env candidates rain = some plan := by
  obtain ⟨⟨candidates, rain⟩, hgathered, hrest⟩ := Loop.bind_eq_ok.mp h
  obtain ⟨hcandidates, hrain⟩ := gatherTrip_eq_ok.mp hgathered
  dsimp only at hrest
  by_cases hempty : candidates = []
  · rw [if_pos hempty] at hrest
    cases hrest
  · rw [if_neg hempty] at hrest
    split at hrest
    · cases hrest
    · rename_i plan' hplan
      cases hrest
      obtain ⟨hdated, hrecommend⟩ := Raising.recommend_eq_some.mp hplan
      exact ⟨candidates, rain, hcandidates, hrain, hempty, hdated, hrecommend⟩

theorem plannedTrip_of_candidates (hcandidates : services.candidates = .ok candidates)
    (hrain : services.rain = .ok rain) (hne : candidates ≠ [])
    (hdated : Dated env candidates rain) :
    ∃ plan, plannedTrip env services = .ok plan ∧ recommend env candidates rain = some plan := by
  obtain ⟨plan, _, hplan, _⟩ := recommend_summary env rain hne
  have hraised : Raising.recommend env candidates rain = some plan :=
    Raising.recommend_eq_some.mpr ⟨hdated, hplan⟩
  have hgathered := gatherTrip_eq_ok.mpr ⟨hcandidates, hrain⟩
  refine ⟨plan, Loop.bind_eq_ok.mpr ⟨_, hgathered, ?_⟩, hplan⟩
  simp only [if_neg hne, hraised]

/-- An answerable request is answered with what the endpoint presents of its plan. -/
theorem serveTrip_of_answerable (h : query.Answerable env repr services candidates rain) :
    ∃ fromPlace toPlace plan, recommend env candidates rain = some plan ∧
      ∀ (α : Type) (present : ℚ × ℚ → ℚ × ℚ → RankedPlan → α),
        serveTrip env repr present query services = .ok (present fromPlace toPlace plan) := by
  obtain ⟨⟨fromPlace, toPlace⟩, hplaces⟩ := h.places
  obtain ⟨plan, hplanned, hplan⟩ :=
    plannedTrip_of_candidates h.gathered h.forecast h.nonempty h.dated
  refine ⟨fromPlace, toPlace, plan, hplan, ?_⟩
  intro α present
  unfold serveTrip
  rw [if_neg (not_not.mpr ⟨h.origin, h.destination⟩), hplaces, hplanned]
  rfl

/-- Any other request is refused, whatever the endpoint presents. -/
theorem serveTrip_of_not_answerable
    (h : ∀ candidates rain, ¬ query.Answerable env repr services candidates rain) :
    ∃ refusal, ∀ (α : Type) (present : ℚ × ℚ → ℚ × ℚ → RankedPlan → α),
      serveTrip env repr present query services = .error refusal := by
  unfold serveTrip
  by_cases hvalid : validQuery query.origin ∧ validQuery query.destination
  · simp only [if_neg (not_not.mpr hvalid)]
    cases hplaces : gatherPlaces repr query services with
    | error refusal => exact ⟨refusal, fun α present => rfl⟩
    | ok places =>
        cases hplanned : plannedTrip env services with
        | error refusal => exact ⟨refusal, fun α present => rfl⟩
        | ok plan =>
            obtain ⟨candidates, rain, hcandidates, hrain, hne, hdated, _⟩ :=
              plannedTrip_eq_ok hplanned
            exact absurd
              ⟨hvalid.1, hvalid.2, ⟨places, hplaces⟩, hcandidates, hrain, hne, hdated⟩
              (h candidates rain)
  · exact ⟨.unprocessable, fun α present => if_pos hvalid⟩

/-- The notifier's verdict on the same candidates and forecast is the endpoint's. -/
theorem evaluateTripAlert_eq_advice (hdated : Dated env candidates rain)
    (h : recommend env candidates rain = some plan) :
    evaluateTripAlert env (.ok candidates) (.ok rain) =
      .ok (if hasBike candidates then some (adviceResponse fromPlace toPlace plan) else none) := by
  have hraised : Raising.recommend env candidates rain = some plan :=
    Raising.recommend_eq_some.mpr ⟨hdated, h⟩
  unfold evaluateTripAlert assess
  simp only [hraised, Option.map_some]
  by_cases hbike : hasBike candidates = true
  · simp [hbike, adviceResponse]
  · simp [hbike]

/-- `/v1/plan` and `/v1/advice` answer the same requests and refuse the others alike; what they
    answer is sound and in agreement, and it is what the notifier would go by. -/
theorem trip_answers (env : Env) (repr : String → String) (query : TripQuery)
    (services : TripServices) :
    (∃ candidates rain response advice, query.Answerable env repr services candidates rain ∧
      getPlan env repr query services = .ok response ∧
      getAdvice env repr query services = .ok advice ∧
      response.Sound candidates ∧ response.Agrees advice ∧
      evaluateTripAlert env (.ok candidates) (.ok rain) =
        .ok (if hasBike candidates then some advice else none)) ∨
    ∃ refusal, (∀ candidates rain, ¬ query.Answerable env repr services candidates rain) ∧
      getPlan env repr query services = .error refusal ∧
      getAdvice env repr query services = .error refusal := by
  by_cases hanswerable : ∃ candidates rain, query.Answerable env repr services candidates rain
  · obtain ⟨candidates, rain, h⟩ := hanswerable
    obtain ⟨fromPlace, toPlace, plan, hplan, hserved⟩ := serveTrip_of_answerable h
    left
    exact ⟨candidates, rain, _, _, h, hserved _ planResponse, hserved _ adviceResponse,
      planResponse_sound hplan, planResponse_agrees hplan,
      evaluateTripAlert_eq_advice h.dated hplan⟩
  · simp only [not_exists] at hanswerable
    obtain ⟨refusal, hrefused⟩ := serveTrip_of_not_answerable hanswerable
    right
    exact ⟨refusal, hanswerable, hrefused _ planResponse, hrefused _ adviceResponse⟩

end FietsOfOv
