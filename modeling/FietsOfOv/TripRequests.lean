import FietsOfOv.Endpoints
import FietsOfOv.Lib.SharedStore
import FietsOfOv.PlanRequests
import FietsOfOv.RainRequests

/-!
# Trip requests over one Redis

A request of `/v1/plan` or `/v1/advice` runs `gather_candidates_cached` and
`get_forecast` side by side, and all requests share one Redis for both caches.
What a client is shown was computed from what OTP and Buienradar answered, to
this request or to another one not long before.
-/

namespace FietsOfOv

open CacheAside ExpiringStore

abbrev TripSystem :=
  Pair Trip String String Unit Fanout (Except PlanException (List CachedCandidate))
    (ℚ × ℚ) (Option (RainForecast × Int)) (Except UpstreamError RainForecast)
    (Option RainForecast)

abbrev TripEvent := PlanEvent ⊕ RainEvent

def TripSystem.plans (s : TripSystem) : PlanSystem := s.first

def TripSystem.rains (s : TripSystem) : RainSystem := s.swap.first

section Trips

variable (py : Pydantic) (json : JsonCodec) (config : RainConfig) (codec : EnvelopeCodec)

/-- The two calls of a trip request, and what they came to. -/
structure TripSystem.Serves (s : TripSystem) (fromPlace toPlace : ℚ × ℚ) (p : PlanRequest)
    (q : RainRequest) (services : TripServices) : Prop where
  plan : p ∈ s.plans.requests
  rain : q ∈ s.rains.requests
  trip : p.subject = ⟨fromPlace, toPlace, none⟩
  point : q.subject = fromPlace
  candidates : p.result (planClient py json) =
    some (services.candidates.map (List.map Candidate.asCached))
  forecast : (q.result (rainClient config codec)).map .ok = some services.rain

/-- The candidates are what OTP answered to this request or to one for the same trip whose
    answer had landed less than the time to live before. -/
def TripSystem.Gathered (s : TripSystem) (p : PlanRequest) (candidates : List Candidate) : Prop :=
  (∃ answeredAt fanout, p.answer = some (answeredAt, fanout) ∧
    gatherCandidates fanout = .ok candidates) ∨
  s.plans.FromCache p candidates

/-- The forecast is what Buienradar answered to this request or to one for the same key whose
    forecast had landed less than the retention time before. -/
def TripSystem.Forecast (s : TripSystem) (q : RainRequest) (forecast : RainForecast) : Prop :=
  (∃ answeredAt, q.answer = some (answeredAt, .ok forecast)) ∨ s.rains.FromCache config q forecast

variable {py json config codec}

/-- A plan that is returned presents a recommendation over the candidates. -/
theorem getPlan_eq_ok {env : Env} {repr : String → String} {query : TripQuery}
    {services : TripServices} {fromPlace toPlace : ℚ × ℚ} {response : PlanResponse}
    (hplaces : gatherPlaces repr query services = .ok (fromPlace, toPlace))
    (h : getPlan env repr query services = .ok response) :
    ∃ candidates rain plan, services.candidates = .ok candidates ∧ services.rain = .ok rain ∧
      recommend env candidates rain = some plan ∧
      response = planResponse fromPlace toPlace plan := by
  unfold getPlan serveTrip at h
  split at h
  · cases h
  · rw [hplaces] at h
    obtain ⟨_, hfound, hrest⟩ := Loop.bind_eq_ok.mp h
    cases hfound
    obtain ⟨plan, hplan, hpresent⟩ := Loop.bind_eq_ok.mp hrest
    obtain ⟨candidates, rain, hcandidates, hrain, _, _, hrecommend⟩ := plannedTrip_eq_ok hplan
    exact ⟨candidates, rain, plan, hcandidates, hrain, hrecommend,
      (Except.ok.inj hpresent).symm⟩

theorem asCached_map_injective : Function.Injective (List.map Candidate.asCached) :=
  List.map_injective_iff.mpr Candidate.asCached_injective

/-- The candidates of a trip request, as they were before the cache. -/
theorem gathered_of_sound {s : TripSystem}
    (hs : s.plans.Sound (planClient py json) (UnreadablePlan py json)) {p : PlanRequest}
    (hp : p ∈ s.plans.requests) {candidates : List Candidate}
    (hresult : p.result (planClient py json) = some (.ok (candidates.map Candidate.asCached))) :
    s.Gathered p candidates := by
  rcases mayEnd_of_sound hs hp hresult with ⟨answeredAt, fanout, hanswer, hsame⟩ |
    ⟨candidates', hcache, hsame⟩
  · cases hgather : gatherCandidates fanout with
    | error e =>
        rw [hgather] at hsame
        cases hsame
    | ok candidates' =>
        rw [hgather] at hsame
        cases asCached_map_injective (Except.ok.inj hsame)
        exact Or.inl ⟨answeredAt, fanout, hanswer, hgather⟩
  · cases asCached_map_injective (Except.ok.inj hsame)
    exact Or.inr hcache

variable (py json config codec)

/-- **What a trip request shows is OTP's and Buienradar's.**  Over one Redis, and however all
    requests interleave, a plan that is returned shows the places asked for and is sound over
    candidates that OTP gathered for them; its forecast is degraded only if Buienradar failed
    this very request and its cache had nothing usable, and otherwise it is Buienradar's. -/
theorem trip_answer_across_requests (env : Env) (repr : String → String) (es : List TripEvent)
    (s : TripSystem)
    (hallowed : ∀ e ∈ es, PairAllowed (planClient py json) (rainClient config codec)
      (UnreadablePlan py json) (Unreadable codec) e)
    (hexec : Run.exec (Pair.step (planClient py json) (rainClient config codec)) .initial es =
      some s)
    (query : TripQuery) (services : TripServices) (fromPlace toPlace : ℚ × ℚ)
    (p : PlanRequest) (q : RainRequest)
    (hplaces : gatherPlaces repr query services = .ok (fromPlace, toPlace))
    (hserves : s.Serves py json config codec fromPlace toPlace p q services)
    (response : PlanResponse) (hresponse : getPlan env repr query services = .ok response) :
    response.origin = { lat := some fromPlace.1, lon := some fromPlace.2 } ∧
    response.destination = { lat := some toPlace.1, lon := some toPlace.2 } ∧
    (∃ candidates, response.Sound candidates ∧ s.Gathered p candidates) ∧
    (response.forecastDegraded = true ∧
        (∃ answeredAt e, q.answer = some (answeredAt, .error e)) ∧
        (∀ readAt raw, q.reply = some (readAt, .ok (some raw)) → Unreadable codec raw) ∨
      response.forecastDegraded = false ∧
        ∃ forecast, services.rain = .ok (some forecast) ∧ s.Forecast config q forecast) := by
  obtain ⟨hsplans, hsrains⟩ := pair_sound_run
    (fun trip point => cacheKey_ne_rainKey trip point.1 point.2) hallowed hexec
  obtain ⟨candidates, rain, plan, hcandidates, hrain, hplan, rfl⟩ :=
    getPlan_eq_ok hplaces hresponse
  obtain ⟨_, _, _, _, _, _, _, hdegraded, _⟩ := recommend_cases hplan
  refine ⟨rfl, rfl, ⟨candidates, planResponse_sound hplan, ?_⟩, ?_⟩
  · apply gathered_of_sound hsplans hserves.plan
    rw [hserves.candidates, hcandidates]
    rfl
  · have hforecast : q.result (rainClient config codec) = some rain := by
      obtain ⟨rain', hresult, hsame⟩ := Option.map_eq_some_iff.mp hserves.forecast
      rw [hrain] at hsame
      rw [hresult, Except.ok.inj hsame]
    have hreturn : s.rains.MayReturn config codec q rain :=
      mayReturn_of_sound hsrains hserves.rain hforecast
    cases rain with
    | none => exact Or.inl ⟨hdegraded, hreturn⟩
    | some forecast => exact Or.inr ⟨hdegraded, forecast, hrain, hreturn⟩

end Trips

/-! ### A ride home in the drizzle -/

def homeQuery : TripQuery := ⟨"52.37,4.89", "52.35,4.86"⟩

def homeServices : TripServices where
  origin := .found (5237 / 100) (489 / 100)
  destination := .found (5235 / 100) (486 / 100)
  destinationFirst := true
  candidates := .ok [⟨.bike, rideHome⟩]
  rain := .ok (some drizzle)
  rainFirst := false

/-- The two calls of the request take turns. -/
def homeTrip : List TripEvent :=
  [.inl (.call firstRequest.trip), .inr (.call firstRequest.trip.fromPlace),
    .inl (.act 0 (.read .fails)), .inr (.act 0 (.read .answers)), .inr (.act 0 .resume),
    .inl (.act 0 .resume), .inl (.elapse 1000000), .inr (.act 0 (.answer (.ok drizzle))),
    .inl (.act 0 (.answer rideFanout))]

def homePlan : PlanRequest :=
  ⟨firstRequest.trip, some (0, .error ()), some (0, .asks ()), some (1000000, rideFanout), none⟩

def homeRain : RainRequest :=
  ⟨firstRequest.trip.fromPlace, some (0, .ok none), some (0, .asks none),
    some (1000000, .ok drizzle), none⟩

def homeSystem : TripSystem := ⟨1000000, ExpiringStore.empty, [homePlan], [homeRain]⟩

theorem homeTrip_exec (py : Pydantic) (json : JsonCodec) (config : RainConfig)
    (codec : EnvelopeCodec) :
    Run.exec (Pair.step (planClient py json) (rainClient config codec)) .initial homeTrip =
      some homeSystem := rfl

theorem homeServices_dated : Dated flatEnv [⟨.bike, rideHome⟩] (some drizzle) := by
  have hvalue : (Raising.recommend flatEnv [⟨.bike, rideHome⟩] (some drizzle)).isSome = true := by
    decide +kernel
  obtain ⟨plan, hplan⟩ := Option.isSome_iff_exists.mp hvalue
  exact (Raising.recommend_eq_some.mp hplan).1

theorem trip_answer_across_requests_home :
    ∃ response, getPlan flatEnv id homeQuery homeServices =
        .ok response ∧ response.forecastDegraded = false ∧
      ∃ candidates, response.Sound candidates ∧ homeSystem.Gathered homePlan candidates := by
  have hanswerable : homeQuery.Answerable flatEnv id homeServices [⟨.bike, rideHome⟩]
      (some drizzle) :=
    ⟨by decide, by decide, ⟨_, rfl⟩, rfl, rfl, by simp, homeServices_dated⟩
  obtain ⟨fromPlace, toPlace, plan, _, hserved⟩ := serveTrip_of_answerable hanswerable
  have hserves : homeSystem.Serves strictPydantic rideJson ⟨300, 2700⟩ drizzleCodec
      (5237 / 100, 489 / 100) (5235 / 100, 486 / 100) homePlan homeRain homeServices :=
    ⟨List.mem_singleton.mpr rfl, List.mem_singleton.mpr rfl, rfl, rfl, rfl, rfl⟩
  obtain ⟨_, _, hgathered, hrain⟩ := trip_answer_across_requests strictPydantic rideJson
    ⟨300, 2700⟩ drizzleCodec flatEnv id homeTrip homeSystem
    (by simp [homeTrip, PairAllowed, CacheAside.Event.Allowed])
    (homeTrip_exec strictPydantic rideJson ⟨300, 2700⟩ drizzleCodec) homeQuery homeServices
    (5237 / 100, 489 / 100) (5235 / 100, 486 / 100) homePlan homeRain rfl hserves _
    (hserved PlanResponse planResponse)
  refine ⟨_, hserved PlanResponse planResponse, ?_, hgathered⟩
  rcases hrain with ⟨_, ⟨_, _, hfailed⟩, _⟩ | ⟨hinformed, _⟩
  · cases hfailed
  · exact hinformed

end FietsOfOv
