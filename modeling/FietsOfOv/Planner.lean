import FietsOfOv.Lib.IsoFormat
import FietsOfOv.Otp
import FietsOfOv.Scoring

/-!
# Gathering candidates

`app/services/planner.py`: the fan-out of three OTP queries, the key a trip is cached
under, and the text its candidates are cached as.  What OTP answers, and what the
fallback of `snap.py` comes to, are inputs of the fan-out.
-/

namespace FietsOfOv

open Decimal IsoFormat

/-- What a call can raise: the adapter's own error, or anything else. -/
inductive PlanException where
  | otpError (message : String)
  | other (exception : String)
deriving DecidableEq

/-- The outcomes of the queries for the three `_MODE_SETS`, and of `bike_with_snapping`
    if it is called. -/
structure Fanout where
  bike : Except PlanException (List Itinerary)
  transit : Except PlanException (List Itinerary)
  mixed : Except PlanException (List Itinerary)
  snapped : Except PlanException (Option Itinerary)

/-- The loop over the results: the plans, and the first `OTPError`. -/
def plansOf (plans : List (List Itinerary)) (firstError : Option String) :
    List (Except PlanException (List Itinerary)) →
      Except PlanException (List (List Itinerary) × Option String)
  | [] => .ok (plans, firstError)
  | .error (.otpError message) :: results => plansOf plans (firstError.or (some message)) results
  | .error e :: _ => .error e
  | .ok plan :: results => plansOf (plans ++ [plan]) firstError results

/-- The classified itineraries of the plans, in order. -/
def classified (plans : List (List Itinerary)) : List Candidate :=
  plans.flatten.filterMap fun itin => (classifyKind itin).map fun kind => ⟨kind, itin⟩

/-- `gather_candidates`. -/
def gatherCandidates (fanout : Fanout) : Except PlanException (List Candidate) := do
  let (plans, firstError) ← plansOf [] none [fanout.bike, fanout.transit, fanout.mixed]
  if plans = [] then
    throw (.otpError ("all OTP queries failed: " ++ firstError.getD "None"))
  else
    let candidates := classified plans
    if ¬ candidates.any (·.kind = .bike) ∧ candidates ≠ [] then
      match ← fanout.snapped with
      | some snapped => return candidates ++ [⟨.bike, snapped⟩]
      | none => return candidates
    else return candidates

/-- A trip as it is asked for. -/
structure Trip where
  fromPlace : ℚ × ℚ
  toPlace : ℚ × ℚ
  departure : Option Moment

/-! ## The key of a trip -/

def whenText : Option Moment → String
  | some departure => isoformat departure
  | none => "now"

/-- `_cache_key`. -/
def cacheKey (trip : Trip) : String :=
  "plan:" ++ formatFixed 4 trip.fromPlace.1 ++ "," ++ formatFixed 4 trip.fromPlace.2 ++ "->" ++
    formatFixed 4 trip.toPlace.1 ++ "," ++ formatFixed 4 trip.toPlace.2 ++ "@" ++
    whenText trip.departure

/-- The same trip up to the rounding of its coordinates. -/
structure Trip.Same (trip other : Trip) : Prop where
  fromLat : roundTo 4 trip.fromPlace.1 = roundTo 4 other.fromPlace.1
  fromLon : roundTo 4 trip.fromPlace.2 = roundTo 4 other.fromPlace.2
  toLat : roundTo 4 trip.toPlace.1 = roundTo 4 other.toPlace.1
  toLon : roundTo 4 trip.toPlace.2 = roundTo 4 other.toPlace.2
  departure : trip.departure = other.departure

theorem whenText_inj {departure departure' : Option Moment}
    (heq : whenText departure = whenText departure') : departure = departure' := by
  have hnow : ∀ moment : Moment, isoformat moment ≠ "now" := by
    intro moment hmoment
    have htext : (isoformat moment).toList = [] ++ ['n', 'o', 'w'] := by rw [hmoment]; rfl
    rw [toList_isoformat] at htext
    -- a year begins with a digit
    obtain ⟨-, hrest⟩ := Text.append_inj_of_stops (fun _ => isDigit_of_mem_zeroPad)
      (by simp) ((Text.stops_cons _ _ _).mpr (by decide))
      ((Text.stops_cons _ _ _).mpr (by decide)) htext
    exact absurd (List.cons.inj hrest).1 (by decide)
  cases departure with
  | none =>
      cases departure' with
      | none => rfl
      | some moment => exact absurd heq.symm (hnow moment)
  | some moment =>
      cases departure' with
      | none => exact absurd heq (hnow moment)
      | some moment' => rw [isoformat_injective heq]

theorem toList_cacheKey (trip : Trip) :
    (cacheKey trip).toList = "plan:".toList ++ ((formatFixed 4 trip.fromPlace.1).toList ++
      ',' :: (((formatFixed 4 trip.fromPlace.2).toList ++ ['-']) ++
        '>' :: ((formatFixed 4 trip.toPlace.1).toList ++
          ',' :: ((formatFixed 4 trip.toPlace.2).toList ++
            '@' :: (whenText trip.departure).toList)))) := by
  have hcomma : ",".toList = [','] := rfl
  have harrow : "->".toList = ['-', '>'] := rfl
  have hat : "@".toList = ['@'] := rfl
  unfold cacheKey
  simp only [String.toList_append, hcomma, harrow, hat, List.append_assoc,
    List.cons_append, List.nil_append]

/-- The arrow begins with a dash, which a coordinate may begin with as well. -/
theorem formatFixed_arrow_inj {x y : ℚ} {rest rest' : List Char}
    (heq : ((formatFixed 4 x).toList ++ ['-']) ++ '>' :: rest =
      ((formatFixed 4 y).toList ++ ['-']) ++ '>' :: rest') :
    roundTo 4 x = roundTo 4 y ∧ rest = rest' := by
  have harrow : ∀ x : ℚ, ∀ c ∈ (formatFixed 4 x).toList ++ ['-'], (c != '>') = true := by
    intro x c hc
    rcases List.mem_append.mp hc with hc | hc
    · exact ne_sep_of_mem_formatFixed (by decide) (by decide) x c hc
    · rw [List.mem_singleton.mp hc]
      decide
  obtain ⟨htext, hrest⟩ := Text.append_inj_of_stops (harrow x) (harrow y) (by simp) (by simp) heq
  exact ⟨roundTo_eq_of_formatFixed_eq (by decide)
    (String.toList_inj.mp (List.append_cancel_right htext)), (List.cons.inj hrest).2⟩

/-- One key belongs to one trip, up to the rounding of its coordinates. -/
theorem cacheKey_same {trip other : Trip} (heq : cacheKey trip = cacheKey other) :
    trip.Same other := by
  have htext := congrArg String.toList heq
  rw [toList_cacheKey, toList_cacheKey] at htext
  obtain ⟨hfromLat, htext⟩ := formatFixed_sep_inj (by decide) (by decide)
    (List.append_cancel_left htext)
  obtain ⟨hfromLon, htext⟩ := formatFixed_arrow_inj htext
  obtain ⟨htoLat, htext⟩ := formatFixed_sep_inj (by decide) (by decide) htext
  obtain ⟨htoLon, htext⟩ := formatFixed_sep_inj (by decide) (by decide) htext
  exact ⟨hfromLat, hfromLon, htoLat, htoLon, whenText_inj (String.toList_inj.mp htext)⟩

/-! ## The text of a cached answer -/

/-- `json.dumps` and `json.loads`, `none` where the text is no JSON. -/
structure JsonCodec where
  dumps : Json → String
  loads : String → Option Json
  loads_dumps : ∀ value, loads (dumps value) = some value
  loads_empty : loads "" = none

theorem JsonCodec.dumps_ne_empty (codec : JsonCodec) (value : Json) : codec.dumps value ≠ "" := by
  intro hempty
  have hloads := codec.loads_dumps value
  rw [hempty, codec.loads_empty] at hloads
  cases hloads

/-- A value of type `T | None` as JSON. -/
def optionalJson {α : Type} (write : α → Json) : Option α → Json
  | none => .null
  | some value => write value

/-- `LegStep.model_dump(mode="json")`, and so on up: the fields under their own names. -/
def LegStep.dump (step : LegStep) : Json := .obj [
  ("distance", optionalJson .float step.distance),
  ("relative_direction", optionalJson .str step.relativeDirection),
  ("street_name", optionalJson .str step.streetName)]

def Leg.dump (leg : Leg) : Json := .obj [
  ("mode", .str leg.mode),
  ("start_time", .int leg.startTime),
  ("end_time", .int leg.endTime),
  ("duration", .float leg.duration),
  ("distance", optionalJson .float leg.distance),
  ("route_short_name", optionalJson .str leg.routeShortName),
  ("route_long_name", optionalJson .str leg.routeLongName),
  ("headsign", optionalJson .str leg.headsign),
  ("from_name", optionalJson .str leg.fromName),
  ("from_lat", optionalJson .float leg.fromLat),
  ("from_lon", optionalJson .float leg.fromLon),
  ("to_name", optionalJson .str leg.toName),
  ("to_lat", optionalJson .float leg.toLat),
  ("to_lon", optionalJson .float leg.toLon),
  ("geometry", optionalJson .str leg.geometry),
  ("steps", .arr (leg.steps.map LegStep.dump))]

def Itinerary.dump (itinerary : Itinerary) : Json := .obj [
  ("duration", .float itinerary.duration),
  ("start_time", .int itinerary.startTime),
  ("end_time", .int itinerary.endTime),
  ("legs", .arr (itinerary.legs.map Leg.dump))]

def Candidate.dump (c : Candidate) : Json :=
  .obj [("kind", .str c.kind.name), ("itinerary", c.itinerary.dump)]

/-- The payload of `_write_cached_candidates`. -/
def payload (codec : JsonCodec) (candidates : List Candidate) : String :=
  codec.dumps (.arr (candidates.map Candidate.dump))

section Validation

variable (py : Pydantic)

/-- A model is validated from an object, and its fields may stand under an alias or,
    with `populate_by_name`, under their own name. -/
def modelField (value : Json) (names : List String) : Except Json.Error (Option Json) :=
  match value with
  | .obj fields => .ok (names.findSome? (Dict.get fields))
  | _ => .error .validationError

/-- A field without a default. -/
def requiredField {α : Type} (read : Json → Option α) (value : Json) (names : List String) :
    Except Json.Error α := do
  match ← modelField value names with
  | some found => found.required read
  | none => throw .validationError

/-- A field of type `T | None` that defaults to `None`. -/
def optionalField {α : Type} (read : Json → Option α) (value : Json) (names : List String) :
    Except Json.Error (Option α) := do
  match ← modelField value names with
  | some found => found.optional read
  | none => return none

/-- A list of models. -/
def listOf {α : Type} (validate : Json → Except Json.Error α) : Json → Except Json.Error (List α)
  | .arr items => items.mapM validate
  | _ => .error .validationError

/-- A field that is a list of models. -/
def listField {α : Type} (validate : Json → Except Json.Error α) (value : Json)
    (names : List String) (default : Except Json.Error (List α)) : Except Json.Error (List α) := do
  match ← modelField value names with
  | some found => listOf validate found
  | none => default

/-- `LegStep.model_validate`. -/
def LegStep.validate (value : Json) : Except Json.Error LegStep := do
  return {
    distance := ← optionalField py.float value ["distance"]
    relativeDirection := ← optionalField py.str value ["relativeDirection", "relative_direction"]
    streetName := ← optionalField py.str value ["streetName", "street_name"] }

/-- `Leg.model_validate`. -/
def Leg.validate (value : Json) : Except Json.Error Leg := do
  let mode ← requiredField py.str value ["mode"]
  let startTime ← requiredField py.int value ["startTime", "start_time"]
  let endTime ← requiredField py.int value ["endTime", "end_time"]
  let duration ← requiredField py.float value ["duration"]
  let distance ← optionalField py.float value ["distance"]
  let routeShortName ← optionalField py.str value ["routeShortName", "route_short_name"]
  let routeLongName ← optionalField py.str value ["route_long_name"]
  let headsign ← optionalField py.str value ["headsign"]
  let fromName ← optionalField py.str value ["from_name"]
  let fromLat ← optionalField py.float value ["from_lat"]
  let fromLon ← optionalField py.float value ["from_lon"]
  let toName ← optionalField py.str value ["to_name"]
  let toLat ← optionalField py.float value ["to_lat"]
  let toLon ← optionalField py.float value ["to_lon"]
  let geometry ← optionalField py.str value ["geometry"]
  let steps ← listField (LegStep.validate py) value ["steps"] (.ok [])
  return { mode, startTime, endTime, duration, distance, routeShortName, routeLongName, headsign,
           fromName, fromLat, fromLon, toName, toLat, toLon, geometry, steps }

/-- `Itinerary.model_validate`. -/
def Itinerary.validate (value : Json) : Except Json.Error Itinerary := do
  let duration ← requiredField py.float value ["duration"]
  let startTime ← requiredField py.int value ["startTime", "start_time"]
  let endTime ← requiredField py.int value ["endTime", "end_time"]
  let legs ← listField (Leg.validate py) value ["legs"] (.error .validationError)
  return { duration, startTime, endTime, legs }

/-- A `Candidate` as it comes out of the cache: the dataclass does not check its kind. -/
structure CachedCandidate where
  kind : Json
  itinerary : Itinerary

/-- A candidate is one with the name of its kind. -/
def Candidate.asCached (c : Candidate) : CachedCandidate := ⟨.str c.kind.name, c.itinerary⟩

/-- One turn of the comprehension of `_read_cached_candidates`. -/
def parseEntry (entry : Json) : Except Json.Error CachedCandidate := do
  let kind ← entry.index "kind"
  let itinerary ← Itinerary.validate py (← entry.index "itinerary")
  return { kind, itinerary }

def parseCandidates (value : Json) : Except Json.Error (List CachedCandidate) := do
  (← value.elements).mapM (parseEntry py)

/-- `_read_cached_candidates`, given what the cache answers. -/
def readCachedCandidates (codec : JsonCodec) (answer : Except Unit (Option String)) :
    Option (List CachedCandidate) :=
  match answer with
  | .error _ => none
  | .ok none => none
  | .ok (some raw) =>
      if raw = "" then none
      else (codec.loads raw).bind fun value => (parseCandidates py value).toOption

/-! ## Reading a cached answer back -/

variable {py}

theorem optionalField_of {α : Type} {read : Json → Option α} {value found : Json}
    {names : List String} (h : modelField value names = .ok (some found)) :
    optionalField read value names = found.optional read := by
  rw [optionalField, h]
  rfl

theorem requiredField_of {α : Type} {read : Json → Option α} {value found : Json}
    {names : List String} (h : modelField value names = .ok (some found)) :
    requiredField read value names = found.required read := by
  rw [requiredField, h]
  rfl

theorem optional_optionalJson {α : Type} {read : Json → Option α} {write : α → Json}
    (hread : ∀ a, read (write a) = some a) (hnull : ∀ a, (write a).isNull = false)
    (value : Option α) : (optionalJson write value).optional read = .ok value := by
  cases value with
  | none => rfl
  | some a => simp [optionalJson, Json.optional, Json.required, hread, hnull, Except.map]

theorem optionalStr_dump {value : Json} {names : List String} {found : Option String}
    (h : modelField value names = .ok (some (optionalJson .str found))) :
    optionalField py.str value names = .ok found :=
  (optionalField_of h).trans (optional_optionalJson py.str_str (fun _ => rfl) found)

theorem optionalFloat_dump {value : Json} {names : List String} {found : Option ℚ}
    (h : modelField value names = .ok (some (optionalJson .float found))) :
    optionalField py.float value names = .ok found :=
  (optionalField_of h).trans (optional_optionalJson py.float_float (fun _ => rfl) found)

theorem requiredInt_dump {value : Json} {names : List String} {found : Int}
    (h : modelField value names = .ok (some (.int found))) :
    requiredField py.int value names = .ok found :=
  (requiredField_of h).trans (Json.required_eq_ok.mpr (py.int_int found))

theorem requiredFloat_dump {value : Json} {names : List String} {found : ℚ}
    (h : modelField value names = .ok (some (.float found))) :
    requiredField py.float value names = .ok found :=
  (requiredField_of h).trans (Json.required_eq_ok.mpr (py.float_float found))

/-- A list of models is read back element by element. -/
theorem listField_dump {α : Type} {validate : Json → Except Json.Error α} {dump : α → Json}
    {value : Json} {names : List String} {values : List α} {default : Except Json.Error (List α)}
    (hdump : ∀ a, validate (dump a) = .ok a)
    (h : modelField value names = .ok (some (.arr (values.map dump)))) :
    listField validate value names default = .ok values := by
  have hlist : (values.map dump).mapM validate = .ok values := by
    rw [Loop.mapM_eq_ok, List.forall₂_map_left_iff]
    exact List.forall₂_same.mpr fun a _ => hdump a
  rw [listField, h]
  exact hlist

theorem LegStep.validate_dump (py : Pydantic) (step : LegStep) :
    LegStep.validate py step.dump = .ok step := by
  have hdistance : optionalField py.float step.dump ["distance"] = .ok step.distance :=
    optionalFloat_dump rfl
  have hdirection : optionalField py.str step.dump ["relativeDirection", "relative_direction"] =
      .ok step.relativeDirection := optionalStr_dump rfl
  have hstreet : optionalField py.str step.dump ["streetName", "street_name"] =
      .ok step.streetName := optionalStr_dump rfl
  rw [LegStep.validate, hdistance, hdirection, hstreet]
  rfl

theorem Leg.validate_dump (py : Pydantic) (leg : Leg) : Leg.validate py leg.dump = .ok leg := by
  have hmode : requiredField py.str leg.dump ["mode"] = .ok leg.mode :=
    (requiredField_of rfl).trans (Json.required_eq_ok.mpr (py.str_str leg.mode))
  have hstartTime : requiredField py.int leg.dump ["startTime", "start_time"] = .ok leg.startTime :=
    requiredInt_dump rfl
  have hendTime : requiredField py.int leg.dump ["endTime", "end_time"] = .ok leg.endTime :=
    requiredInt_dump rfl
  have hduration : requiredField py.float leg.dump ["duration"] = .ok leg.duration :=
    requiredFloat_dump rfl
  have hdistance : optionalField py.float leg.dump ["distance"] = .ok leg.distance :=
    optionalFloat_dump rfl
  have hrouteShortName : optionalField py.str leg.dump ["routeShortName", "route_short_name"] =
      .ok leg.routeShortName := optionalStr_dump rfl
  have hrouteLongName : optionalField py.str leg.dump ["route_long_name"] = .ok leg.routeLongName :=
    optionalStr_dump rfl
  have hheadsign : optionalField py.str leg.dump ["headsign"] = .ok leg.headsign :=
    optionalStr_dump rfl
  have hfromName : optionalField py.str leg.dump ["from_name"] = .ok leg.fromName :=
    optionalStr_dump rfl
  have hfromLat : optionalField py.float leg.dump ["from_lat"] = .ok leg.fromLat :=
    optionalFloat_dump rfl
  have hfromLon : optionalField py.float leg.dump ["from_lon"] = .ok leg.fromLon :=
    optionalFloat_dump rfl
  have htoName : optionalField py.str leg.dump ["to_name"] = .ok leg.toName := optionalStr_dump rfl
  have htoLat : optionalField py.float leg.dump ["to_lat"] = .ok leg.toLat := optionalFloat_dump rfl
  have htoLon : optionalField py.float leg.dump ["to_lon"] = .ok leg.toLon := optionalFloat_dump rfl
  have hgeometry : optionalField py.str leg.dump ["geometry"] = .ok leg.geometry :=
    optionalStr_dump rfl
  have hsteps : listField (LegStep.validate py) leg.dump ["steps"] (.ok []) = .ok leg.steps :=
    listField_dump (LegStep.validate_dump py) rfl
  rw [Leg.validate, hmode, hstartTime, hendTime, hduration, hdistance, hrouteShortName,
    hrouteLongName, hheadsign, hfromName, hfromLat, hfromLon, htoName, htoLat, htoLon, hgeometry,
    hsteps]
  rfl

theorem Itinerary.validate_dump (py : Pydantic) (itinerary : Itinerary) :
    Itinerary.validate py itinerary.dump = .ok itinerary := by
  have hduration : requiredField py.float itinerary.dump ["duration"] = .ok itinerary.duration :=
    requiredFloat_dump rfl
  have hstartTime : requiredField py.int itinerary.dump ["startTime", "start_time"] =
      .ok itinerary.startTime := requiredInt_dump rfl
  have hendTime : requiredField py.int itinerary.dump ["endTime", "end_time"] =
      .ok itinerary.endTime := requiredInt_dump rfl
  have hlegs : listField (Leg.validate py) itinerary.dump ["legs"] (.error .validationError) =
      .ok itinerary.legs := listField_dump (Leg.validate_dump py) rfl
  rw [Itinerary.validate, hduration, hstartTime, hendTime, hlegs]
  rfl

theorem parseEntry_dump (py : Pydantic) (c : Candidate) :
    parseEntry py c.dump = .ok c.asCached := by
  have hkind : c.dump.index "kind" = .ok (.str c.kind.name) := rfl
  have hitinerary : c.dump.index "itinerary" = .ok c.itinerary.dump := rfl
  rw [parseEntry, hkind, hitinerary]
  simp only [bind, Except.bind, Itinerary.validate_dump]
  rfl

/-- **What is written is read back**, candidate by candidate and in order. -/
theorem readCachedCandidates_payload (py : Pydantic) (codec : JsonCodec)
    (candidates : List Candidate) :
    readCachedCandidates py codec (.ok (some (payload codec candidates))) =
      some (candidates.map Candidate.asCached) := by
  have hparse : parseCandidates py (.arr (candidates.map Candidate.dump)) =
      .ok (candidates.map Candidate.asCached) := by
    refine Loop.mapM_eq_ok.mpr ?_
    rw [List.forall₂_map_left_iff, List.forall₂_map_right_iff]
    exact List.forall₂_same.mpr fun c _ => parseEntry_dump py c
  rw [readCachedCandidates, payload, if_neg (codec.dumps_ne_empty _), codec.loads_dumps,
    Option.bind_some, hparse]
  rfl

end Validation

end FietsOfOv
