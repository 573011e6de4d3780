import FietsOfOv.Itinerary
import FietsOfOv.Lib.Json

/-!
# The routing adapter

`OTPClient.plan` of `app/clients/otp.py`, from the decoded body of a 2xx response on.
Its typed models are pydantic's; the adapter wraps the exceptions of the walk through
the itineraries in an `OTPError`, all but the `AttributeError` of a `.get`.
-/

namespace FietsOfOv

/-- How pydantic reads the field types of the models, `none` being a validation error;
    what is of the type already is taken as it is.  A finite float is given by its value. -/
structure Pydantic where
  str : Json → Option String
  int : Json → Option Int
  float : Json → Option ℚ
  str_str : ∀ value, str (.str value) = some value
  int_int : ∀ value, int (.int value) = some value
  float_float : ∀ value, float (.float value) = some value

/-- What `plan` can raise. -/
inductive PlanFault where
  | otpError
  | leaked (e : Json.Error)
deriving DecidableEq

section Decoding

variable (py : Pydantic)

/-- `LegStep(...)` as `_leg_from_graphql` builds it. -/
def legStepFromGraphql (s : Json) : Except Json.Error LegStep := do
  let distance ← s.get "distance"
  let relativeDirection ← s.get "relativeDirection"
  let streetName ← s.get "streetName"
  return {
    distance := ← distance.optional py.float
    relativeDirection := ← relativeDirection.optional py.str
    streetName := ← streetName.optional py.str }

/-- `_leg_from_graphql`. -/
def legFromGraphql (raw : Json) : Except Json.Error Leg := do
  let route := (← raw.get "route").orElse (.obj [])
  let trip := (← raw.get "trip").orElse (.obj [])
  let origin := (← raw.get "from").orElse (.obj [])
  let dest := (← raw.get "to").orElse (.obj [])
  let geometry := (← raw.get "legGeometry").orElse (.obj [])
  let steps ← (← ((← raw.get "steps").orElse (.arr [])).elements).mapM (legStepFromGraphql py)
  let mode ← raw.index "mode"
  let startTime ← raw.index "startTime"
  let endTime ← raw.index "endTime"
  let duration ← raw.index "duration"
  let distance ← raw.get "distance"
  let routeShortName ← route.get "shortName"
  let routeLongName ← route.get "longName"
  let headsign ← trip.get "tripHeadsign"
  let fromName ← origin.get "name"
  let fromLat ← origin.get "lat"
  let fromLon ← origin.get "lon"
  let toName ← dest.get "name"
  let toLat ← dest.get "lat"
  let toLon ← dest.get "lon"
  let points ← geometry.get "points"
  return {
    mode := ← mode.required py.str
    startTime := ← startTime.required py.int
    endTime := ← endTime.required py.int
    duration := ← duration.required py.float
    distance := ← distance.optional py.float
    routeShortName := ← routeShortName.optional py.str
    routeLongName := ← routeLongName.optional py.str
    headsign := ← headsign.optional py.str
    fromName := ← fromName.optional py.str
    fromLat := ← fromLat.optional py.float
    fromLon := ← fromLon.optional py.float
    toName := ← toName.optional py.str
    toLat := ← toLat.optional py.float
    toLon := ← toLon.optional py.float
    geometry := ← points.optional py.str
    steps := steps }

/-- One turn of the comprehension over the itineraries. -/
def itineraryFromGraphql (it : Json) : Except Json.Error Itinerary := do
  let duration ← it.index "duration"
  let startTime ← it.index "startTime"
  let endTime ← it.index "endTime"
  let legs ← (← (← it.index "legs").elements).mapM (legFromGraphql py)
  return {
    duration := ← duration.required py.float
    startTime := ← startTime.required py.int
    endTime := ← endTime.required py.int
    legs := legs }

/-- The guarded block of `plan`. -/
def itinerariesOf (plan : Json) : Except Json.Error (List Itinerary) := do
  (← (← plan.getD "itineraries" (.arr [])).elements).mapM (itineraryFromGraphql py)

/-- `except (KeyError, TypeError, ValidationError)`. -/
def guarded {α : Type} : Except Json.Error α → Except PlanFault α
  | .ok a => .ok a
  | .error .attributeError => .error (.leaked .attributeError)
  | .error _ => .error .otpError

/-- Outside of the guarded block every exception leaves the function. -/
def unguarded {α : Type} : Except Json.Error α → Except PlanFault α
  | .ok a => .ok a
  | .error e => .error (.leaked e)

/-- `OTPClient.plan` on the decoded body. -/
def planOf (data : Json) : Except PlanFault (List Itinerary) := do
  let errors ← unguarded (data.get "errors")
  if errors.truthy then throw .otpError
  else
    let inner ← unguarded (data.get "data")
    let plan ← unguarded ((inner.orElse (.obj [])).get "plan")
    if plan.isNull then throw .otpError
    else guarded (itinerariesOf py plan)

/-! ## What can be read, and what leaks -/

/-- A field of type `T | None` accepts the value. -/
def OptionalReads {α : Type} (read : Json → Option α) (value : Json) : Prop :=
  value.isNull = true ∨ (read value).isSome = true

structure StepReads (s : Json) : Prop where
  isObject : s.isObject = true
  distance : OptionalReads py.float (s.field "distance")
  relativeDirection : OptionalReads py.str (s.field "relativeDirection")
  streetName : OptionalReads py.str (s.field "streetName")

/-- The steps of a leg, `none` where they cannot be iterated. -/
def legSteps (leg : Json) : Option (List Json) := ((leg.field "steps").orElse (.arr [])).parts

/-- The keys a leg has to have. -/
def legKeys : List String := ["mode", "startTime", "endTime", "duration"]

/-- The nodes of a leg that are looked into with `.get`. -/
def legNodes : List String := ["route", "trip", "from", "to", "legGeometry"]

/-- Every field of the leg is of its type. -/
@[mk_iff] structure LegTyped (leg : Json) : Prop where
  mode : (py.str (leg.field "mode")).isSome = true
  startTime : (py.int (leg.field "startTime")).isSome = true
  endTime : (py.int (leg.field "endTime")).isSome = true
  duration : (py.float (leg.field "duration")).isSome = true
  distance : OptionalReads py.float (leg.field "distance")
  routeShortName : OptionalReads py.str ((leg.field "route").field "shortName")
  routeLongName : OptionalReads py.str ((leg.field "route").field "longName")
  headsign : OptionalReads py.str ((leg.field "trip").field "tripHeadsign")
  fromName : OptionalReads py.str ((leg.field "from").field "name")
  fromLat : OptionalReads py.float ((leg.field "from").field "lat")
  fromLon : OptionalReads py.float ((leg.field "from").field "lon")
  toName : OptionalReads py.str ((leg.field "to").field "name")
  toLat : OptionalReads py.float ((leg.field "to").field "lat")
  toLon : OptionalReads py.float ((leg.field "to").field "lon")
  geometry : OptionalReads py.str ((leg.field "legGeometry").field "points")

structure LegReads (leg : Json) : Prop where
  isObject : leg.isObject = true
  steps : ∃ items, legSteps leg = some items ∧ ∀ s ∈ items, StepReads py s
  keys : ∀ key ∈ legKeys, leg.has key = true
  nodes : ∀ key ∈ legNodes, (leg.field key).gettable = true
  typed : LegTyped py leg

/-- A `.get` on what is no object comes before anything that cannot be read. -/
def LegLeaks (leg : Json) : Prop :=
  leg.isObject = false ∨ ∃ items, legSteps leg = some items ∧
    (Loop.FirstFails (StepReads py) (·.isObject = false) items ∨
      (∀ s ∈ items, StepReads py s) ∧ (∀ key ∈ legKeys, leg.has key = true) ∧
        ∃ key ∈ legNodes, (leg.field key).gettable = false)

/-- The keys an itinerary has to have. -/
def itineraryKeys : List String := ["duration", "startTime", "endTime", "legs"]

structure ItineraryReads (it : Json) : Prop where
  keys : ∀ key ∈ itineraryKeys, it.has key = true
  legs : ∃ items, (it.field "legs").parts = some items ∧ ∀ leg ∈ items, LegReads py leg
  duration : (py.float (it.field "duration")).isSome = true
  startTime : (py.int (it.field "startTime")).isSome = true
  endTime : (py.int (it.field "endTime")).isSome = true

def ItineraryLeaks (it : Json) : Prop :=
  (∀ key ∈ itineraryKeys, it.has key = true) ∧ ∃ items, (it.field "legs").parts = some items ∧
    Loop.FirstFails (LegReads py) (LegLeaks py) items

/-- Walking the body in the order of the source, the first place that cannot be read is
    a `.get` on what is no object. -/
def BodyLeaks (data : Json) : Prop :=
  data.isObject = false ∨ (data.field "errors").truthy = false ∧
    ((data.field "data").gettable = false ∨
      let plan := (data.field "data").field "plan"
      plan.isNull = false ∧ (plan.isObject = false ∨
        ∃ items, (plan.field "itineraries").parts = some items ∧
          Loop.FirstFails (ItineraryReads py) (ItineraryLeaks py) items))

variable {py}

theorem legStep_leaks {s : Json} :
    legStepFromGraphql py s = .error .attributeError ↔ s.isObject = false := by
  by_cases hobject : s.isObject = true
  · simp [legStepFromGraphql, Loop.bind_eq_error, Loop.map_eq_error, hobject]
  · simp [legStepFromGraphql, Loop.bind_eq_error, hobject]

theorem legStep_reads {s : Json} :
    (∃ step, legStepFromGraphql py s = .ok step) ↔ StepReads py s := by
  simp only [legStepFromGraphql, Loop.bind_eq_ok, Json.get_eq_ok]
  constructor
  · rintro ⟨_, _, ⟨hobject, rfl⟩, _, ⟨_, rfl⟩, _, ⟨_, rfl⟩, distance, hdistance, direction,
      hdirection, street, hstreet, _⟩
    exact ⟨hobject, Json.exists_optional_eq_ok.mp ⟨_, hdistance⟩,
      Json.exists_optional_eq_ok.mp ⟨_, hdirection⟩, Json.exists_optional_eq_ok.mp ⟨_, hstreet⟩⟩
  · rintro ⟨hobject, hdistance, hdirection, hstreet⟩
    obtain ⟨distance, hdistance⟩ := Json.exists_optional_eq_ok.mpr hdistance
    obtain ⟨direction, hdirection⟩ := Json.exists_optional_eq_ok.mpr hdirection
    obtain ⟨street, hstreet⟩ := Json.exists_optional_eq_ok.mpr hstreet
    exact ⟨_, _, ⟨hobject, rfl⟩, _, ⟨hobject, rfl⟩, _, ⟨hobject, rfl⟩, distance, hdistance,
      direction, hdirection, street, hstreet, rfl⟩

theorem steps_leak {items : List Json} :
    items.mapM (legStepFromGraphql py) = .error .attributeError ↔
      Loop.FirstFails (StepReads py) (·.isObject = false) items :=
  Loop.mapM_eq_error_iff (fun _ => legStep_reads) fun _ => legStep_leaks

theorem steps_read {items : List Json} :
    (∃ steps, items.mapM (legStepFromGraphql py) = .ok steps) ↔ ∀ s ∈ items, StepReads py s := by
  simp only [Loop.mapM_isOk, legStep_reads]

/-- The first `.get` of a leg raises already, if the leg is no object. -/
theorem legFromGraphql_of_not_isObject {leg : Json} (hobject : ¬ leg.isObject = true) :
    legFromGraphql py leg = .error .attributeError := by
  have hget : leg.get "route" = .error .attributeError :=
    Json.get_eq_attributeError.mpr (Bool.not_eq_true _ ▸ hobject)
  unfold legFromGraphql
  rw [hget]
  rfl

theorem leg_leaks {leg : Json} :
    legFromGraphql py leg = .error .attributeError ↔ LegLeaks py leg := by
  by_cases hobject : leg.isObject = true
  · simp only [legFromGraphql, bind_pure_comp, Loop.bind_eq_error, Loop.map_eq_error,
      Json.get_eq_attributeError, Json.get_eq_ok, Json.elements_ne_attributeError,
      Json.elements_eq_ok, Json.index_ne_attributeError, Json.index_eq_ok, Json.isObject_orElse,
      Json.required_ne_attributeError, Json.optional_ne_attributeError, steps_leak, steps_read,
      LegLeaks, legSteps, legKeys, legNodes, hobject, Bool.true_eq_false, true_and, and_false,
      exists_const, or_self, exists_false, or_false, false_or, exists_and_right,
      ↓existsAndEq, exists_eq_left, List.mem_cons, List.not_mem_nil, forall_eq_or_imp, forall_eq,
      exists_eq_or_imp, and_assoc]
    refine exists_congr fun items => and_congr_right fun _ => or_congr_right ?_
    refine and_congr_right fun _ => and_congr_right fun _ => and_congr_right fun _ => ?_
    refine and_congr_right fun _ => and_congr_right fun _ => ?_
    cases (leg.field "route").gettable <;> cases (leg.field "trip").gettable <;>
      cases (leg.field "from").gettable <;> cases (leg.field "to").gettable <;> simp
  · simp [legFromGraphql_of_not_isObject hobject, LegLeaks, hobject]

theorem leg_reads {leg : Json} :
    (∃ l, legFromGraphql py leg = .ok l) ↔ LegReads py leg := by
  by_cases hobject : leg.isObject = true
  · simp only [legFromGraphql, bind_pure_comp, Loop.bind_isOk, Loop.map_isOk, Json.get_eq_ok,
      Json.elements_eq_ok, Json.index_eq_ok, Json.isObject_orElse, Json.field_orElse,
      Json.required_eq_ok, Json.exists_optional_eq_ok, hobject, true_and, ↓existsAndEq,
      exists_and_right, and_true, steps_read, ← Option.isSome_iff_exists]
    constructor
    · rintro ⟨items, hitems, hsteps, hmode, hstart, hend, hduration, hroute, -, htrip, hfrom, -, -,
        hto, -, -, hgeometry, htyped⟩
      refine ⟨hobject, ⟨items, hitems, hsteps⟩, ?_, ?_, (legTyped_iff py leg).mpr htyped⟩
      · simp [legKeys, hmode, hstart, hend, hduration]
      · simp [legNodes, hroute, htrip, hfrom, hto, hgeometry]
    · rintro ⟨_, ⟨items, hitems, hsteps⟩, hkeys, hnodes, htyped⟩
      simp only [legKeys, legNodes, List.forall_mem_cons] at hkeys hnodes
      obtain ⟨hmode, hstart, hend, hduration, -⟩ := hkeys
      obtain ⟨hroute, htrip, hfrom, hto, hgeometry, -⟩ := hnodes
      exact ⟨items, hitems, hsteps, hmode, hstart, hend, hduration, hroute, hroute, htrip, hfrom,
        hfrom, hfrom, hto, hto, hto, hgeometry, (legTyped_iff py leg).mp htyped⟩
  · constructor
    · rintro ⟨l, hl⟩
      rw [legFromGraphql_of_not_isObject hobject] at hl
      cases hl
    · intro hreads
      exact absurd hreads.isObject hobject

theorem legs_leak {items : List Json} :
    items.mapM (legFromGraphql py) = .error .attributeError ↔
      Loop.FirstFails (LegReads py) (LegLeaks py) items :=
  Loop.mapM_eq_error_iff (fun _ => leg_reads) fun _ => leg_leaks

theorem legs_read {items : List Json} :
    (∃ legs, items.mapM (legFromGraphql py) = .ok legs) ↔ ∀ leg ∈ items, LegReads py leg := by
  simp only [Loop.mapM_isOk, leg_reads]

theorem itinerary_leaks {it : Json} :
    itineraryFromGraphql py it = .error .attributeError ↔ ItineraryLeaks py it := by
  simp only [itineraryFromGraphql, bind_pure_comp, Loop.bind_eq_error, Loop.map_eq_error,
    Json.elements_ne_attributeError, Json.elements_eq_ok, Json.index_ne_attributeError,
    Json.index_eq_ok, Json.required_ne_attributeError, legs_leak, ItineraryLeaks, itineraryKeys,
    and_false, exists_const, or_false, false_or, true_and, ↓existsAndEq, List.mem_cons,
    List.not_mem_nil, forall_eq_or_imp, forall_eq, and_assoc]

theorem itinerary_reads {it : Json} :
    (∃ itinerary, itineraryFromGraphql py it = .ok itinerary) ↔ ItineraryReads py it := by
  simp only [itineraryFromGraphql, bind_pure_comp, Loop.bind_isOk, Loop.map_isOk,
    Json.elements_eq_ok, Json.index_eq_ok, Json.required_eq_ok, ↓existsAndEq, exists_and_right,
    and_true, legs_read, ← Option.isSome_iff_exists]
  constructor
  · rintro ⟨hduration, hstart, hend, hlegs, items, hitems, hreads, hduration', hstart', hend'⟩
    refine ⟨?_, ⟨items, hitems, hreads⟩, hduration', hstart', hend'⟩
    simp [itineraryKeys, hduration, hstart, hend, hlegs]
  · rintro ⟨hkeys, ⟨items, hitems, hreads⟩, hduration', hstart', hend'⟩
    simp only [itineraryKeys, List.forall_mem_cons] at hkeys
    obtain ⟨hduration, hstart, hend, hlegs, -⟩ := hkeys
    exact ⟨hduration, hstart, hend, hlegs, items, hitems, hreads, hduration', hstart', hend'⟩

/-! ## The adapter -/

theorem guarded_eq_leaked {α : Type} {x : Except Json.Error α} {e : Json.Error} :
    guarded x = .error (.leaked e) ↔ x = .error .attributeError ∧ e = .attributeError := by
  cases x with
  | ok a => simp [guarded]
  | error e' => cases e' <;> simp [guarded, eq_comm]

theorem unguarded_eq_leaked {α : Type} {x : Except Json.Error α} {e : Json.Error} :
    unguarded x = .error (.leaked e) ↔ x = .error e := by
  cases x <;> simp [unguarded]

theorem unguarded_eq_ok {α : Type} {x : Except Json.Error α} {a : α} :
    unguarded x = .ok a ↔ x = .ok a := by
  cases x <;> simp [unguarded]

/-- The default of `plan.get("itineraries", [])` cannot leak. -/
theorem itineraries_leak {plan : Json} :
    itinerariesOf py plan = .error .attributeError ↔
      plan.isObject = false ∨ ∃ items, (plan.field "itineraries").parts = some items ∧
        Loop.FirstFails (ItineraryReads py) (ItineraryLeaks py) items := by
  cases plan with
  | obj fields =>
      have hstart : itinerariesOf py (.obj fields) =
          (((Dict.get fields "itineraries").getD (.arr [])).elements >>= fun items =>
            items.mapM (itineraryFromGraphql py)) := rfl
      have hitems : ∀ items : List Json,
          items.mapM (itineraryFromGraphql py) = .error .attributeError ↔
            Loop.FirstFails (ItineraryReads py) (ItineraryLeaks py) items :=
        fun items => Loop.mapM_eq_error_iff (fun _ => itinerary_reads) fun _ => itinerary_leaks
      rw [hstart, Loop.bind_eq_error]
      simp only [Json.elements_ne_attributeError, Json.elements_eq_ok, hitems, false_or,
        Json.isObject, Json.field, Bool.true_eq_false]
      cases Dict.get fields "itineraries" with
      | none => simp [Json.parts, Json.elements, Except.toOption, Loop.FirstFails]
      | some itineraries => rfl
  | null | bool | int | float | nonFinite | str | arr =>
      simp [itinerariesOf, Json.getD, Loop.bind_eq_error, Json.isObject]

theorem planOf_eq_leaked {data : Json} {e : Json.Error} :
    planOf py data = .error (.leaked e) ↔ BodyLeaks py data ∧ e = .attributeError := by
  have hthrow : (throw .otpError : Except PlanFault (List Itinerary)) ≠ .error (.leaked e) := by
    rintro ⟨⟩
  simp only [planOf, Loop.bind_eq_error, unguarded_eq_leaked, unguarded_eq_ok, Json.get_eq_ok,
    Json.get_eq_error, Json.isObject_orElse, Json.field_orElse, ite_eq_iff', hthrow,
    guarded_eq_leaked, itineraries_leak, BodyLeaks, ↓existsAndEq]
  cases data.isObject <;> cases (data.field "errors").truthy <;>
    cases (data.field "data").gettable <;>
    cases ((data.field "data").field "plan").isNull <;> simp

/-- **The adapter raises nothing but its one error, unless a `.get` meets what is no
    object.** -/
theorem plan_closed_iff (py : Pydantic) (data : Json) :
    ((∃ itineraries, planOf py data = .ok itineraries) ∨ planOf py data = .error .otpError) ↔
      ¬ BodyLeaks py data := by
  constructor
  · rintro hclosed hleaks
    have hleaked : planOf py data = .error (.leaked .attributeError) :=
      planOf_eq_leaked.mpr ⟨hleaks, rfl⟩
    rw [hleaked] at hclosed
    simp at hclosed
  · intro hnone
    cases hplan : planOf py data with
    | ok itineraries => exact Or.inl ⟨itineraries, rfl⟩
    | error fault =>
        cases fault with
        | otpError => exact Or.inr rfl
        | leaked e => exact absurd (planOf_eq_leaked.mp hplan).1 hnone

end Decoding

/-- Pydantic in strict mode. -/
def strictPydantic : Pydantic where
  str
    | .str value => some value
    | _ => none
  int
    | .int value => some value
    | _ => none
  float
    | .float value => some value
    | _ => none
  str_str _ := rfl
  int_int _ := rfl
  float_float _ := rfl

/-- An empty array as the body is an `AttributeError`. -/
theorem plan_leaks :
    ¬ ∀ (py : Pydantic) (data : Json),
      (∃ itineraries, planOf py data = .ok itineraries) ∨ planOf py data = .error .otpError := by
  intro hall
  rcases hall strictPydantic (.arr []) with ⟨itineraries, hok⟩ | herror
  · cases hok
  · cases herror

end FietsOfOv
